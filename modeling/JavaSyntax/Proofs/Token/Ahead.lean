import JavaSyntax.Proofs.Token.Course

/-!
# Cursors that have read ahead

Reading ahead is not undone when a parse goes back, so the same parse can stand with two
cursors that differ only in how much they have read. The one has kept tokens that the other
one's lexer will still deliver. Nothing that a parse does can tell the two apart.
-/

namespace JavaSyntax

namespace Cursor

variable {c d : Cursor} {ts : List Token} {α : Type}

/-- A cursor that is like another one, but has already read some more tokens. Its lexer may
also have passed what stands before the next token. -/
structure AheadBy (c : Cursor) (ts : List Token) (d : Cursor) : Prop extends ReadsOn c ts d where
  of_end : c.reachedEnd = true → ts = []
  delivers : ∃ m, c.lexer.Delivers ts m ∧ m.Skips d.lexer

/-- A cursor that is like another one, but may have read ahead. -/
def Ahead (c d : Cursor) : Prop := ∃ ts, c.AheadBy ts d

/-- Two readings come to the same, and leave cursors of which the second has read ahead. -/
def Agree (x y : Except LexError α × Cursor) : Prop := x.1 = y.1 ∧ x.2.Ahead y.2

/-- Cursors that have read the same are ahead of each other. -/
theorem aheadBy_nil (hposition : d.position = c.position) (hsplits : d.splits = c.splits)
    (hbuffer : d.buffer = c.buffer) (hlexer : d.lexer = c.lexer) : c.AheadBy [] d := by
  refine ⟨⟨hposition, hsplits, by simp [hbuffer], ?_⟩, fun _ => rfl, c.lexer, .nil _, ?_⟩
  · rw [text, text, hlexer]
  · rw [hlexer]
    exact .refl _

/-- Every cursor is ahead of itself, by nothing. -/
theorem Ahead.refl (c : Cursor) : c.Ahead c := ⟨[], aheadBy_nil rfl rfl rfl rfl⟩

/-- A cursor that is ahead by nothing has the same tokens. -/
theorem AheadBy.buffer_eq_of_nil (h : c.AheadBy [] d) : d.buffer = c.buffer :=
  Array.toList_inj.mp (by simpa using h.buffer_eq)

/-! ### Reading -/

/-- What the one cursor has kept, the other one's lexer delivers. -/
theorem AheadBy.readTokens (h : c.AheadBy ts d) (n : Nat) :
    Agree (readTokens n c) (readTokens (n - ts.length) d) := by
  induction n generalizing c d ts with
  | zero =>
    rw [Nat.zero_sub]
    exact ⟨rfl, ts, h⟩
  | succ n ih =>
    rw [readTokens_succ_apply n c]
    by_cases hend : c.reachedEnd = true
    · obtain rfl := h.of_end hend
      have hend' : d.reachedEnd = true := by rwa [reachedEnd, h.buffer_eq_of_nil]
      rw [if_pos hend, List.length_nil, Nat.sub_zero, readTokens_succ_apply n d, if_pos hend']
      exact ⟨rfl, [], h⟩
    rw [if_neg hend, readToken_apply]
    obtain ⟨m, hdelivers, hskips⟩ := h.delivers
    cases hdelivers with
    | nil =>
      -- neither has anything left, so both ask lexers that answer alike
      have hbuffer := h.buffer_eq_of_nil
      have hend' : ¬ d.reachedEnd = true := by rwa [reachedEnd, hbuffer]
      rw [List.length_nil, Nat.sub_zero, readTokens_succ_apply n d, if_neg hend',
        readToken_apply, ← hskips.lex_eq]
      rcases c.lexer.lex with ⟨e | t, lexer, events⟩
      · exact ⟨rfl, [], aheadBy_nil h.position_eq h.splits_eq hbuffer rfl⟩
      · refine @ih _ _ [] ?_
        exact aheadBy_nil h.position_eq h.splits_eq (by simp only [hbuffer]) rfl
    | @cons _ _ t ts hresult htend htail =>
      -- the one lexer delivers what the other cursor already holds
      have htext := c.lexer.text_lex
      rcases hlex : c.lexer.lex with ⟨e | u, lexer, events⟩
      · rw [hlex] at hresult
        cases hresult
      rw [hlex] at hresult htail htext
      cases hresult
      rw [List.length_cons, Nat.add_sub_add_right]
      refine ih ⟨⟨h.position_eq, h.splits_eq, ?_, ?_⟩, ?_, m, htail, hskips⟩
      · simp [h.buffer_eq]
      · exact h.text_eq.trans htext.symm
      · intro hreached
        apply htend
        simpa [reachedEnd] using hreached

/-- Tokens that were read are where they were for a cursor that has read ahead. -/
theorem AheadBy.getElem?_eq (h : c.AheadBy ts d) {i : Nat} (hi : i < c.buffer.size) :
    d.buffer[i]? = c.buffer[i]? := by
  rw [← Array.getElem?_toList, ← Array.getElem?_toList, h.buffer_eq]
  exact List.getElem?_append_left (by simpa using hi)

/-- Both cursors find the same token where the first one has read, or everywhere if it has read
all. -/
theorem AheadBy.tokenAt_eq (h : c.AheadBy ts d) {i : Nat}
    (hread : i < c.buffer.size ∨ c.reachedEnd = true) : d.tokenAt i = c.tokenAt i := by
  rcases hread with hlt | hend
  · rw [tokenAt, tokenAt, h.getElem?_eq hlt]
    simp [hlt]
  · obtain rfl := h.of_end hend
    rw [tokenAt, tokenAt, h.buffer_eq_of_nil]

/-- Looking ahead finds the same token. -/
theorem Ahead.peekAhead (h : c.Ahead d) (n : Nat) : Agree (peekAhead n c) (peekAhead n d) := by
  obtain ⟨ts, h⟩ := h
  have hsize := h.size_eq
  have hcount : c.position + n + 1 - d.buffer.size =
      c.position + n + 1 - c.buffer.size - ts.length := by omega
  rw [peekAhead_apply, peekAhead_apply, h.position_eq, hcount]
  have hagree := h.readTokens (c.position + n + 1 - c.buffer.size)
  generalize Cursor.readTokens (c.position + n + 1 - c.buffer.size - ts.length) d = second at hagree
  have hreads := reads_readTokens (c.position + n + 1 - c.buffer.size) c
  generalize Cursor.readTokens (c.position + n + 1 - c.buffer.size) c = first at hagree hreads
  obtain ⟨result, d'⟩ := second
  obtain ⟨hresult, us, hahead⟩ := hagree
  cases hreads with
  | @done c' vs hreads hlexer hend hmost henough =>
    subst hresult
    have hread : c.position + n < c'.buffer.size ∨ c'.reachedEnd = true := by
      refine henough.imp_left ?_
      intro hlength
      have := hreads.size_eq
      omega
    exact ⟨by simp only [hahead.tokenAt_eq hread], us, hahead⟩
  | failed =>
    subst hresult
    exact ⟨rfl, us, hahead⟩

/-! ### Moving -/

/-- Reading ahead stays what it is when a token is passed. -/
theorem Ahead.pastToken (h : c.Ahead d) (t : Token) : (c.pastToken t).Ahead (d.pastToken t) := by
  obtain ⟨ts, ⟨hposition, hsplits, hbuffer, htext⟩, hend, hdelivers⟩ := h
  unfold Cursor.pastToken
  split
  · exact ⟨ts, ⟨hposition, hsplits, hbuffer, htext⟩, hend, hdelivers⟩
  · exact ⟨ts, ⟨congrArg (· + 1) hposition, hsplits, hbuffer, htext⟩, hend, hdelivers⟩

/-- Taking a token comes to the same for a cursor that has read ahead. -/
theorem Ahead.advance (h : c.Ahead d) : Agree (advance c) (advance d) := by
  obtain ⟨hresult, hahead⟩ := h.peekAhead 0
  rw [advance_apply, advance_apply]
  generalize Cursor.peekAhead 0 c = first at hresult hahead
  generalize Cursor.peekAhead 0 d = second at hresult hahead
  obtain ⟨result, c'⟩ := first
  obtain ⟨_, d'⟩ := second
  cases hresult
  cases result with
  | error e => exact ⟨rfl, hahead⟩
  | ok t => exact ⟨rfl, hahead.pastToken t⟩

/-- Two cursors that come from the same whole tokens by the same splits, but for what the
second has read ahead. -/
theorem aheadBy_of_splitsTo (hc : c.WellFormed) (hd : d.WellFormed)
    (hposition : d.position = c.position) (hsplits : d.splits = c.splits)
    (hwholes : d.wholes = c.wholes ++ ts) (htext : d.text = c.text)
    (hend : c.reachedEnd = true → ts = [])
    (hdelivers : ∃ m, c.lexer.Delivers ts m ∧ m.Skips d.lexer) : c.AheadBy ts d := by
  refine ⟨⟨hposition, hsplits, ?_, htext⟩, hend, hdelivers⟩
  have hdirect := hd.splitsTo
  rw [hwholes, hsplits] at hdirect
  exact hdirect.unique (hc.splitsTo.append ts)

/-- Splitting the same token keeps a cursor ahead. -/
theorem Ahead.takeHead (h : c.Ahead d) (hc : c.WellFormed) {t : Token} {kind : TokenKind}
    (ht : c.buffer[c.position]? = some t) (hkind : t.kind.afterGreater? = some kind) :
    (c.takeHead t kind).Ahead (d.takeHead t kind) := by
  obtain ⟨ts, h⟩ := h
  obtain ⟨hlt, -⟩ := Array.getElem?_eq_some_iff.mp ht
  obtain ⟨hd, hwholes⟩ := hc.readsOn h.toReadsOn
  have ht' : d.buffer[d.position]? = some t := by
    rw [h.position_eq, h.getElem?_eq hlt, ht]
  obtain ⟨hcsplit, hcwholes⟩ := hc.withSplit ht hkind
  obtain ⟨hdsplit, hdwholes⟩ := hd.withSplit ht' hkind
  refine Ahead.pastToken ⟨ts, aheadBy_of_splitsTo hcsplit hdsplit h.position_eq ?_ ?_ h.text_eq ?_
    h.delivers⟩ _
  · simp only [withSplit, h.position_eq, h.splits_eq]
  · rw [hdwholes, hwholes, hcwholes]
  · rw [hcsplit.reachedEnd_eq, hcwholes, ← hc.reachedEnd_eq]
    exact h.of_end

/-- Taking a closing angle comes to the same for a cursor that has read ahead. -/
theorem Ahead.closing? (h : c.Ahead d) (hc : c.Settled) : Agree (closing? c) (closing? d) := by
  obtain ⟨ts, h⟩ := h
  have hd := hc.readsOn h.toReadsOn
  obtain ⟨hresult, hahead⟩ := Ahead.peekAhead ⟨ts, h⟩ 0
  obtain ⟨⟨hcourse, -⟩, hfound⟩ := hc.peekAhead 0
  rw [hc.closing?_apply, hd.closing?_apply]
  generalize Cursor.peekAhead 0 c = first at hresult hahead hcourse hfound
  generalize Cursor.peekAhead 0 d = second at hresult hahead
  obtain ⟨result, c'⟩ := first
  obtain ⟨_, d'⟩ := second
  cases hresult
  cases result with
  | error e => exact ⟨rfl, hahead⟩
  | ok t =>
    dsimp only
    split
    · exact ⟨rfl, hahead.pastToken t⟩
    cases hkind : t.kind.afterGreater? with
    | none => exact ⟨rfl, hahead⟩
    | some kind =>
      obtain ⟨hposition, ht⟩ := hfound t c' rfl
      rw [Nat.add_zero, ← hposition] at ht
      have hhead := ht (Token.isEnd_of_afterGreater? hkind)
      exact ⟨rfl, hahead.takeHead hcourse.settled.toWellFormed hhead hkind⟩

/-- Going back to the same position keeps a cursor ahead. -/
theorem Ahead.restore (h : c.Ahead d) (hc : c.WellFormed) (saved : Nat) :
    (c.restore saved).Ahead (d.restore saved) := by
  obtain ⟨ts, h⟩ := h
  obtain ⟨hd, hwholes⟩ := hc.readsOn h.toReadsOn
  obtain ⟨hcback, hcwholes, hcsplits⟩ := hc.restore saved
  obtain ⟨hdback, hdwholes, hdsplits⟩ := hd.restore saved
  refine ⟨ts, aheadBy_of_splitsTo hcback hdback rfl ?_ ?_ h.text_eq ?_ h.delivers⟩
  · rw [hcsplits, hdsplits, h.splits_eq]
  · rw [hdwholes, hwholes, hcwholes]
  · rw [hcback.reachedEnd_eq, hcwholes, ← hc.reachedEnd_eq]
    exact h.of_end

/-- Notes do not matter to who has read ahead. -/
theorem Ahead.note (h : c.Ahead d) (e f : LogEvent) : (c.note e).Ahead (d.note f) := by
  obtain ⟨ts, ⟨hposition, hsplits, hbuffer, htext⟩, hend, hdelivers⟩ := h
  exact ⟨ts, ⟨hposition, hsplits, hbuffer, htext⟩, hend, hdelivers⟩

/-! ### Spans -/

/-- A cursor that has read ahead is in the same text. -/
theorem Ahead.text_eq (h : c.Ahead d) : d.text = c.text := by
  obtain ⟨ts, h⟩ := h
  exact h.toReadsOn.text_eq

/-- The span from a token that was read is the same. -/
theorem Ahead.spanFrom_eq (h : c.Ahead d) (hc : c.Settled) {start : Nat}
    (hstart : start < c.buffer.size) : d.spanFrom start = c.spanFrom start := by
  obtain ⟨ts, h⟩ := h
  have hprevious : d.previous = c.previous := by
    rw [previous, previous, h.position_eq]
    split
    · rfl
    · apply h.getElem?_eq
      have := hc.position_le
      omega
  rw [spanFrom, spanFrom, hprevious, h.position_eq, h.getElem?_eq hstart]

/-! ### Going back to where a course began -/

/-- A cursor that goes back to where its course began has at most read ahead, unless the
lexer has refused a lexeme and passed it. -/
theorem Course.ahead_restore {c' : Cursor} {o : Option LexError} (hc : c.Settled)
    (h : Course c.position c o c')
    (hstays : ∀ e, o = some e → c'.lexer.position.offset ≤ e.offset) :
    c.Ahead (c'.restore c.position) := by
  have hrecalls := h.recalls c (Nat.le_refl _) hc.recalls
  have hc' := h.settled.toWellFormed
  obtain ⟨hback, hwholes, -⟩ := hc'.restore c.position
  obtain ⟨-, hsplits, -⟩ := hrecalls.restore_eq hc'
  cases h.trace with
  | @read _ ts hgains =>
    exact ⟨ts, aheadBy_of_splitsTo hc.toWellFormed hback rfl hsplits
      (hwholes.trans hgains.wholes_eq) h.text_eq hgains.of_end ⟨_, hgains.delivers, .refl _⟩⟩
  | @refused _ ts m e hgains herror hafter =>
    have hskips : m.Skips c'.lexer := by
      have hoffset := hstays e rfl
      rw [hafter] at hoffset ⊢
      rcases (Lexer.lex_error herror).2 with hskips | hpassed
      · exact hskips
      · omega
    exact ⟨ts, aheadBy_of_splitsTo hc.toWellFormed hback rfl hsplits
      (hwholes.trans hgains.wholes_eq) h.text_eq hgains.of_end ⟨m, hgains.delivers, hskips⟩⟩

end Cursor

end JavaSyntax
