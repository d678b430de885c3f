import JavaSyntax.Proofs.Token.Course

/-!
# The tokens that a cursor has passed

A parse that succeeds is told by the tokens that it has passed. Those before a position
stay what they are as long as the cursor does not go back before that position, they lie
in the text in their order, and each of them is a token of the text or a part of one.
-/

namespace JavaSyntax

/-- A text that can be split into tokens. -/
structure Tokenized where
  text : String
  preferences : LexicalPreferences
  failure_eq : (tokenize text preferences).failure = none

namespace Tokenized

variable (x : Tokenized)

/-- The tokens of the text, with its end as the last one. -/
def tokens : List Token := (tokenize x.text x.preferences).tokens

/-- Splitting such a text into tokens comes to its tokens. -/
theorem toExcept_tokenize : (tokenize x.text x.preferences).toExcept = .ok x.tokens :=
  LexRun.toExcept_eq_ok.mpr ⟨x.failure_eq, rfl⟩

/-- Only the end of a text is an empty token. -/
theorem source_ne_empty {t : Token} (ht : t ∈ x.tokens) (hend : t.isEnd = false) :
    t.source ≠ "" := by
  obtain ⟨body, m, -, hread, -, htokens⟩ := tokenize_eq_ok x.toExcept_tokenize
  rw [htokens] at ht
  rcases List.mem_append.mp ht with ht | ht
  · refine hread.nonempty ⟨t.span, t.source⟩ (List.mem_append_left _ ?_)
    exact List.mem_flatMap.mpr ⟨t, ht, by simp [Token.fragments]⟩
  · rw [List.mem_singleton.mp ht] at hend
    cases hend

/-- The lexer delivers the tokens of the text from its start. -/
theorem exists_delivers : ∃ m, (Lexer.ofText x.text x.preferences).Delivers x.tokens m := by
  obtain ⟨ts, m, hdelivers, htokens⟩ :=
    Lexer.exists_delivers_of_runFrom (.ofText x.text x.preferences) [] [] x.failure_eq
  rw [show x.tokens = ts from htokens]
  exact ⟨m, hdelivers⟩

/-- All tokens of the text are spelt as their kinds demand. -/
theorem spelt {t : Token} (ht : t ∈ x.tokens) : t.Spelt := by
  obtain ⟨m, hdelivers⟩ := x.exists_delivers
  exact hdelivers.spelt t ht

end Tokenized

/-! ### Parts of a token -/

namespace Token

/-- A token is another one, or a part of it that splitting has made. -/
inductive PartOf (w : Token) : Token → Prop
  | whole : PartOf w w
  | head {t : Token} {kind : TokenKind} (h : PartOf w t) (hkind : t.kind.afterGreater? = some kind) :
      PartOf w t.greaterHead
  | tail {t : Token} {kind : TokenKind} (h : PartOf w t) (hkind : t.kind.afterGreater? = some kind) :
      PartOf w (t.greaterTail kind)

/-- The place after so many `>` at the start of a token. -/
def pastGreaters (t : Token) (n : Nat) : Position :=
  ⟨t.span.start.offset + n, t.span.start.line, t.span.start.column + n⟩

/-- A token ends at a place, or it can be split and the place comes after some of the `>` that
it starts with. -/
def StopsAt (t : Token) (p : Position) : Prop :=
  p = t.span.stop ∨
    t.kind.afterGreater?.isSome = true ∧
      ∃ n, 0 < n ∧ List.replicate n '>' <+: t.source.toList ∧ p = t.pastGreaters n

end Token

/-- Whether a token of a kind can be the first one of a node. Those that start with `>` cannot,
nor can what remains of them when the `>` is split off. -/
def TokenKind.leads : TokenKind → Bool
  | .greater | .shiftRight | .unsignedShiftRight | .greaterEqual | .shiftRightAssign
  | .unsignedShiftRightAssign | .assign | .endOfInput => false
  | _ => true

/-- What remains of a token behind its `>` cannot be the first token of a node, and is not
empty. -/
theorem TokenKind.leads_of_afterGreater? {kind rest : TokenKind}
    (h : kind.afterGreater? = some rest) : rest.leads = false ∧ rest.symbol? ≠ some "" := by
  cases kind <;> cases h <;> exact ⟨rfl, by decide +kernel⟩

namespace Token.PartOf

variable {w t : Token}

/-- A part that can start a node is the whole token. -/
theorem eq_of_leads (h : w.PartOf t) (hleads : t.kind.leads = true) : t = w := by
  cases h with
  | whole => rfl
  | head h hkind => cases hleads
  | tail h hkind =>
    have hnot := (TokenKind.leads_of_afterGreater? hkind).1
    exact absurd (hnot.symm.trans hleads) Bool.false_ne_true

/-- The end of the text has no other parts. -/
theorem eq_of_isEnd (h : w.PartOf t) (hend : w.isEnd = true) : t = w := by
  induction h with
  | whole => rfl
  | head h hkind ih | tail h hkind ih =>
    rw [← ih, isEnd_of_afterGreater? hkind] at hend
    cases hend

/-- Parts of a token are spelt as their kinds demand if the token is. -/
theorem spelt (h : w.PartOf t) (hw : w.Spelt) : t.Spelt := by
  induction h with
  | whole => exact hw
  | head h hkind ih => exact spelt_greaterHead _
  | tail h hkind ih => exact ih.greaterTail hkind

/-- A part stands after some of the `>` of its token. It goes on to the end of the token, or it
is one `>` itself. -/
theorem exists_pastGreaters (h : w.PartOf t) (hw : w.Spelt) :
    ∃ n, t.span.start = w.pastGreaters n ∧
      (t.span.stop = w.span.stop ∧ w.source.toList = List.replicate n '>' ++ t.source.toList ∨
        w.kind.afterGreater?.isSome = true ∧ t.span.stop = w.pastGreaters (n + 1) ∧
          t.kind = .greater ∧ List.replicate (n + 1) '>' <+: w.source.toList) ∧
      (t.kind.afterGreater?.isSome = true → w.kind.afterGreater?.isSome = true) := by
  induction h with
  | whole => exact ⟨0, rfl, .inl ⟨rfl, rfl⟩, id⟩
  | @head t kind h hkind ih =>
    obtain ⟨n, hstart, hstop, hsplit⟩ := ih
    have hcan := hsplit (by rw [hkind]; rfl)
    refine ⟨n, hstart, .inr ⟨hcan, ?_, rfl, ?_⟩, nofun⟩
    · simp only [greaterHead, secondPosition, hstart, pastGreaters, Nat.add_assoc]
    · rcases hstop with ⟨-, hsource⟩ | ⟨-, -, hgreater, -⟩
      · obtain ⟨text, -, hspelt, -⟩ := (h.spelt hw).source_eq hkind
        refine ⟨text.toList, ?_⟩
        rw [hsource, hspelt, String.toList_append, List.replicate_succ', List.append_assoc]
        rfl
      · rw [hgreater] at hkind
        cases hkind
  | @tail t kind h hkind ih =>
    obtain ⟨n, hstart, hstop, hsplit⟩ := ih
    have hcan := hsplit (by rw [hkind]; rfl)
    rcases hstop with ⟨hstop, hsource⟩ | ⟨-, -, hgreater, -⟩
    · refine ⟨n + 1, ?_, .inl ⟨hstop, ?_⟩, fun _ => hcan⟩
      · simp only [greaterTail, secondPosition, hstart, pastGreaters, Nat.add_assoc]
      · obtain ⟨text, -, hspelt, htail⟩ := (h.spelt hw).source_eq hkind
        rw [htail, hsource, hspelt, String.toList_append, List.replicate_succ', List.append_assoc]
        rfl
    · rw [hgreater] at hkind
      cases hkind

/-- A part ends where its token does, or after some of the `>` that the token starts with. -/
theorem stopsAt (h : w.PartOf t) (hw : w.Spelt) : w.StopsAt t.span.stop := by
  obtain ⟨n, -, ⟨hstop, -⟩ | ⟨hcan, hstop, -, hgreaters⟩, -⟩ := h.exists_pastGreaters hw
  · exact .inl hstop
  · exact .inr ⟨hcan, n + 1, Nat.succ_pos n, hgreaters, hstop⟩

/-- Splitting makes no empty parts. -/
theorem source_ne_empty (h : w.PartOf t) (hw : w.Spelt)
    (hsource : w.isEnd = false → w.source ≠ "") (hend : t.isEnd = false) : t.source ≠ "" := by
  cases h with
  | whole => exact hsource hend
  | head _ _ =>
    change ">" ≠ ""
    decide +kernel
  | tail hpart hkind =>
    obtain ⟨text, hsymbol, -, htail⟩ := (hpart.spelt hw).source_eq hkind
    rw [htail]
    rintro rfl
    exact (TokenKind.leads_of_afterGreater? hkind).2 hsymbol

end Token.PartOf

/-- Every token of a buffer is a part of a whole token. -/
theorem SplitsTo.exists_partOf {tokens buffer : List Token} {splits : List (Nat × Token)}
    (h : SplitsTo tokens splits buffer) {t : Token} (ht : t ∈ buffer) :
    ∃ w ∈ tokens, w.PartOf t := by
  induction h generalizing t with
  | whole => exact ⟨t, ht, .whole⟩
  | @split splits pre post u kind h hkind ih =>
    simp only [List.mem_append, List.mem_cons] at ht ih
    rcases ht with ht | rfl | rfl | ht
    · exact ih (.inl ht)
    · obtain ⟨w, hw, hpart⟩ := ih (t := u) (.inr (.inl rfl))
      exact ⟨w, hw, hpart.head hkind⟩
    · obtain ⟨w, hw, hpart⟩ := ih (t := u) (.inr (.inl rfl))
      exact ⟨w, hw, hpart.tail hkind⟩
    · exact ih (.inr (.inr ht))

/-- The end of the text can only be the last token of a buffer. -/
theorem SplitsTo.isEnd_dropLast {tokens buffer : List Token} {splits : List (Nat × Token)}
    (h : SplitsTo tokens splits buffer) (htokens : ∀ t ∈ tokens.dropLast, t.isEnd = false) :
    ∀ t ∈ buffer.dropLast, t.isEnd = false := by
  induction h with
  | whole => exact htokens
  | @split splits pre post u kind h hkind ih =>
    intro t ht
    rw [List.dropLast_append_of_ne_nil (by simp)] at ih ht
    rcases List.mem_append.mp ht with ht | ht
    · exact ih t (List.mem_append_left _ ht)
    have hopen : (u.greaterTail kind).isEnd = false :=
      beq_false_of_ne (TokenKind.ne_endOfInput_of_afterGreater? hkind).2
    cases post with
    | nil =>
      rw [List.mem_singleton.mp ht]
      rfl
    | cons v post =>
      rcases List.mem_cons.mp ht with rfl | ht
      · rfl
      rcases List.mem_cons.mp ht with rfl | ht
      · exact hopen
      · exact ih t (List.mem_append_right _ (List.mem_cons_of_mem _ ht))

/-- Going back to an index leaves everything before it alone. -/
theorem SplitsTo.take_undoSplits {tokens buffer : List Token} {splits : List (Nat × Token)}
    (h : SplitsTo tokens splits buffer) (saved : Nat) :
    (Cursor.undoSplits buffer.toArray saved splits).1.toList.take saved = buffer.take saved := by
  induction h with
  | whole => rfl
  | @split splits pre post t kind h hkind ih =>
    rw [Cursor.undoSplits]
    by_cases hindex : pre.length < saved
    · rw [if_pos hindex]
    · obtain ⟨buffer, hundo, h', -⟩ := (h.split hkind).undoSplit
      obtain rfl := h'.unique h
      have hle : saved ≤ pre.length := by omega
      rw [if_neg hindex, hundo, ih, List.take_append_of_le_length hle,
        List.take_append_of_le_length hle]

/-- A lexer keeps its text. -/
theorem Lexer.Delivers.text_eq {l m : Lexer} {ts : List Token} (h : l.Delivers ts m) :
    m.text = l.text := by
  induction h with
  | nil => rfl
  | cons _ _ _ ih => rw [ih, Lexer.text_lex]

namespace Cursor

variable {x : Tokenized} {c c' : Cursor} {b : Nat} {o : Option LexError}

/-! ### Cursors on a text -/

/-- A settled cursor over a text that can be split into tokens. -/
structure On (x : Tokenized) (c : Cursor) : Prop where
  settled : c.Settled
  onText : c.Over x.text x.preferences

/-- A cursor stays over its text as long as the lexer refuses nothing. -/
theorem Course.over {text : String} {preferences : LexicalPreferences} (h : Course b c none c')
    (hc : c.Over text preferences) : c'.Over text preferences := by
  refine ⟨h.settled.toWellFormed, ?_⟩
  cases h.trace with
  | @read _ ts hgains =>
    rw [hgains.wholes_eq]
    refine hc.delivers.append hgains.delivers ?_
    intro t ht hend
    apply hgains.of_end
    rw [hc.wellFormed.reachedEnd_eq]
    exact hc.delivers.isEnd_getLast? ht hend

/-- A course stays on its text. -/
theorem Course.on (h : Course b c none c') (hc : c.On x) : c'.On x :=
  ⟨h.settled, h.over hc.onText⟩

/-- Notes do not matter to where a cursor is. -/
theorem On.withJournal (h : c.On x) (journal : Array LogEvent) :
    ({ c with journal := journal } : Cursor).On x :=
  ((Course.refl h.settled (Nat.le_refl _)).withJournal journal).on h

namespace On

/-- A cursor on a text has that text. -/
theorem text_eq (h : c.On x) : c.text = x.text := h.onText.delivers.text_eq

/-- The whole tokens that were read are the first ones of the text. -/
theorem isPrefix (h : c.On x) : c.wholes <+: x.tokens :=
  h.onText.delivers.isPrefix_runFrom [] []

/-- The whole tokens of a cursor are spelt as their kinds demand. -/
theorem spelt (h : c.On x) : ∀ t ∈ c.wholes, t.Spelt := h.onText.delivers.spelt

/-- A cursor that has seen the end of the text has seen all of it. -/
theorem wholes_eq (h : c.On x) {t : Token} (ht : t ∈ c.buffer.toList)
    (hend : t.isEnd = true) : c.wholes = x.tokens := by
  have hmem := h.settled.splitsTo.mem_of_isEnd ht hend
  have hlast := h.onText.delivers.isEnd_getLast? hmem hend
  exact (h.onText.delivers.runFrom_of_end hlast [] []).2.symm

/-- Every token that a cursor has is part of a token of the text. -/
theorem exists_partOf (h : c.On x) {t : Token} (ht : t ∈ c.buffer.toList) :
    ∃ w ∈ x.tokens, w.Spelt ∧ w.PartOf t := by
  obtain ⟨w, hw, hpart⟩ := h.settled.splitsTo.exists_partOf ht
  exact ⟨w, h.isPrefix.subset hw, h.spelt w hw, hpart⟩

/-- A token that can be the first one of a node is a token of the text, and no part of one. -/
theorem mem_of_leads (h : c.On x) {t : Token} (ht : t ∈ c.buffer.toList)
    (hleads : t.kind.leads = true) : t ∈ x.tokens := by
  obtain ⟨w, hw, -, hpart⟩ := h.exists_partOf ht
  rw [hpart.eq_of_leads hleads]
  exact hw

/-- Every token that a cursor has stops where a token of the text does or can be split. -/
theorem exists_stopsAt (h : c.On x) {t : Token} (ht : t ∈ c.buffer.toList) :
    ∃ w ∈ x.tokens, w.StopsAt t.span.stop := by
  obtain ⟨w, hw, hspelt, hpart⟩ := h.exists_partOf ht
  exact ⟨w, hw, hpart.stopsAt hspelt⟩

/-- The tokens that a cursor has, with what stands before them, tile the text up to where they
end. -/
theorem tiles (h : c.On x) :
    Tiles x.text 0 (c.buffer.toList.flatMap Token.fragments)
      (reconstruct c.buffer.toList).utf8ByteSize :=
  (h.onText.tiles x.toExcept_tokenize h.isPrefix).2.2

end On

end Cursor

/-! ### The order of tokens -/

/-- What tiles cover starts where they start, whether they belong to the first token or to a
later one. -/
theorem Tiles.of_token {text : String} {t : Token} {fs : List Fragment} {start stop : Nat}
    (h : Tiles text start (t.fragments ++ fs) stop) :
    start ≤ t.span.start.offset ∧
      t.span.stop.offset = t.span.start.offset + t.source.utf8ByteSize ∧
      Tiles text t.span.stop.offset fs stop := by
  rw [Token.fragments, List.append_assoc] at h
  obtain ⟨middle, hbefore, htoken⟩ := h.exists_of_append
  cases htoken with
  | cons hsize _ htail =>
    refine ⟨?_, hsize, htail⟩
    have hmiddle := hbefore.stop_eq
    dsimp only at hmiddle
    omega

/-- Tokens that tile a text start at or after its start. -/
theorem Tiles.le_start {text : String} {ts : List Token} {start stop : Nat}
    (h : Tiles text start (ts.flatMap Token.fragments) stop) :
    ∀ t ∈ ts, start ≤ t.span.start.offset := by
  induction ts generalizing start with
  | nil =>
    intro t ht
    cases ht
  | cons t ts ih =>
    obtain ⟨hstart, hsize, htail⟩ := h.of_token
    intro u hu
    rcases List.mem_cons.mp hu with rfl | hu
    · exact hstart
    · have := ih htail u hu
      omega

/-- Tokens whose fragments tile a text come one after the other. -/
theorem Tiles.pairwise {text : String} {ts : List Token} {start stop : Nat}
    (h : Tiles text start (ts.flatMap Token.fragments) stop) :
    ts.Pairwise fun t u => t.span.stop.offset ≤ u.span.start.offset := by
  induction ts generalizing start with
  | nil => exact .nil
  | cons t ts ih =>
    obtain ⟨-, -, htail⟩ := h.of_token
    exact .cons htail.le_start (ih htail)

/-- A token that tiles a text covers as many bytes as its source has. -/
theorem Tiles.size_eq {text : String} {ts : List Token} {start stop : Nat}
    (h : Tiles text start (ts.flatMap Token.fragments) stop) :
    ∀ t ∈ ts, t.span.stop.offset = t.span.start.offset + t.source.utf8ByteSize := by
  induction ts generalizing start with
  | nil =>
    intro t ht
    cases ht
  | cons t ts ih =>
    obtain ⟨-, hsize, htail⟩ := h.of_token
    intro u hu
    rcases List.mem_cons.mp hu with rfl | hu
    · exact hsize
    · exact ih htail u hu

namespace Cursor

variable {x : Tokenized} {c c' : Cursor} {b : Nat} {o : Option LexError}

namespace On

/-- Tokens stop before later ones start. -/
theorem pairwise (h : c.On x) :
    c.buffer.toList.Pairwise fun t u => t.span.stop.offset ≤ u.span.start.offset :=
  h.tiles.pairwise

/-- Only the end of the text is an empty token. -/
theorem start_lt_stop (h : c.On x) {t : Token} (ht : t ∈ c.buffer.toList)
    (hend : t.isEnd = false) : t.span.start.offset < t.span.stop.offset := by
  have hsize := h.tiles.size_eq t ht
  obtain ⟨w, hw, hspelt, hpart⟩ := h.exists_partOf ht
  have hsource := hpart.source_ne_empty hspelt (x.source_ne_empty hw) hend
  have hpos : t.source.utf8ByteSize ≠ 0 := by simpa using hsource
  omega

end On

/-! ### What lies before the position -/

/-- The tokens before the position. -/
def passed (c : Cursor) : List Token := c.buffer.toList.take c.position

/-- As many tokens were passed as the position says. -/
theorem Settled.length_passed (h : c.Settled) : c.passed.length = c.position := by
  have hle := h.position_le
  simp [passed]
  omega

/-- Tokens that were passed are in the buffer. -/
theorem On.mem_buffer (_ : c.On x) {t : Token} (ht : t ∈ c.passed) : t ∈ c.buffer.toList :=
  List.mem_of_mem_take ht

/-- The end of the text can only be the last token that was read. -/
theorem Over.isEnd_dropLast {text : String} {preferences : LexicalPreferences}
    (h : c.Over text preferences) : ∀ t ∈ c.buffer.toList.dropLast, t.isEnd = false := by
  refine h.wellFormed.splitsTo.isEnd_dropLast ?_
  intro u hu
  obtain ⟨pre, post, hsplit⟩ := List.append_of_mem hu
  have hne : c.wholes ≠ [] := by
    rintro hnil
    simp [hnil] at hu
  have hwholes : c.wholes = pre ++ u :: (post ++ [c.wholes.getLast hne]) := by
    rw [← List.cons_append, ← List.append_assoc, ← hsplit, List.dropLast_concat_getLast]
  exact h.delivers.isEnd_eq_false hwholes (by simp)

/-- No token before the position is the end of the text. -/
theorem Settled.isEnd_eq_false {text : String} {preferences : LexicalPreferences} (h : c.Settled)
    (hover : c.Over text preferences) {t : Token} (ht : t ∈ c.passed) : t.isEnd = false := by
  rcases h.within with hlt | ⟨heq, hopen⟩
  · apply hover.isEnd_dropLast
    rw [List.dropLast_eq_take, Array.length_toList]
    exact (List.take_subset_take_left _ (by omega)) ht
  · cases hend : t.isEnd with
    | false => rfl
    | true =>
      have hmem := h.splitsTo.mem_of_isEnd (List.mem_of_mem_take ht) hend
      rw [hover.wellFormed.reachedEnd_eq, hover.delivers.isEnd_getLast? hmem hend] at hopen
      cases hopen

/-- The end of the text is never passed. -/
theorem On.isEnd_eq_false (h : c.On x) {t : Token} (ht : t ∈ c.passed) : t.isEnd = false :=
  h.settled.isEnd_eq_false h.onText ht

/-- Going back changes no token before the place that it goes to. -/
theorem WellFormed.take_restore (h : c.WellFormed) (saved : Nat) :
    (c.restore saved).buffer.toList.take saved = c.buffer.toList.take saved := by
  simpa [Cursor.restore] using h.splitsTo.take_undoSplits saved

/-- A settled cursor that goes back to where it stands stays as it is. -/
theorem Settled.restore_position (h : c.Settled) : c.restore c.position = c := by
  have hundo : undoSplits c.buffer c.position c.splits = (c.buffer, c.splits) := by
    have hlt := h.lt_position
    cases hsplits : c.splits with
    | nil => rfl
    | cons entry splits =>
      rw [hsplits] at hlt
      rw [undoSplits, if_pos (hlt entry List.mem_cons_self)]
  simp [Cursor.restore, hundo]

/-- What lies before a position is kept by a course that does not go back before it. -/
theorem Course.take_eq (h : Course b c o c') (hc : c.Settled) (hb : b ≤ c.position) :
    c'.buffer.toList.take b = c.buffer.toList.take b := by
  have hback := hc.restore hb
  have hmark : c.Recalls (c.restore b) := by
    obtain ⟨hwellFormed, hwholes, hsplits⟩ := hc.toWellFormed.restore b
    exact ⟨hb, hwellFormed.splitsTo, hsplits, hwholes ▸ List.prefix_refl _⟩
  have hrecalls := h.recalls _ (Nat.le_refl b) hmark
  obtain ⟨-, -, more, hmore⟩ := hrecalls.restore_eq h.settled.toWellFormed
  have hlength : b ≤ (c.restore b).buffer.toList.length := by
    rw [Array.length_toList]
    exact hback.position_le
  calc c'.buffer.toList.take b
      = (c'.restore b).buffer.toList.take b := (h.settled.toWellFormed.take_restore b).symm
    _ = (c.restore b).buffer.toList.take b := by
      rw [show (c'.restore b).buffer.toList = _ from hmore.symm, List.take_append_of_le_length hlength]
    _ = c.buffer.toList.take b := hc.toWellFormed.take_restore b

/-- Over a course from the position on, some more tokens are passed. -/
theorem Course.exists_passed (h : Course c.position c o c') (hc : c.Settled) :
    ∃ ts, c'.passed = c.passed ++ ts := by
  have htake := h.take_eq hc (Nat.le_refl _)
  refine ⟨c'.passed.drop c.position, ?_⟩
  have hpassed : c.passed = c'.passed.take c.position := by
    rw [passed, passed, List.take_take, Nat.min_eq_left h.le_position, htake]
  rw [hpassed, List.take_append_drop]

/-- A cursor that has come back to its position has kept all tokens that it had read. -/
theorem Course.isPrefix_buffer (h : Course c.position c o c') (hc : c.Settled)
    (hposition : c'.position = c.position) : c.buffer.toList <+: c'.buffer.toList := by
  have hrecalls := h.recalls c (Nat.le_refl _) hc.recalls
  obtain ⟨-, -, more, hmore⟩ := hrecalls.restore_eq h.settled.toWellFormed
  rw [← hposition, h.settled.restore_position] at hmore
  exact ⟨more, hmore⟩

/-- Such a cursor stands at the same token, if it stood at one. -/
theorem Course.getElem?_position (h : Course c.position c o c') (hc : c.Settled)
    (hposition : c'.position = c.position) {t : Token} (ht : c.buffer[c.position]? = some t) :
    c'.buffer[c.position]? = some t := by
  obtain ⟨more, hmore⟩ := h.isPrefix_buffer hc hposition
  rw [← Array.getElem?_toList] at ht ⊢
  rw [← hmore]
  obtain ⟨hlt, -⟩ := List.getElem?_eq_some_iff.mp ht
  rw [List.getElem?_append_left hlt, ht]

/-- After going back, the tokens that count as passed are those before the place. -/
theorem On.passed_restore (h : c.On x) {n : Nat} (hn : n ≤ c.position) :
    (c.restore n).passed = c.passed.take n := by
  change (c.restore n).buffer.toList.take n = _
  rw [h.settled.toWellFormed.take_restore, passed, List.take_take, Nat.min_eq_left hn]

end Cursor

end JavaSyntax
