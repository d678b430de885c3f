import JavaSyntax.Proofs.Lexer.Refusal
import JavaSyntax.Proofs.Token.Rewind

/-!
# The course of a cursor

A parse moves the cursor by looking, taking and going back, and splits a token only to
take its first part. Between two such moves the cursor is settled. What happens to it over
a stretch of moves is its course: how far back it may have gone, what it can still go back
to, and what it has read from the lexer, up to a refusal if there was one.
-/

namespace JavaSyntax

namespace Cursor

variable {c c' c'' : Cursor} {ts us : List Token} {b b' n : Nat} {o : Option LexError}

/-! ### Settled cursors -/

/-- A cursor that stands at a token which was read whole or is the rest of a split, or right
after all tokens that were read. -/
structure Settled (c : Cursor) : Prop extends WellFormed c where
  lt_position : ∀ entry ∈ c.splits, entry.1 < c.position
  within : c.position < c.buffer.size ∨ c.position = c.buffer.size ∧ c.reachedEnd = false

/-- A cursor is settled at the start of a text. -/
theorem settled_ofText (text : String) (preferences : LexicalPreferences) :
    (ofText text preferences).Settled where
  toWellFormed := (over_ofText text preferences).wellFormed
  lt_position := by simp [ofText]
  within := .inr ⟨rfl, rfl⟩

/-- A settled cursor can go back to where it is. -/
theorem Settled.recalls (h : c.Settled) : c.Recalls c := by
  apply h.toWellFormed.recalls
  intro entry hentry
  exact Nat.ne_of_lt (h.lt_position entry hentry)

/-- A settled cursor is not behind all that was read. -/
theorem Settled.position_le (h : c.Settled) : c.position ≤ c.buffer.size := by
  rcases h.within with hlt | ⟨heq, -⟩
  · exact Nat.le_of_lt hlt
  · exact Nat.le_of_eq heq

/-- At the end of the text there is a token to stand at. -/
theorem Settled.lt_size (h : c.Settled) (hend : c.reachedEnd = true) :
    c.position < c.buffer.size := by
  rcases h.within with hlt | ⟨-, hopen⟩
  · exact hlt
  · rw [hend] at hopen
    cases hopen

/-- Reading on leaves a cursor settled. -/
theorem Settled.readsOn (h : c.Settled) (hreads : c.ReadsOn ts c') : c'.Settled where
  toWellFormed := (h.toWellFormed.readsOn hreads).1
  lt_position := by
    rw [hreads.splits_eq, hreads.position_eq]
    exact h.lt_position
  within := by
    have hsize := hreads.size_eq
    rw [hreads.position_eq]
    rcases h.within with hlt | ⟨heq, hopen⟩
    · left
      omega
    cases ts with
    | cons t ts =>
      left
      simp only [List.length_cons] at hsize
      omega
    | nil =>
      right
      have hbuffer : c'.buffer = c.buffer := by
        apply Array.toList_inj.mp
        simpa using hreads.buffer_eq
      rw [reachedEnd, hbuffer]
      exact ⟨heq, hopen⟩

/-- A token that was read is not the end of the text if another one follows. -/
theorem Settled.pastToken (h : c.Settled) {t : Token}
    (ht : t.isEnd = false → c.buffer[c.position]? = some t) : (c.pastToken t).Settled := by
  have hwellFormed := (h.toWellFormed.pastToken t).1
  unfold Cursor.pastToken at hwellFormed ⊢
  split
  · exact h
  rename_i hend
  rw [if_neg hend] at hwellFormed
  have hopen : t.isEnd = false := by simpa using hend
  obtain ⟨hlt, hget⟩ := Array.getElem?_eq_some_iff.mp (ht hopen)
  refine ⟨hwellFormed, ?_, ?_⟩
  · intro entry hentry
    have := h.lt_position entry hentry
    dsimp only
    omega
  · dsimp only
    by_cases hlast : c.position + 1 = c.buffer.size
    · refine .inr ⟨hlast, ?_⟩
      have hback : c.buffer.back? = some t := by
        rw [Array.back?_eq_getElem?, ← hlast]
        exact ht hopen
      simp [reachedEnd, hback, hopen]
    · left
      omega

/-- The token at the position is split, and its first part taken. -/
def takeHead (c : Cursor) (t : Token) (kind : TokenKind) : Cursor :=
  (c.withSplit t kind).pastToken t.greaterHead

/-- Taking the first part of a token moves by one index. -/
theorem position_takeHead (c : Cursor) (t : Token) (kind : TokenKind) :
    (c.takeHead t kind).position = c.position + 1 := rfl

/-- A split adds one token to the buffer. -/
theorem size_withSplit (h : c.WellFormed) {t : Token} {kind : TokenKind}
    (ht : c.buffer[c.position]? = some t) (hkind : t.kind.afterGreater? = some kind) :
    (c.withSplit t kind).buffer.size = c.buffer.size + 1 := by
  obtain ⟨hsplit, hwholes⟩ := h.withSplit ht hkind
  have hbefore := h.splitsTo.length_eq
  have hafter := hsplit.splitsTo.length_eq
  rw [hwholes] at hafter
  simp only [Array.length_toList] at hbefore hafter
  simp only [Cursor.withSplit, List.length_cons] at hafter ⊢
  omega

/-- A cursor is settled again when the first part of a split token was taken. -/
theorem Settled.takeHead (h : c.Settled) {t : Token} {kind : TokenKind}
    (ht : c.buffer[c.position]? = some t) (hkind : t.kind.afterGreater? = some kind) :
    (c.takeHead t kind).Settled := by
  obtain ⟨hsplit, -⟩ := h.toWellFormed.withSplit ht hkind
  obtain ⟨hlt, -⟩ := Array.getElem?_eq_some_iff.mp ht
  refine ⟨(hsplit.pastToken t.greaterHead).1, ?_, .inl ?_⟩
  · intro entry hentry
    have hle := hsplit.le_position entry hentry
    exact Nat.lt_succ_of_le hle
  · have hsize := size_withSplit h.toWellFormed ht hkind
    rw [position_takeHead]
    change c.position + 1 < (c.withSplit t kind).buffer.size
    omega

/-- Going back keeps what stood at the position or before it. -/
theorem WellFormed.lt_size_restore (h : c.WellFormed) {saved i : Nat} (hi : i ≤ saved)
    (hsize : i < c.buffer.size) : i < (c.restore saved).buffer.size := by
  obtain ⟨buffer, hundo, -, hkept⟩ := h.splitsTo.undoSplits h.ordered saved
  rw [Array.toArray_toList] at hundo
  have hlt := hkept i hi (by simpa using hsize)
  simpa [Cursor.restore, hundo] using hlt

/-- A cursor that goes back is settled. -/
theorem Settled.restore (h : c.Settled) {saved : Nat} (hsaved : saved ≤ c.position) :
    (c.restore saved).Settled := by
  obtain ⟨hwellFormed, hwholes, hsplits⟩ := h.toWellFormed.restore saved
  refine ⟨hwellFormed, ?_, ?_⟩
  · intro entry hentry
    rw [hsplits] at hentry
    exact of_decide_eq_true (List.mem_filter.mp hentry).2
  · change saved < _ ∨ saved = _ ∧ _
    have hkept {i : Nat} (hi : i ≤ saved) := h.toWellFormed.lt_size_restore (i := i) hi
    rcases h.within with hlt | ⟨heq, hopen⟩
    · exact .inl (hkept (Nat.le_refl _) (by omega))
    by_cases hstays : saved = c.position
    · -- all splits stand before the position, so none is undone
      have hall : c.splits.filter (·.1 < saved) = c.splits := by
        rw [List.filter_eq_self]
        intro entry hentry
        simpa [hstays] using h.lt_position entry hentry
      have hlength := hwellFormed.splitsTo.length_eq
      rw [hwholes, hsplits, hall, ← h.splitsTo.length_eq] at hlength
      simp only [Array.length_toList] at hlength
      refine .inr ⟨by omega, ?_⟩
      rw [hwellFormed.reachedEnd_eq, hwholes, ← h.reachedEnd_eq]
      exact hopen
    · exact .inl (hkept (Nat.le_refl _) (by omega))

/-! ### What was read from the lexer -/

/-- A cursor has gained whole tokens that its lexer delivered before it came to stand like
another one. -/
structure Gains (c : Cursor) (ts : List Token) (m : Lexer) (c' : Cursor) : Prop where
  wholes_eq : c'.wholes = c.wholes ++ ts
  of_end : c.reachedEnd = true → ts = []
  delivers : c.lexer.Delivers ts m

/-- What is gained in two stretches is gained over both. -/
theorem Gains.trans {m : Lexer} (h : c.Gains ts c'.lexer c') (hc : c.WellFormed)
    (hc' : c'.WellFormed) (h' : c'.Gains us m c'') : c.Gains (ts ++ us) m c'' where
  wholes_eq := by rw [h'.wholes_eq, h.wholes_eq, List.append_assoc]
  of_end hend := by
    have hnone := h.of_end hend
    have hend' : c'.reachedEnd = true := by
      rw [hc'.reachedEnd_eq, h.wholes_eq, hnone, List.append_nil, ← hc.reachedEnd_eq]
      exact hend
    rw [hnone, h'.of_end hend']
    rfl
  delivers := by
    refine h.delivers.append h'.delivers ?_
    intro t ht hend
    apply h'.of_end
    have hlast := h.delivers.isEnd_getLast? ht hend
    have hsome : ts.getLast? ≠ none := by
      intro hnone
      rw [hnone] at hlast
      cases hlast
    rw [hc'.reachedEnd_eq, h.wholes_eq, List.getLast?_append]
    cases hts : ts.getLast? with
    | none => exact absurd hts hsome
    | some last =>
      rw [hts] at hlast
      exact hlast

/-- What a stretch of moves has read: some tokens, or some tokens and then a refusal, after
which the cursor has the lexer that refused. -/
inductive Trace (c : Cursor) : Option LexError → Cursor → Prop
  | read {c' : Cursor} {ts : List Token} (h : c.Gains ts c'.lexer c') : Trace c none c'
  | refused {c' : Cursor} {ts : List Token} {m : Lexer} {e : LexError} (h : c.Gains ts m c')
      (herror : m.lex.result = .error e) (hafter : c'.lexer = m.lex.lexer) : Trace c (some e) c'

/-- Nothing is read where nothing happens. -/
theorem Trace.refl (c : Cursor) : c.Trace none c :=
  .read ⟨by simp, fun _ => rfl, .nil _⟩

/-- A stretch that goes on after one without a refusal reads what both read. -/
theorem Trace.trans (h : c.Trace none c') (hc : c.WellFormed) (hc' : c'.WellFormed)
    (h' : c'.Trace o c'') : c.Trace o c'' := by
  cases h with
  | read h =>
    cases h' with
    | read h' => exact .read (h.trans hc hc' h')
    | refused h' herror hafter => exact .refused (h.trans hc hc' h') herror hafter

/-- Only the whole tokens and the lexer matter. -/
theorem Trace.congr (h : c.Trace o c') (hwholes : c''.wholes = c'.wholes)
    (hlexer : c''.lexer = c'.lexer) : c.Trace o c'' := by
  cases h with
  | read h =>
    refine .read ⟨hwholes.trans h.wholes_eq, h.of_end, ?_⟩
    rw [hlexer]
    exact h.delivers
  | refused h herror hafter =>
    exact .refused ⟨hwholes.trans h.wholes_eq, h.of_end, h.delivers⟩ herror (hlexer.trans hafter)

/-- A refusal points at something that the lexer had not passed before. -/
theorem Trace.offset_le {e : LexError} (h : c.Trace (some e) c') :
    c.lexer.position.offset ≤ e.offset := by
  cases h with
  | refused h herror _ => exact Nat.le_trans h.delivers.offset_le (Lexer.lex_error herror).1

/-! ### Courses -/

/-- The course of a cursor that does not go back before a position: it is settled again, it
still knows the tokens up to that position, and it can still go back to whatever was saved
there or before. -/
structure Course (b : Nat) (c : Cursor) (o : Option LexError) (c' : Cursor) : Prop where
  settled : c'.Settled
  le_position : b ≤ c'.position
  lt_size : ∀ i ≤ b, i < c.buffer.size → i < c'.buffer.size
  recalls : ∀ mark : Cursor, mark.position ≤ b → c.Recalls mark → c'.Recalls mark
  trace : c.Trace o c'
  text_eq : c'.text = c.text

namespace Course

/-- The course over which nothing happens. -/
theorem refl (h : c.Settled) (hb : b ≤ c.position) : Course b c none c where
  settled := h
  le_position := hb
  lt_size _ _ hi := hi
  recalls _ _ hmark := hmark
  trace := .refl c
  text_eq := rfl

/-- Two courses make up one, if the second does not go back before what the first may. -/
theorem trans (hc : c.Settled) (h : Course b c none c') (h' : Course b' c' o c'')
    (hb : b ≤ b') : Course b c o c'' where
  settled := h'.settled
  le_position := Nat.le_trans hb h'.le_position
  lt_size i hi hsize := h'.lt_size i (Nat.le_trans hi hb) (h.lt_size i hi hsize)
  recalls mark hle hmark := h'.recalls mark (Nat.le_trans hle hb) (h.recalls mark hle hmark)
  trace := h.trace.trans hc.toWellFormed h.settled.toWellFormed h'.trace
  text_eq := h'.text_eq.trans h.text_eq

/-- What does not go back before a position does not go back before an earlier one. -/
theorem mono (h : Course b' c o c') (hb : b ≤ b') : Course b c o c' where
  settled := h.settled
  le_position := Nat.le_trans hb h.le_position
  lt_size i hi := h.lt_size i (Nat.le_trans hi hb)
  recalls mark hle := h.recalls mark (Nat.le_trans hle hb)
  trace := h.trace
  text_eq := h.text_eq

/-- A course may end by passing the current token. -/
theorem pastToken (h : Course b c o c') {t : Token}
    (ht : t.isEnd = false → c'.buffer[c'.position]? = some t) :
    Course b c o (c'.pastToken t) := by
  have hsettled := h.settled.pastToken ht
  obtain ⟨-, hwholes⟩ := h.settled.toWellFormed.pastToken t
  have hrecalls (mark : Cursor) (hmark : c'.Recalls mark) :=
    hmark.pastToken h.settled.toWellFormed t
  have hle := h.le_position
  unfold Cursor.pastToken at hsettled hwholes hrecalls ⊢
  split
  · exact h
  rename_i hend
  simp only [if_neg hend] at hsettled hwholes hrecalls
  exact ⟨hsettled, Nat.le_succ_of_le hle, h.lt_size, fun mark hle hmark =>
    hrecalls mark (h.recalls mark hle hmark), h.trace.congr hwholes rfl, h.text_eq⟩

/-- A course may end by taking the first part of a token. -/
theorem takeHead (h : Course b c o c') {t : Token} {kind : TokenKind}
    (ht : c'.buffer[c'.position]? = some t) (hkind : t.kind.afterGreater? = some kind) :
    Course b c o (c'.takeHead t kind) where
  settled := h.settled.takeHead ht hkind
  le_position := Nat.le_succ_of_le h.le_position
  lt_size i hi hsize := by
    have hlt := h.lt_size i hi hsize
    have hsplit := size_withSplit h.settled.toWellFormed ht hkind
    change i < (c'.withSplit t kind).buffer.size
    omega
  recalls mark hle hmark := by
    have hc' := h.settled.toWellFormed
    exact ((h.recalls mark hle hmark).withSplit hc' ht hkind).pastToken (hc'.withSplit ht hkind).1 _
  trace := by
    obtain ⟨hsplit, hwholes⟩ := h.settled.toWellFormed.withSplit ht hkind
    obtain ⟨-, hpast⟩ := hsplit.pastToken t.greaterHead
    exact h.trace.congr (hpast.trans hwholes) rfl
  text_eq := h.text_eq

/-- A course may end by going back, as far as it may go back. -/
theorem restore (h : Course b c o c') (hn : b ≤ n) (hposition : n ≤ c'.position) :
    Course b c o (c'.restore n) where
  settled := h.settled.restore hposition
  le_position := hn
  lt_size i hi hsize :=
    h.settled.toWellFormed.lt_size_restore (Nat.le_trans hi hn) (h.lt_size i hi hsize)
  recalls mark hle hmark :=
    (h.recalls mark hle hmark).restore h.settled.toWellFormed (Nat.le_trans hle hn)
  trace := h.trace.congr (h.settled.toWellFormed.restore n).2.1 rfl
  text_eq := h.text_eq

end Course

/-- What was noted down makes no difference. -/
theorem Settled.withJournal (h : c.Settled) (journal : Array LogEvent) :
    ({ c with journal := journal } : Cursor).Settled :=
  ⟨⟨h.splitsTo, h.ordered, h.le_position⟩, h.lt_position, h.within⟩

/-- Notes do not change the course. -/
theorem Course.withJournal (h : Course b c o c') (journal : Array LogEvent) :
    Course b c o { c' with journal := journal } where
  settled := h.settled.withJournal journal
  le_position := h.le_position
  lt_size := h.lt_size
  recalls mark hle hmark := by
    obtain ⟨hposition, hsplitsTo, hsplits, hsame⟩ := h.recalls mark hle hmark
    exact ⟨hposition, hsplitsTo, hsplits, hsame⟩
  trace := h.trace.congr rfl rfl
  text_eq := h.text_eq

/-! ### The moves of a parse -/

/-- The error of a reading that the lexer refused. -/
def refusal? {α : Type} : Except LexError α → Option LexError
  | .ok _ => none
  | .error e => some e

/-- A move that looks at the current token, unless the lexer refuses it. -/
structure Looks {α : Type} (c : Cursor) (outcome : Except LexError α × Cursor) : Prop where
  course : Course c.position c (refusal? outcome.1) outcome.2
  looked : ∀ a, outcome.1 = .ok a → c.position < outcome.2.buffer.size

/-- Reading on is a course that does not move. -/
theorem Course.readsOn (h : c.Settled) (hreads : c.ReadsOn ts c') (htrace : c.Trace o c') :
    Course c.position c o c' where
  settled := h.readsOn hreads
  le_position := Nat.le_of_eq hreads.position_eq.symm
  lt_size i _ hi := by
    have hsize := hreads.size_eq
    omega
  recalls mark _ hmark := hmark.readsOn h.toWellFormed hreads
  trace := htrace
  text_eq := hreads.text_eq

/-- Looking ahead reads on, and finds a token or its end. -/
theorem Settled.peekAhead (h : c.Settled) (n : Nat) :
    Looks c (peekAhead n c) ∧ ∀ t c', peekAhead n c = (.ok t, c') →
      c'.position = c.position ∧ (t.isEnd = false → c'.buffer[c.position + n]? = some t) := by
  rw [peekAhead_apply]
  have hreads := reads_readTokens (c.position + n + 1 - c.buffer.size) c
  generalize readTokens (c.position + n + 1 - c.buffer.size) c = outcome at hreads
  cases hreads with
  | @done c' ts hreads hlexer hend hmost henough =>
    have hgains : c.Gains ts c'.lexer c' := ⟨(h.toWellFormed.readsOn hreads).2, hend, hlexer⟩
    have hcourse := Course.readsOn h hreads (.read hgains)
    have hsize := hreads.size_eq
    have hread : c.position + n < c'.buffer.size ∨ c'.reachedEnd = true := by
      refine henough.imp_left ?_
      intro hlength
      omega
    refine ⟨⟨hcourse, ?_⟩, ?_⟩
    · rintro t -
      rcases hread with hlt | hend
      · exact Nat.lt_of_le_of_lt (Nat.le_add_right _ n) hlt
      · rw [← hreads.position_eq]
        exact hcourse.settled.lt_size hend
    · rintro t _ ⟨⟩
      exact ⟨hreads.position_eq, getElem?_tokenAt hread⟩
  | @failed c' ts m e hreads hlexer hstart hend hmost herror hafter =>
    have hgains : c.Gains ts m c' := by
      refine ⟨(h.toWellFormed.readsOn hreads).2, ?_, hlexer⟩
      rw [hstart]
      exact nofun
    refine ⟨⟨.readsOn h hreads (.refused hgains herror hafter), ?_⟩, ?_⟩
    · rintro t ⟨⟩
    · rintro t _ ⟨⟩

/-- The token that was looked for at the position stands there. -/
theorem Settled.getElem?_current (h : c.Settled) {t : Token}
    (hpeek : Cursor.peekAhead 0 c = (.ok t, c')) : c'.buffer[c'.position]? = some t := by
  obtain ⟨⟨-, hlooked⟩, hfound⟩ := h.peekAhead 0
  obtain ⟨hposition, -⟩ := hfound t c' hpeek
  have hlt := hlooked t (by rw [hpeek])
  rw [hpeek] at hlt
  have htoken : t = c'.tokenAt c.position := by
    rw [peekAhead_apply] at hpeek
    split at hpeek
    · cases hpeek
      rfl
    · cases hpeek
  dsimp only at hlt
  rw [hposition, htoken, tokenAt]
  simp [hlt]

/-- The token at the position, when it is there, is found without reading. -/
theorem peekAhead_zero {t : Token} (ht : c.buffer[c.position]? = some t) :
    Cursor.peekAhead 0 c = (.ok t, c) := by
  obtain ⟨hlt, -⟩ := Array.getElem?_eq_some_iff.mp ht
  have hnone : c.position + 0 + 1 - c.buffer.size = 0 := by omega
  rw [peekAhead_apply, hnone]
  simp [readTokens, Work.pure_apply, tokenAt, ht]

/-- Taking a token looks at the current one. -/
theorem Settled.advance (h : c.Settled) : Looks c (advance c) := by
  obtain ⟨⟨hcourse, hlooked⟩, hfound⟩ := h.peekAhead 0
  rw [advance_apply]
  generalize hpeek : Cursor.peekAhead 0 c = outcome at hcourse hlooked hfound
  obtain ⟨_ | t, c'⟩ := outcome
  · refine ⟨hcourse, ?_⟩
    rintro _ ⟨⟩
  · obtain ⟨hposition, ht⟩ := hfound t c' rfl
    refine ⟨hcourse.pastToken ?_, ?_⟩
    · rwa [hposition]
    · rintro u -
      rw [buffer_pastToken]
      exact hlooked t rfl

/-- Takes a `>`, which may be the start of a longer token, if one comes next. -/
def closing? : Reading (Option Token) := do
  if ← splitGreater then return some (← advance) else return none

/-- A closing angle is taken if the current token is one or starts with one, and then this part of
it is taken. -/
theorem Settled.closing?_apply (h : c.Settled) :
    closing? c = match Cursor.peekAhead 0 c with
      | (.ok t, c') =>
        if t.kind = .greater then (.ok (some t), c'.pastToken t)
        else t.kind.afterGreater?.elim (.ok none, c') fun kind =>
          (.ok (some t.greaterHead), c'.takeHead t kind)
      | (.error e, c') => (.error e, c') := by
  obtain ⟨⟨hcourse, -⟩, hfound⟩ := h.peekAhead 0
  unfold closing?
  rw [Work.bind_apply, splitGreater_apply]
  generalize Cursor.peekAhead 0 c = outcome at hcourse hfound
  obtain ⟨_ | t, c'⟩ := outcome
  · rfl
  obtain ⟨hposition, ht⟩ := hfound t c' rfl
  rw [Nat.add_zero, ← hposition] at ht
  by_cases hgreater : t.kind = .greater
  · have hopen : t.isEnd = false := by simp [Token.isEnd, hgreater]
    simp [hgreater, Work.bind_apply, advance_apply, peekAhead_zero (ht hopen), Work.pure_apply]
  simp only [hgreater, if_false]
  cases hkind : t.kind.afterGreater? with
  | none => rfl
  | some kind =>
    have hopen := Token.isEnd_of_afterGreater? hkind
    have hsplit := (hcourse.settled.toWellFormed.withSplit (ht hopen) hkind).1.splitsTo
    have hhead : (c'.withSplit t kind).buffer[(c'.withSplit t kind).position]? =
        some t.greaterHead := by
      rw [← Array.getElem?_toList]
      exact hsplit.getElem?_latest
    simp only [Option.elim_some, Work.bind_apply, advance_apply, peekAhead_zero hhead,
      Work.pure_apply, if_true]
    rfl

/-- Taking a closing angle looks at the current token. -/
theorem Settled.closing? (h : c.Settled) : Looks c (closing? c) := by
  obtain ⟨⟨hcourse, hlooked⟩, hfound⟩ := h.peekAhead 0
  rw [h.closing?_apply]
  generalize Cursor.peekAhead 0 c = outcome at hcourse hlooked hfound
  obtain ⟨_ | t, c'⟩ := outcome
  · refine ⟨hcourse, ?_⟩
    rintro _ ⟨⟩
  obtain ⟨hposition, ht⟩ := hfound t c' rfl
  have hlt := hlooked t rfl
  rw [Nat.add_zero, ← hposition] at ht
  dsimp only
  split
  · refine ⟨hcourse.pastToken ht, ?_⟩
    rintro u -
    rw [buffer_pastToken]
    exact hlt
  cases hkind : t.kind.afterGreater? with
  | none => exact ⟨hcourse, fun _ _ => hlt⟩
  | some kind =>
    have hopen := Token.isEnd_of_afterGreater? hkind
    refine ⟨hcourse.takeHead (ht hopen) hkind, ?_⟩
    rintro u -
    have hsize := size_withSplit hcourse.settled.toWellFormed (ht hopen) hkind
    dsimp only at hlt hsize
    change c.position < (c'.withSplit t kind).buffer.size
    omega

end Cursor

end JavaSyntax
