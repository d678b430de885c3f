import JavaSyntax.Proofs.Token.Places

/-!
# Cursors with other notes

What a cursor has noted down makes no difference to what it does: two cursors that differ in
their notes alone read the same tokens, take the same ones and go back to the same places. A
cursor between two moves of a parse is sound: it is settled over the tokens of the text.
-/

namespace JavaSyntax

/-! ### Cursors with other notes -/

namespace Cursor

variable {b : Nat} {c c' d : Cursor} {α : Type}

/-- A cursor with other notes. -/
def Renoted (c d : Cursor) : Prop := ∃ journal, d = { c with journal := journal }

/-- Two readings come to the same but for their notes. -/
def SameReading (x y : Except LexError α × Cursor) : Prop := x.1 = y.1 ∧ x.2.Renoted y.2

/-- Every cursor is itself with its own notes. -/
theorem Renoted.refl (c : Cursor) : c.Renoted c := ⟨c.journal, rfl⟩

/-- Notes do not change the position. -/
theorem Renoted.position_eq (h : c.Renoted d) : d.position = c.position := by
  obtain ⟨journal, rfl⟩ := h
  rfl

/-- Notes do not change the text. -/
theorem Renoted.text_eq (h : c.Renoted d) : d.text = c.text := by
  obtain ⟨journal, rfl⟩ := h
  rfl

/-- Both cursors may be given any notes. -/
theorem Renoted.withJournal (h : c.Renoted d) (i j : Array LogEvent) :
    ({ c with journal := i } : Cursor).Renoted { d with journal := j } := by
  obtain ⟨journal, rfl⟩ := h
  exact ⟨j, rfl⟩

/-- Going back keeps cursors alike but for notes. -/
theorem Renoted.restore (h : c.Renoted d) (n : Nat) : (c.restore n).Renoted (d.restore n) := by
  obtain ⟨journal, rfl⟩ := h
  exact ⟨journal, rfl⟩

/-- Reading does not look at notes. -/
theorem Renoted.readTokens (h : c.Renoted d) (n : Nat) :
    SameReading (readTokens n c) (readTokens n d) := by
  induction n generalizing c d with
  | zero => exact ⟨rfl, h⟩
  | succ n ih =>
    obtain ⟨journal, rfl⟩ := h
    rw [readTokens_succ_apply, readTokens_succ_apply, readToken_apply, readToken_apply]
    have hend : ({ c with journal := journal } : Cursor).reachedEnd = c.reachedEnd := rfl
    rw [hend]
    split
    · exact ⟨rfl, journal, rfl⟩
    · dsimp only
      rcases c.lexer.lex with ⟨e | t, lexer, events⟩
      · exact ⟨rfl, _, rfl⟩
      · exact ih ⟨_, rfl⟩

/-- Looking ahead does not look at notes. -/
theorem Renoted.peekAhead (h : c.Renoted d) (n : Nat) :
    SameReading (peekAhead n c) (peekAhead n d) := by
  obtain ⟨hresult, hcursor⟩ := h.readTokens (c.position + n + 1 - c.buffer.size)
  obtain ⟨journal, rfl⟩ := h
  rw [peekAhead_apply, peekAhead_apply]
  dsimp only
  generalize Cursor.readTokens (c.position + n + 1 - c.buffer.size) c = first at hresult hcursor
  generalize Cursor.readTokens (c.position + n + 1 - c.buffer.size)
    { c with journal := journal } = second at hresult hcursor
  obtain ⟨result, c'⟩ := first
  obtain ⟨_, d'⟩ := second
  cases hresult
  obtain ⟨journal', rfl⟩ := hcursor
  cases result with
  | error e => exact ⟨rfl, journal', rfl⟩
  | ok => exact ⟨rfl, journal', rfl⟩

/-- Passing a token keeps cursors alike but for notes. -/
theorem Renoted.pastToken (h : c.Renoted d) (t : Token) :
    (c.pastToken t).Renoted (d.pastToken t) := by
  obtain ⟨journal, rfl⟩ := h
  unfold Cursor.pastToken
  split <;> exact ⟨journal, rfl⟩

/-- Taking the first part of a token keeps cursors alike but for notes. -/
theorem Renoted.takeHead (h : c.Renoted d) (t : Token) (kind : TokenKind) :
    (c.takeHead t kind).Renoted (d.takeHead t kind) := by
  have hsplit : (c.withSplit t kind).Renoted (d.withSplit t kind) := by
    obtain ⟨journal, rfl⟩ := h
    exact ⟨journal, rfl⟩
  exact hsplit.pastToken _

/-- Taking a token does not look at notes. -/
theorem Renoted.advance (h : c.Renoted d) : SameReading (advance c) (advance d) := by
  obtain ⟨hresult, hcursor⟩ := h.peekAhead 0
  rw [advance_apply, advance_apply]
  generalize Cursor.peekAhead 0 c = first at hresult hcursor
  generalize Cursor.peekAhead 0 d = second at hresult hcursor
  obtain ⟨result, c'⟩ := first
  obtain ⟨_, d'⟩ := second
  cases hresult
  cases result with
  | error e => exact ⟨rfl, hcursor⟩
  | ok t => exact ⟨rfl, hcursor.pastToken t⟩

/-- Notes do not matter to whether a cursor is settled. -/
theorem Settled.renoted (h : c.Settled) (hcd : c.Renoted d) : d.Settled := by
  obtain ⟨journal, rfl⟩ := hcd
  exact h.withJournal journal

/-- Taking a closing angle does not look at notes. -/
theorem Renoted.closing? (h : c.Renoted d) (hc : c.Settled) :
    SameReading (closing? c) (closing? d) := by
  obtain ⟨hresult, hcursor⟩ := h.peekAhead 0
  rw [hc.closing?_apply, (hc.renoted h).closing?_apply]
  generalize Cursor.peekAhead 0 c = first at hresult hcursor
  generalize Cursor.peekAhead 0 d = second at hresult hcursor
  obtain ⟨result, c'⟩ := first
  obtain ⟨_, d'⟩ := second
  cases hresult
  cases result with
  | error e => exact ⟨rfl, hcursor⟩
  | ok t =>
    dsimp only
    split
    · exact ⟨rfl, hcursor.pastToken t⟩
    · cases t.kind.afterGreater? with
      | none => exact ⟨rfl, hcursor⟩
      | some kind => exact ⟨rfl, hcursor.takeHead t kind⟩

/-! ### Sound cursors -/

/-- A cursor between two moves of a parse: it is settled over what the lexer delivers. -/
structure Sound (c : Cursor) : Prop where
  settled : c.Settled
  overText : ∃ text preferences, c.Over text preferences

/-- A cursor is sound at the start of a text. -/
theorem sound_ofText (text : String) (preferences : LexicalPreferences) :
    (ofText text preferences).Sound :=
  ⟨settled_ofText text preferences, text, preferences, over_ofText text preferences⟩

/-- A course leads from a sound cursor to a sound one. -/
theorem Sound.course (h : c.Sound) (hcourse : Course b c none c') : c'.Sound := by
  obtain ⟨-, text, preferences, hover⟩ := h
  exact ⟨hcourse.settled, text, preferences, hcourse.over hover⟩

/-- Notes do not matter to whether a cursor is sound. -/
theorem Sound.withJournal (h : c.Sound) (journal : Array LogEvent) :
    ({ c with journal := journal } : Cursor).Sound :=
  h.course ((Course.refl h.settled (Nat.le_refl _)).withJournal journal)

/-- A sound cursor that goes back is sound. -/
theorem Sound.restore {n : Nat} (h : c.Sound) (hn : n ≤ c.position) : (c.restore n).Sound :=
  h.course ((Course.refl h.settled hn).restore (Nat.le_refl n) hn)

/-- Every token that was passed takes a byte of the text at least. -/
theorem Sound.position_le (h : c.Sound) : c.position ≤ c.text.utf8ByteSize := by
  obtain ⟨hsettled, text, preferences, hover⟩ := h
  have htext : c.text = text := hover.delivers.text_eq
  rw [htext]
  exact hsettled.position_le_size hover

end Cursor

end JavaSyntax
