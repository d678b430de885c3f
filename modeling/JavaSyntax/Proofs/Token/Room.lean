import JavaSyntax.Proofs.Lexer.Recount
import JavaSyntax.Proofs.Token.Mirror
import JavaSyntax.Proofs.Token.Order

/-!
# Cursors with more room

The text of a lexer says how many rounds a loop has, and nothing else: a call of the lexer sees
the characters that are left. So a cursor for which the text was made longer, while the
characters that are left stay the same, is a mirror of the cursor that it was, with more rounds
for every loop.
-/

namespace JavaSyntax

open Cursor

namespace Cursor

variable {more text : String} {c d : Cursor} {α : Type}

/-- A cursor with a text that was made longer, and with the same characters to read. -/
def withRoom (c : Cursor) (more : String) : Cursor :=
  { c with lexer := { c.lexer with text := c.lexer.text ++ more } }

/-- Two cursors that differ in their texts and notes alone, where the text of the second one is
longer. -/
structure Roomier (more : String) (c d : Cursor) : Prop where
  eq : d = { c with lexer := d.lexer, journal := d.journal }
  lexer : c.lexer.SameReading d.lexer
  text_eq : d.text = c.text ++ more

/-- Two readings come to the same with cursors that differ in their texts and notes alone. -/
def SameButRoom (more : String) (x y : Except LexError α × Cursor) : Prop :=
  x.1 = y.1 ∧ x.2.Roomier more y.2

/-- A cursor with a longer text has more room than it had. -/
theorem roomier_withRoom (c : Cursor) (more : String) : c.Roomier more (c.withRoom more) :=
  ⟨rfl, ⟨rfl, rfl, rfl, rfl⟩, rfl⟩

namespace Roomier

/-- More room does not change the tokens. -/
theorem buffer_eq (h : c.Roomier more d) : d.buffer = c.buffer := by
  rw [h.eq]

/-- More room does not change the position. -/
theorem position_eq (h : c.Roomier more d) : d.position = c.position := by
  rw [h.eq]

/-- More room does not change the log of splits. -/
theorem splits_eq (h : c.Roomier more d) : d.splits = c.splits := by
  rw [h.eq]

/-- More room does not change whether the end was reached. -/
theorem reachedEnd_eq (h : c.Roomier more d) : d.reachedEnd = c.reachedEnd := by
  rw [reachedEnd, reachedEnd, h.buffer_eq]

/-- A settled cursor is settled with more room. -/
theorem settled (h : c.Roomier more d) (hc : c.Settled) : d.Settled := by
  rw [h.eq]
  exact ⟨⟨hc.splitsTo, hc.ordered, hc.le_position⟩, hc.lt_position, hc.within⟩

/-- Two cursors that differ in their texts alone are changed in the same way. -/
theorem map (h : c.Roomier more d) (buffer : Array Token) (position : Nat)
    (splits : List (Nat × Token)) (i j : Array LogEvent) :
    Roomier more ⟨c.lexer, buffer, position, splits, i⟩ ⟨d.lexer, buffer, position, splits, j⟩ :=
  ⟨rfl, h.lexer, h.text_eq⟩

/-- Reading a token comes to the same with more room. -/
theorem readToken (h : c.Roomier more d) : SameButRoom more (readToken c) (readToken d) := by
  have hanswer := h.lexer.lex
  have htext := c.lexer.text_lex
  have htext' := d.lexer.text_lex
  have hlexer := h.text_eq
  rw [readToken_apply, readToken_apply, h.buffer_eq, h.position_eq, h.splits_eq]
  obtain ⟨lexer, buffer, position, splits, journal⟩ := c
  obtain ⟨lexer', buffer', position', splits', journal'⟩ := d
  dsimp only at hanswer htext htext' ⊢
  generalize lexer.lex = outcome at hanswer htext
  generalize lexer'.lex = outcome' at hanswer htext'
  obtain ⟨result, after, events⟩ := outcome
  obtain ⟨result', after', events'⟩ := outcome'
  obtain ⟨hresult, hreading⟩ := hanswer
  have hafter : after'.text = after.text ++ more := htext'.trans (hlexer.trans (htext ▸ rfl))
  cases hresult
  cases result with
  | error e => exact ⟨rfl, rfl, hreading, hafter⟩
  | ok t => exact ⟨rfl, rfl, hreading, hafter⟩

/-- Reading several tokens comes to the same with more room. -/
theorem readTokens (h : c.Roomier more d) (n : Nat) :
    SameButRoom more (readTokens n c) (readTokens n d) := by
  induction n generalizing c d with
  | zero => exact ⟨rfl, h⟩
  | succ n ih =>
    obtain ⟨hresult, hcursor⟩ := h.readToken
    rw [readTokens_succ_apply, readTokens_succ_apply, h.reachedEnd_eq]
    split
    · exact ⟨rfl, h⟩
    generalize Cursor.readToken c = first at hresult hcursor
    generalize Cursor.readToken d = second at hresult hcursor
    obtain ⟨result, c'⟩ := first
    obtain ⟨_, d'⟩ := second
    cases hresult
    cases result with
    | error e => exact ⟨rfl, hcursor⟩
    | ok => exact ih hcursor

/-- Looking ahead comes to the same with more room. -/
theorem peekAhead (h : c.Roomier more d) (n : Nat) :
    SameButRoom more (peekAhead n c) (peekAhead n d) := by
  obtain ⟨hresult, hcursor⟩ := h.readTokens (c.position + n + 1 - c.buffer.size)
  rw [peekAhead_apply, peekAhead_apply, h.position_eq, h.buffer_eq]
  generalize Cursor.readTokens (c.position + n + 1 - c.buffer.size) c = first at hresult hcursor
  generalize Cursor.readTokens (c.position + n + 1 - c.buffer.size) d = second at hresult hcursor
  obtain ⟨result, c'⟩ := first
  obtain ⟨_, d'⟩ := second
  cases hresult
  cases result with
  | error e => exact ⟨rfl, hcursor⟩
  | ok =>
    refine ⟨?_, hcursor⟩
    dsimp only
    rw [tokenAt, tokenAt, hcursor.buffer_eq]

/-- Passing a token keeps the room that there is more of. -/
theorem pastToken (h : c.Roomier more d) (t : Token) :
    (c.pastToken t).Roomier more (d.pastToken t) := by
  rw [h.eq]
  unfold Cursor.pastToken
  split <;> exact h.map _ _ _ _ _

/-- Taking the first part of a token keeps the room that there is more of. -/
theorem takeHead (h : c.Roomier more d) (t : Token) (kind : TokenKind) :
    (c.takeHead t kind).Roomier more (d.takeHead t kind) := by
  have hsplit : (c.withSplit t kind).Roomier more (d.withSplit t kind) := by
    rw [h.eq]
    exact h.map _ _ _ _ _
  exact hsplit.pastToken _

/-- Taking a token comes to the same with more room. -/
theorem advance (h : c.Roomier more d) : SameButRoom more (advance c) (advance d) := by
  obtain ⟨hresult, hcursor⟩ := h.peekAhead 0
  rw [advance_apply, advance_apply]
  generalize Cursor.peekAhead 0 c = first at hresult hcursor
  generalize Cursor.peekAhead 0 d = second at hresult hcursor
  obtain ⟨result, c'⟩ := first
  obtain ⟨_, d'⟩ := second
  cases hresult
  cases result with
  | error e => exact ⟨rfl, hcursor⟩
  | ok t => exact ⟨rfl, hcursor.pastToken t⟩

/-- Taking a closing angle comes to the same with more room. -/
theorem closing? (h : c.Roomier more d) (hc : c.Settled) :
    SameButRoom more (closing? c) (closing? d) := by
  obtain ⟨hresult, hcursor⟩ := h.peekAhead 0
  rw [hc.closing?_apply, (h.settled hc).closing?_apply]
  generalize Cursor.peekAhead 0 c = first at hresult hcursor
  generalize Cursor.peekAhead 0 d = second at hresult hcursor
  obtain ⟨result, c'⟩ := first
  obtain ⟨_, d'⟩ := second
  cases hresult
  cases result with
  | error e => exact ⟨rfl, hcursor⟩
  | ok t =>
    dsimp only
    split
    · exact ⟨rfl, hcursor.pastToken t⟩
    · cases t.kind.afterGreater? with
      | none => exact ⟨rfl, hcursor⟩
      | some kind => exact ⟨rfl, hcursor.takeHead t kind⟩

/-- Going back keeps the room that there is more of. -/
theorem restore (h : c.Roomier more d) (n : Nat) : (c.restore n).Roomier more (d.restore n) := by
  rw [h.eq]
  exact h.map _ _ _ _ _

end Roomier

/-- A cursor in order in a text, and the same cursor with a longer text. -/
structure Spacious (text more : String) (c d : Cursor) : Prop where
  inOrder : c.InOrder
  text_eq : c.text = text
  roomier : c.Roomier more d

namespace Spacious

/-- Both cursors are within their texts. -/
theorem within (h : Spacious text more c d) : c.Within text ∧ d.Within (text ++ more) := by
  have hle := h.inOrder.position_le
  have hsize : (text ++ more).utf8ByteSize = text.utf8ByteSize + more.utf8ByteSize :=
    String.utf8ByteSize_append
  rw [h.text_eq] at hle
  refine ⟨⟨h.inOrder.toSettled, h.text_eq, hle⟩, h.roomier.settled h.inOrder.toSettled, ?_, ?_⟩
  · rw [h.roomier.text_eq, h.text_eq]
  · rw [h.roomier.position_eq]
    omega

/-- The same course leads both cursors to places that are alike but for the room. -/
theorem moved {c' d' : Cursor} {b : Nat} (h : Spacious text more c d)
    (hcourse : Course b c none c') (hroomier : c'.Roomier more d') : Spacious text more c' d' :=
  ⟨hcourse.inOrder h.inOrder, hcourse.text_eq.trans h.text_eq, hroomier⟩

/-- Two readings that come to the same do so with cursors in order. -/
theorem meets {Match : α → α → Prop} {x y : Except LexError α × Cursor}
    (h : Spacious text more c d) (hsame : SameButRoom more x y)
    (hcourse : Course c.position c (refusal? x.1) x.2) (hmatch : ∀ a, Match a a) :
    Meets Eq Match (Spacious text more) x y := by
  obtain ⟨result, c'⟩ := x
  obtain ⟨_, d'⟩ := y
  obtain ⟨hresult, hroomier⟩ := hsame
  cases hresult
  cases result with
  | error e => exact .refused rfl
  | ok a => exact .ok (hmatch a) (h.moved hcourse hroomier)

/-- Both cursors have read the token at an index, so it is the same token. -/
theorem eq_of_getElem? (h : Spacious text more c d) {i : Nat} {t u : Token}
    (ht : c.buffer[c.position + i]? = some t) (hu : d.buffer[d.position + i]? = some u) :
    u = t := by
  rw [h.roomier.position_eq, h.roomier.buffer_eq, ht] at hu
  exact (Option.some.inj hu).symm

end Spacious

end Cursor

/-- A text with more room as a mirror of the text. -/
def Mirror.roomy (text more : String) : Mirror where
  left := text
  right := text ++ more
  Same := Spacious text more
  Match := Eq
  Refusal := Eq
  word_eq h := by rw [h]
  within := Spacious.within
  position_eq h := h.roomier.position_eq
  peekAhead_meets h n :=
    h.meets (h.roomier.peekAhead n) (h.inOrder.peekAhead n).1.course fun _ => rfl
  advance_meets h := h.meets h.roomier.advance h.inOrder.advance.course fun _ => rfl
  closing?_meets h :=
    h.meets (h.roomier.closing? h.inOrder.toSettled) h.inOrder.closing?.course fun _ => rfl
  same_restore h _ hn :=
    h.moved ((Course.refl h.inOrder.toSettled hn).restore (Nat.le_refl _) hn)
      (h.roomier.restore _)
  same_withJournal h i j := by
    refine ⟨h.inOrder.withJournal i, h.text_eq, ?_⟩
    rw [h.roomier.eq]
    exact h.roomier.map _ _ _ i j
  areAdjacent_eq h _ _ _ _ _ _ ht hu := by
    rw [h.eq_of_getElem? (i := 0) ht.first_eq hu.first_eq,
      h.eq_of_getElem? ht.second_eq hu.second_eq,
      h.eq_of_getElem? ht.third_eq hu.third_eq]

/-- A cursor in order matches the same cursor with more room. -/
theorem Cursor.InOrder.spacious {c : Cursor} (h : c.InOrder) (more : String) :
    Spacious c.text more c (c.withRoom more) :=
  ⟨h, rfl, c.roomier_withRoom more⟩

end JavaSyntax
