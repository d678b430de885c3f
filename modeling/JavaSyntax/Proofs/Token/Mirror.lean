import JavaSyntax.Grammar.Basic
import JavaSyntax.Proofs.Token.Ahead
import JavaSyntax.Proofs.Token.Places
import JavaSyntax.Proofs.Token.Words

/-!
# Mirrors

Two cursors can stand in texts of which one is as good as the other for a parse. What makes
them so is a relation between the cursors that each move keeps: looking, taking and going
back find tokens that match, or refusals that match. The grammar sees words of tokens and
nothing else, with one exception: it asks whether the three tokens of `non-sealed` stand
together, and matching cursors answer that alike.

A text mirrors itself: two cursors in the same text match if one is like the other but for what
it has read ahead. They find the same tokens, and each of these stands in the text where its
span says. So what two parses of one text have in common says something about one of them: the
tokens at which it fails stand in the text.
-/

namespace JavaSyntax

/-- A settled cursor in a text that has not passed more tokens than the text has bytes. -/
structure Cursor.Within (text : String) (c : Cursor) : Prop where
  settled : c.Settled
  text_eq : c.text = text
  position_le : c.position ≤ text.utf8ByteSize

/-- A cursor that stands at the three tokens of `non-sealed`. -/
structure Cursor.AtNonSealed (c : Cursor) (first second third : Token) : Prop where
  first_eq : c.buffer[c.position]? = some first
  second_eq : c.buffer[c.position + 1]? = some second
  third_eq : c.buffer[c.position + 2]? = some third
  isWord_first : first.isWord "non" = true
  kind_second : second.kind = .minus
  isWord_third : third.isWord "sealed" = true

/-- A token that was read before is found again, and nothing is read for it. -/
theorem Cursor.peekAhead_of_getElem? {c : Cursor} {n : Nat} {t : Token}
    (ht : c.buffer[c.position + n]? = some t) : peekAhead n c = (.ok t, c) := by
  obtain ⟨hlt, -⟩ := Array.getElem?_eq_some_iff.mp ht
  have hnone : c.position + n + 1 - c.buffer.size = 0 := by omega
  rw [peekAhead_apply, hnone]
  simp [readTokens, Work.pure_apply, tokenAt, ht]

/-- A look ahead keeps every token that was read before. -/
theorem Cursor.getElem?_of_peekAhead {c c' : Cursor} {n i : Nat} {t u : Token}
    (hpeek : peekAhead n c = (.ok t, c')) (hu : c.buffer[i]? = some u) :
    c'.buffer[i]? = some u := by
  rw [peekAhead_apply] at hpeek
  have hreads := reads_readTokens (c.position + n + 1 - c.buffer.size) c
  generalize readTokens (c.position + n + 1 - c.buffer.size) c = outcome at hpeek hreads
  cases hreads with
  | failed => cases hpeek
  | done hreads =>
    cases hpeek
    obtain ⟨hlt, -⟩ := Array.getElem?_eq_some_iff.mp hu
    rw [← Array.getElem?_toList, hreads.buffer_eq, List.getElem?_append_left (by simpa using hlt),
      Array.getElem?_toList]
    exact hu

/-- Two readings come to results that match, with cursors that match, or both are refused. -/
inductive Meets {α : Type} (Refusal : LexError → LexError → Prop) (Match : α → α → Prop)
    (Same : Cursor → Cursor → Prop) :
    Except LexError α × Cursor → Except LexError α × Cursor → Prop
  | ok {a b : α} {c d : Cursor} (hmatch : Match a b) (hsame : Same c d) :
      Meets Refusal Match Same (.ok a, c) (.ok b, d)
  | refused {e f : LexError} {c d : Cursor} (hrefusal : Refusal e f) :
      Meets Refusal Match Same (.error e, c) (.error f, d)

/-- A relation between cursors in two texts that the moves of a parse keep. -/
structure Mirror where
  /-- The texts in which the cursors stand. -/
  left : String
  right : String
  /-- The cursors that match. -/
  Same : Cursor → Cursor → Prop
  /-- The tokens that match. -/
  Match : Token → Token → Prop
  /-- The refusals of the lexers that match. -/
  Refusal : LexError → LexError → Prop
  word_eq {t u : Token} (h : Match t u) : u.word = t.word
  within {c d : Cursor} (h : Same c d) : c.Within left ∧ d.Within right
  position_eq {c d : Cursor} (h : Same c d) : d.position = c.position
  peekAhead_meets {c d : Cursor} (h : Same c d) (n : Nat) :
    Meets Refusal Match Same (Cursor.peekAhead n c) (Cursor.peekAhead n d)
  advance_meets {c d : Cursor} (h : Same c d) :
    Meets Refusal Match Same (Cursor.advance c) (Cursor.advance d)
  closing?_meets {c d : Cursor} (h : Same c d) :
    Meets Refusal (fun t u => u.isSome = t.isSome) Same (Cursor.closing? c) (Cursor.closing? d)
  same_restore {c d : Cursor} (h : Same c d) {n : Nat} (hn : n ≤ c.position) :
    Same (c.restore n) (d.restore n)
  /-- What was noted down makes no difference. -/
  same_withJournal {c d : Cursor} (h : Same c d) (j k : Array LogEvent) :
    Same { c with journal := j } { d with journal := k }
  areAdjacent_eq {c d : Cursor} (h : Same c d) {t₁ t₂ t₃ u₁ u₂ u₃ : Token}
    (ht : c.AtNonSealed t₁ t₂ t₃) (hu : d.AtNonSealed u₁ u₂ u₃) :
    Parser.areAdjacent u₁ u₂ u₃ = Parser.areAdjacent t₁ t₂ t₃

/-! ### A text mirrors itself -/

open Cursor

namespace Cursor

variable {text : String} {preferences : LexicalPreferences} {c d : Cursor}

/-- A settled cursor over a text, and one that has read ahead of it. -/
structure Abreast (text : String) (preferences : LexicalPreferences) (c d : Cursor) : Prop where
  settled : c.Settled
  onText : c.Over text preferences
  ahead : c.Ahead d

namespace Abreast

/-- Cursors that were abreast are so again after one took a course and the other the same, but
ahead of it. -/
theorem moved {c' d' : Cursor} {b : Nat} (h : c.Abreast text preferences d)
    (hcourse : Course b c none c') (hahead : c'.Ahead d') : c'.Abreast text preferences d' :=
  ⟨hcourse.settled, hcourse.over h.onText, hahead⟩

/-- Cursors abreast stand at the same index. -/
theorem position_eq (h : c.Abreast text preferences d) : d.position = c.position := by
  obtain ⟨ts, hahead⟩ := h.ahead
  exact hahead.position_eq

/-- Cursors abreast are both within their text. -/
theorem within (h : c.Abreast text preferences d) : c.Within text ∧ d.Within text := by
  have htext : c.text = text := h.onText.delivers.text_eq
  have hle := h.settled.position_le_size h.onText
  refine ⟨⟨h.settled, htext, hle⟩, ?_⟩
  have hposition := h.position_eq
  obtain ⟨ts, hahead⟩ := h.ahead
  exact ⟨h.settled.readsOn hahead.toReadsOn, hahead.toReadsOn.text_eq.trans htext,
    hposition ▸ hle⟩

/-- Cursors abreast find the same token ahead. -/
theorem peekAhead_meets (h : c.Abreast text preferences d) (n : Nat) :
    Meets Eq (fun t u => t = u ∧ t.StandsIn text) (Abreast text preferences)
      (peekAhead n c) (peekAhead n d) := by
  have hcourse := (h.settled.peekAhead n).1.course
  obtain ⟨hresult, hahead⟩ := h.ahead.peekAhead n
  rcases hpeek : peekAhead n c with ⟨e | t, c'⟩
  · rw [hpeek] at hresult
    generalize peekAhead n d = second at hresult
    obtain ⟨_, d'⟩ := second
    cases hresult
    exact .refused rfl
  · have hmem := h.settled.mem_of_peekAhead hpeek
    rw [hpeek] at hresult hahead hcourse
    have hmoved := h.moved hcourse hahead
    generalize peekAhead n d = second at hresult hmoved
    obtain ⟨_, d'⟩ := second
    cases hresult
    exact .ok ⟨rfl, hmoved.onText.standsIn hmem⟩ hmoved

/-- Cursors abreast take the same token. -/
theorem advance_meets (h : c.Abreast text preferences d) :
    Meets Eq (fun t u => t = u ∧ t.StandsIn text) (Abreast text preferences)
      (advance c) (advance d) := by
  have hcourse := h.settled.advance.course
  have hahead := h.ahead.advance.2
  have hmeets := h.peekAhead_meets 0
  rw [advance_apply] at hcourse hahead ⊢
  rw [advance_apply d] at hahead ⊢
  generalize peekAhead 0 c = first at hmeets hcourse hahead
  generalize peekAhead 0 d = second at hmeets hahead
  cases hmeets with
  | refused hrefusal => exact .refused hrefusal
  | ok hmatch =>
    obtain ⟨rfl, hstands⟩ := hmatch
    exact .ok ⟨rfl, hstands⟩ (h.moved hcourse hahead)

/-- Cursors abreast take a closing angle both or neither. -/
theorem closing?_meets (h : c.Abreast text preferences d) :
    Meets Eq (fun t u => u.isSome = t.isSome) (Abreast text preferences)
      (closing? c) (closing? d) := by
  have hcourse := h.settled.closing?.course
  obtain ⟨hresult, hahead⟩ := h.ahead.closing? h.settled
  generalize closing? c = first at hresult hahead hcourse
  generalize closing? d = second at hresult hahead
  obtain ⟨result, c'⟩ := first
  obtain ⟨_, d'⟩ := second
  cases hresult
  cases result with
  | error e => exact .refused rfl
  | ok t => exact .ok rfl (h.moved hcourse hahead)

/-- Cursors abreast go back to the same place. -/
theorem restore (h : c.Abreast text preferences d) {n : Nat} (hn : n ≤ c.position) :
    (c.restore n).Abreast text preferences (d.restore n) := by
  have hcourse := (Course.refl h.settled hn).restore (Nat.le_refl n) hn
  exact h.moved hcourse (h.ahead.restore h.settled.toWellFormed n)

/-- What was noted down makes no difference. -/
theorem withJournal (h : c.Abreast text preferences d) (j k : Array LogEvent) :
    ({ c with journal := j } : Cursor).Abreast text preferences { d with journal := k } := by
  have hcourse := (Course.refl h.settled (Nat.le_refl _)).withJournal j
  obtain ⟨ts, ⟨hposition, hsplits, hbuffer, htext⟩, hend, hdelivers⟩ := h.ahead
  exact h.moved hcourse ⟨ts, ⟨hposition, hsplits, hbuffer, htext⟩, hend, hdelivers⟩

/-- Both cursors have read the token at an index, so it is the same token. -/
theorem eq_of_getElem? (h : c.Abreast text preferences d) {i : Nat} {t u : Token}
    (ht : c.buffer[c.position + i]? = some t) (hu : d.buffer[d.position + i]? = some u) :
    u = t := by
  rw [h.position_eq] at hu
  obtain ⟨ts, hahead⟩ := h.ahead
  obtain ⟨hlt, -⟩ := Array.getElem?_eq_some_iff.mp ht
  rw [hahead.getElem?_eq hlt, ht] at hu
  exact (Option.some.inj hu).symm

end Abreast

end Cursor

/-- A text as a mirror of itself. -/
def Mirror.itself (text : String) (preferences : LexicalPreferences) : Mirror where
  left := text
  right := text
  Same := Abreast text preferences
  Match t u := t = u ∧ t.StandsIn text
  Refusal := Eq
  word_eq h := by rw [h.1]
  within := Abreast.within
  position_eq := Abreast.position_eq
  peekAhead_meets := Abreast.peekAhead_meets
  advance_meets := Abreast.advance_meets
  closing?_meets := Abreast.closing?_meets
  same_restore h _ hn := h.restore hn
  same_withJournal := Abreast.withJournal
  areAdjacent_eq h _ _ _ _ _ _ ht hu := by
    rw [h.eq_of_getElem? (i := 0) ht.first_eq hu.first_eq,
      h.eq_of_getElem? ht.second_eq hu.second_eq,
      h.eq_of_getElem? ht.third_eq hu.third_eq]

/-- At the start of a text a cursor matches itself. -/
theorem Cursor.abreast_ofText (text : String) (preferences : LexicalPreferences) :
    (ofText text preferences).Abreast text preferences (ofText text preferences) :=
  ⟨settled_ofText text preferences, over_ofText text preferences, .refl _⟩

end JavaSyntax
