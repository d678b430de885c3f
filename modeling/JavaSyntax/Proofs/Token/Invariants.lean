import JavaSyntax.Proofs.Token.Splits

/-!
# Invariants of cursors

A cursor fills its buffer with what the lexer delivers, splits tokens there and puts them
together again. What is to hold of all tokens in a buffer therefore only has to be shown of
delivered tokens and of the parts of a token.
-/

namespace JavaSyntax
namespace Cursor

/-- What a lexer keeps from call to call, with a property of the tokens that it delivers, which
both parts of a split token have again. -/
structure Invariant where
  lexer : Lexer → Prop
  token : Token → Prop
  lex {l : Lexer} (h : lexer l) : lexer l.lex.lexer
  delivered {l : Lexer} {t : Token} (h : lexer l) (ht : l.lex.result = .ok t) : token t
  parts {t : Token} {kind : TokenKind} (h : token t) (hkind : t.kind.afterGreater? = some kind) :
    token t.greaterHead ∧ token (t.greaterTail kind)

/-- The invariant holds of a cursor: of its lexer and of its tokens, those included that it can
put back together. -/
structure Invariant.Holds (I : Invariant) (c : Cursor) : Prop where
  lexer : I.lexer c.lexer
  buffer : ∀ t ∈ c.buffer, I.token t
  splits : ∀ entry ∈ c.splits, I.token entry.2

variable {text : String} {preferences : LexicalPreferences} {I : Invariant} {c : Cursor}
  {t : Token} {kind : TokenKind}

namespace Invariant.Holds

/-- An invariant holds of a cursor at the start of a text if it does of the lexer there. -/
theorem ofText (h : I.lexer (Lexer.ofText text preferences)) :
    I.Holds (Cursor.ofText text preferences) where
  lexer := h
  buffer := by simp [Cursor.ofText]
  splits := by simp [Cursor.ofText]

/-! ### Reading -/

/-- Reading a token keeps an invariant. -/
theorem readToken (h : I.Holds c) : I.Holds (readToken c).2 := by
  have hlexer := I.lex h.lexer
  rw [readToken_apply]
  rcases hlex : c.lexer.lex with ⟨e | t, lexer, events⟩
  · rw [hlex] at hlexer
    exact ⟨hlexer, h.buffer, h.splits⟩
  · have hresult : c.lexer.lex.result = .ok t := by rw [hlex]
    rw [hlex] at hlexer
    refine ⟨hlexer, ?_, h.splits⟩
    intro u hu
    rcases Array.mem_push.mp hu with hu | rfl
    · exact h.buffer u hu
    · exact I.delivered h.lexer hresult

/-- Reading several tokens keeps an invariant. -/
theorem readTokens (h : I.Holds c) (n : Nat) : I.Holds (readTokens n c).2 := by
  induction n generalizing c with
  | zero => exact h
  | succ n ih =>
    rw [readTokens_succ_apply]
    split
    · exact h
    have hone := h.readToken
    rcases hread : Cursor.readToken c with ⟨_ | _, c'⟩
    · rwa [hread] at hone
    · rw [hread] at hone
      exact ih hone

/-- Looking ahead keeps an invariant. -/
theorem peekAhead (h : I.Holds c) (n : Nat) : I.Holds (peekAhead n c).2 := by
  have hread := h.readTokens (c.position + n + 1 - c.buffer.size)
  rw [peekAhead_apply]
  rcases htokens : Cursor.readTokens (c.position + n + 1 - c.buffer.size) c with ⟨_ | _, c'⟩ <;>
    rwa [htokens] at hread

/-- Passing a token keeps an invariant. -/
theorem pastToken (h : I.Holds c) (t : Token) : I.Holds (c.pastToken t) := by
  unfold Cursor.pastToken
  split
  · exact h
  · exact ⟨h.lexer, h.buffer, h.splits⟩

/-- Taking a token keeps an invariant. -/
theorem advance (h : I.Holds c) : I.Holds (advance c).2 := by
  have hpeek := h.peekAhead 0
  rw [advance_apply]
  rcases hcurrent : Cursor.peekAhead 0 c with ⟨_ | t, c'⟩ <;> rw [hcurrent] at hpeek
  · exact hpeek
  · exact hpeek.pastToken t

end Invariant.Holds

/-! ### Splitting and going back -/

/-- After a split, the tokens are those from before and the two parts. -/
theorem mem_replaceByParts {buffer : Array Token} {i : Nat} {head tail : Token}
    (h : t ∈ replaceByParts buffer i head tail) : t ∈ buffer ∨ t = head ∨ t = tail := by
  unfold replaceByParts Array.insertIdxIfInBounds at h
  split at h
  · rcases Array.mem_insertIdx.mp h with rfl | h
    · exact .inr (.inr rfl)
    · exact (Array.mem_or_eq_of_mem_setIfInBounds h).imp_right .inl
  · exact (Array.mem_or_eq_of_mem_setIfInBounds h).imp_right .inl

/-- After a split is undone, the tokens are those from before and the whole one. -/
theorem mem_undoSplit {buffer : Array Token} {i : Nat} {whole : Token}
    (h : t ∈ undoSplit buffer i whole) : t ∈ buffer ∨ t = whole := by
  refine (Array.mem_or_eq_of_mem_setIfInBounds h).imp_left fun h => ?_
  rw [← Array.mem_toList_iff, Array.toList_eraseIdxIfInBounds] at h
  exact Array.mem_toList_iff.mp (List.mem_of_mem_eraseIdx h)

/-- Only a token of the buffer can be split: the mark of the end cannot. -/
theorem mem_buffer_of_afterGreater? {i : Nat}
    (hkind : (c.tokenAt i).kind.afterGreater? = some kind) : c.tokenAt i ∈ c.buffer := by
  unfold Cursor.tokenAt at hkind ⊢
  cases hfound : c.buffer[i]? with
  | some t => exact Array.mem_of_getElem? hfound
  | none =>
    rw [hfound] at hkind
    cases hback : c.buffer.back? with
    | some t => exact Array.mem_of_back? hback
    | none =>
      rw [hback] at hkind
      cases hkind

namespace Invariant.Holds

/-- A split keeps an invariant, since both parts of a token have its property. -/
theorem withSplit (h : I.Holds c) (ht : I.token t) (hkind : t.kind.afterGreater? = some kind) :
    I.Holds (c.withSplit t kind) where
  lexer := h.lexer
  buffer := by
    intro u hu
    rcases mem_replaceByParts hu with hu | rfl | rfl
    · exact h.buffer u hu
    · exact (I.parts ht hkind).1
    · exact (I.parts ht hkind).2
  splits := by
    intro entry hentry
    rcases List.mem_cons.mp hentry with rfl | hentry
    · exact ht
    · exact h.splits entry hentry

/-- Splitting a `>` off keeps an invariant. -/
theorem splitGreater (h : I.Holds c) : I.Holds (splitGreater c).2 := by
  have hpeek := h.peekAhead 0
  rw [splitGreater_apply]
  rw [peekAhead_apply] at hpeek ⊢
  rcases htokens : Cursor.readTokens (c.position + 0 + 1 - c.buffer.size) c with ⟨_ | _, c'⟩ <;>
    rw [htokens] at hpeek <;> dsimp only at hpeek ⊢
  · exact hpeek
  split
  · exact hpeek
  cases hkind : (c'.tokenAt (c.position + 0)).kind.afterGreater? with
  | none => exact hpeek
  | some kind => exact hpeek.withSplit (hpeek.buffer _ (mem_buffer_of_afterGreater? hkind)) hkind

/-- Going back keeps an invariant. -/
theorem restore (h : I.Holds c) (saved : Nat) : I.Holds (c.restore saved) := by
  have hundone {buffer : Array Token} {splits : List (Nat × Token)}
      (hbuffer : ∀ t ∈ buffer, I.token t) (hsplits : ∀ entry ∈ splits, I.token entry.2) :
      (∀ t ∈ (undoSplits buffer saved splits).1, I.token t) ∧
        ∀ entry ∈ (undoSplits buffer saved splits).2, I.token entry.2 := by
    induction splits generalizing buffer with
    | nil => exact ⟨hbuffer, hsplits⟩
    | cons entry splits ih =>
      rw [undoSplits]
      split
      · exact ⟨hbuffer, hsplits⟩
      · refine ih ?_ fun entry hentry => hsplits entry (List.mem_cons_of_mem _ hentry)
        intro t ht
        rcases mem_undoSplit ht with ht | rfl
        · exact hbuffer t ht
        · exact hsplits entry List.mem_cons_self
  obtain ⟨hbuffer, hsplits⟩ := hundone h.buffer h.splits
  exact ⟨h.lexer, hbuffer, hsplits⟩

end Invariant.Holds

/-! ### Sequences of operations -/

/-- The cursors that come of any operations on a cursor at the start of a text, whether they
succeed or not. It may go back to any index. -/
inductive Handled (text : String) (preferences : LexicalPreferences) : Cursor → Prop
  | start : Handled text preferences (ofText text preferences)
  | peek {c : Cursor} (n : Nat) (h : Handled text preferences c) :
      Handled text preferences (peekAhead n c).2
  | advance {c : Cursor} (h : Handled text preferences c) : Handled text preferences (advance c).2
  | split {c : Cursor} (h : Handled text preferences c) :
      Handled text preferences (splitGreater c).2
  | restore {c : Cursor} (saved : Nat) (h : Handled text preferences c) :
      Handled text preferences (c.restore saved)

/-- Whatever is done with a cursor, an invariant holds of it that holds at the start. -/
theorem Handled.holds (h : Handled text preferences c)
    (hstart : I.lexer (Lexer.ofText text preferences)) : I.Holds c := by
  induction h with
  | start => exact .ofText hstart
  | peek n _ ih => exact ih.peekAhead n
  | advance _ ih => exact ih.advance
  | split _ ih => exact ih.splitGreater
  | restore saved _ ih => exact ih.restore saved

end Cursor
end JavaSyntax
