import JavaSyntax.Text.Span

/-!
# Slices of a text

Offsets count bytes, while everything is read character by character. This file
connects the two: the bytes of a run of characters, the offset after it, and the
text that stands between two offsets.
-/

namespace JavaSyntax

/-- No characters have no bytes. -/
@[simp] theorem byteLength_nil : byteLength [] = 0 := rfl

/-- Adding up sizes from a number on adds that number to the sum. -/
private theorem foldl_utf8Size (n : Nat) (cs : List Char) :
    cs.foldl (· + ·.utf8Size) n = n + byteLength cs := by
  induction cs generalizing n with
  | nil => simp
  | cons c cs ih =>
    simp only [byteLength, List.foldl_cons] at ih ⊢
    rw [ih, ih (0 + c.utf8Size)]
    omega

/-- One more character adds its own bytes. -/
@[simp] theorem byteLength_cons (c : Char) (cs : List Char) :
    byteLength (c :: cs) = c.utf8Size + byteLength cs := by
  simpa [byteLength] using foldl_utf8Size c.utf8Size cs

/-- The bytes of a run of characters are the bytes of the text that it spells. -/
theorem utf8ByteSize_ofList (cs : List Char) :
    (String.ofList cs).utf8ByteSize = byteLength cs := by
  induction cs with
  | nil => rfl
  | cons c cs ih =>
    rw [String.ofList_cons, String.utf8ByteSize_append, ih, byteLength_cons]
    simp

/-- The bytes of characters in sequence add up. -/
theorem byteLength_append (cs ds : List Char) :
    byteLength (cs ++ ds) = byteLength cs + byteLength ds := by
  rw [← utf8ByteSize_ofList, String.ofList_append, String.utf8ByteSize_append,
    utf8ByteSize_ofList, utf8ByteSize_ofList]

/-- The order of characters does not matter to the number of their bytes. -/
theorem byteLength_reverse (cs : List Char) : byteLength cs.reverse = byteLength cs := by
  induction cs with
  | nil => rfl
  | cons c cs ih =>
    rw [List.reverse_cons, byteLength_append, ih, byteLength_cons, byteLength_cons, byteLength_nil]
    omega

/-- Characters have bytes. -/
theorem byteLength_pos {cs : List Char} (h : cs ≠ []) : 0 < byteLength cs := by
  cases cs with
  | nil => exact absurd rfl h
  | cons c cs =>
    have hc := c.utf8Size_pos
    rw [byteLength_cons]
    omega

/-- Either line terminator is one byte long, so advancing always adds the bytes of
the character. -/
theorem Position.offset_advance (p : Position) (c : Char) :
    (p.advance c).offset = p.offset + c.utf8Size := by
  unfold Position.advance
  split
  · rename_i hterminator
    rcases (by simpa [isLineTerminator] using hterminator : c = '\n' ∨ c = '\r') with rfl | rfl
    · rfl
    · rfl
  · rfl

/-- How lines are counted does not matter to the offset. -/
@[simp] theorem Position.offset_advanceChars (p : Position) (cs : List Char) :
    (p.advanceChars cs).offset = p.offset + byteLength cs := by
  fun_induction Position.advanceChars p cs with
  | case1 p => simp
  | case2 p rest ih =>
    have hreturn : ('\r' : Char).utf8Size = 1 := by decide
    have hfeed : ('\n' : Char).utf8Size = 1 := by decide
    simp only [ih, byteLength_cons, hreturn, hfeed]
    omega
  | case3 p c rest _ ih =>
    rw [ih, offset_advance, byteLength_cons]
    omega

/-- The offset between two parts of a text is a position in it. -/
theorem pos?_append (a b : String) :
    ∃ p : (a ++ b).Pos, (a ++ b).pos? ⟨a.utf8ByteSize⟩ = some p ∧ p.offset = ⟨a.utf8ByteSize⟩ := by
  have hvalid : String.Pos.Raw.IsValid (a ++ b) ⟨a.utf8ByteSize⟩ :=
    String.Pos.Raw.isValid_iff_exists_append.mpr ⟨a, b, rfl, rfl⟩
  refine ⟨(a ++ b).pos _ hvalid, ?_, String.offset_pos⟩
  have hslice := hvalid.toSlice
  simp [String.pos?, String.Slice.pos?, String.pos, hslice]

/-- Between the bytes before a part of a text and the bytes up to its end stands that
part. -/
theorem textBetween_append (a b c : String) :
    textBetween (a ++ b ++ c) a.utf8ByteSize (a ++ b).utf8ByteSize = b := by
  have hfirst := pos?_append a (b ++ c)
  rw [← String.append_assoc] at hfirst
  obtain ⟨first, hfirst, hstart⟩ := hfirst
  obtain ⟨last, hlast, hstop⟩ := pos?_append (a ++ b) c
  have hle : a.utf8ByteSize ≤ (a ++ b).utf8ByteSize := by
    simp only [String.utf8ByteSize_append]
    omega
  simp only [textBetween, hfirst, hlast, if_pos hle]
  apply String.toByteArray_inj.mp
  rw [String.toByteArray_extract, hstart, hstop, String.toByteArray_append,
    ByteArray.extract_append]
  simp [ByteArray.extract_append_eq_right]

end JavaSyntax
