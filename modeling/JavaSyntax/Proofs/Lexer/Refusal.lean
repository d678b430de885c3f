import JavaSyntax.Proofs.Lexer.Delivery
import JavaSyntax.Proofs.Lexer.Escapes
import JavaSyntax.Proofs.Lexer.Tiling

/-!
# Where the lexer stands after it has refused

An error points at the lexeme for which it is raised: at its start or at an escape inside
it. The lexer that refuses has either stayed before that lexeme, and then refuses it again,
or passed it, and then stands after the place of the error. Which of the two happened can
be read off the offsets.
-/

namespace JavaSyntax

/-! ### Bytes of a literal -/

/-- What is cut off and what is left make up the bytes of a text. -/
theorem byteLength_of_dropBytes? {n : Nat} {cs rest : List Char}
    (h : dropBytes? n cs = some rest) : n + byteLength rest = byteLength cs := by
  fun_induction dropBytes? n cs with
  | case1 cs =>
    cases h
    omega
  | case2 => cases h
  | case3 n c cs hsize ih =>
    have hrest := ih h
    rw [byteLength_cons]
    omega
  | case4 => cases h

namespace Literal

variable {text body : List Char} {within : Nat}

/-- The delimiters on both sides and what stands between them make up a literal. -/
theorem byteLength_of_undelimited {count : Nat} (h : undelimited count text = .ok body) :
    byteLength text = count + byteLength body + count := by
  unfold undelimited at h
  split at h
  · rename_i found hfound
    cases h
    obtain ⟨inner, hinner, hlast⟩ := Option.bind_eq_some_iff.mp hfound
    obtain ⟨reversed, hreversed, rfl⟩ := Option.map_eq_some_iff.mp hlast
    have hfirst := byteLength_of_dropBytes? hinner
    have hsecond := byteLength_of_dropBytes? hreversed
    rw [byteLength_reverse] at hsecond ⊢
    omega
  · cases h

/-- A bad escape lies inside its string. -/
theorem lt_of_decodeString (h : decodeString text = .error (.invalidEscape within)) :
    within < byteLength text := by
  unfold decodeString at h
  cases hbody : undelimited 1 text with
  | error fault =>
    rw [hbody] at h
    exact absurd (hbody.trans h) (undelimited_ne_invalidEscape 1)
  | ok body =>
    have htext := byteLength_of_undelimited hbody
    rw [hbody] at h
    change (Escape.decode false body).mapError _ = _ at h
    unfold Escape.decode at h
    cases hrest : Escape.decodeRest false .empty body with
    | error left =>
      rw [hrest] at h
      cases h
      dsimp only
      omega
    | ok chars =>
      rw [hrest] at h
      cases h

/-- The opening line of a text block is a part of it. -/
theorem openingLength_le (inner : List Char) :
    TextBlock.openingLength inner ≤ byteLength inner := by
  have hsplit := congrArg byteLength
    (List.takeWhile_append_dropWhile (p := (!isLineTerminator ·)) (l := inner))
  rw [byteLength_append] at hsplit
  unfold TextBlock.openingLength
  rw [← hsplit]
  apply Nat.add_le_add_left
  split
  · have hreturn : ('\r' : Char).utf8Size = 1 := by decide
    have hfeed : ('\n' : Char).utf8Size = 1 := by decide
    rename_i heq
    rw [heq, byteLength_cons, byteLength_cons, hreturn, hfeed]
    omega
  · rename_i heq
    rw [heq]
    exact byteLength_pos nofun
  · omega

/-- A text block with a bad escape is reported inside the block. -/
theorem lt_of_decodeTextBlock (h : decodeTextBlock text = .error (.invalidEscape within)) :
    within < byteLength text := by
  unfold decodeTextBlock at h
  cases hinner : undelimited 3 text with
  | error fault =>
    rw [hinner] at h
    exact absurd (hinner.trans h) (undelimited_ne_invalidEscape 3)
  | ok inner =>
    have htext := byteLength_of_undelimited hinner
    have hopening := openingLength_le inner
    rw [hinner] at h
    change (TextBlock.decode inner).mapError _ = _ at h
    unfold TextBlock.decode at h
    cases hdecode : Escape.decode true (TextBlock.strip (TextBlock.contentLines inner)) with
    | error offset =>
      rw [hdecode] at h
      cases h
      dsimp only
      omega
    | ok chars =>
      rw [hdecode] at h
      cases h

/-- A bad escape lies inside its literal. -/
theorem lt_of_decode {kind : TokenKind} (h : decode kind text = .error (.invalidEscape within)) :
    within < byteLength text := by
  rcases decode_eq_invalidEscape h with ⟨-, hstring⟩ | ⟨-, hblock⟩
  · exact lt_of_decodeString hstring
  · exact lt_of_decodeTextBlock hblock

end Literal

/-- An error points into the lexeme for which it is raised. -/
theorem LexError.RaisedFor.offset_bounds {e : LexError} {start : Nat} {lexeme : List Char}
    (h : e.RaisedFor start lexeme) (hlexeme : lexeme ≠ []) :
    start ≤ e.offset ∧ e.offset < start + byteLength lexeme := by
  rcases h.points with hstart | ⟨kind, within, hdecode, -, hwithin⟩
  · have hpos := byteLength_pos hlexeme
    omega
  · have hlt := Literal.lt_of_decode hdecode
    omega

namespace Lexer

variable {l m : Lexer} {e : LexError}

/-! ### Offsets only grow -/

/-- Skipping goes forward. -/
theorem Skips.offset_le (h : Skips l m) : l.position.offset ≤ m.position.offset := by
  induction h with
  | refl l => exact Nat.le_refl _
  | @keep l m n c cs taken rest style hrest hscan hkeep hskips ih =>
    obtain ⟨-, hposition, -⟩ := keep_eq_ok hkeep
    rw [hposition, Position.offset_advanceChars] at ih
    omega

/-- A call goes forward or stays. -/
theorem offset_le_lex (l : Lexer) : l.position.offset ≤ l.lex.lexer.position.offset := by
  obtain ⟨m, hskips, hends⟩ := exists_skips_ends_lex l
  refine Nat.le_trans hskips.offset_le ?_
  generalize l.lex = outcome at hends
  cases hends with
  | finished | stuck => exact Nat.le_refl _
  | refused | tooLong | delivered =>
    simp only [refuse, afterToken, pass, Position.offset_advanceChars]
    omega

/-- Delivering tokens goes forward. -/
theorem Delivers.offset_le {ts : List Token} (h : Delivers l ts m) :
    l.position.offset ≤ m.position.offset := by
  induction h with
  | nil l => exact Nat.le_refl _
  | @cons l m t ts hresult hend _ ih => exact Nat.le_trans l.offset_le_lex ih

/-! ### Staying and passing -/

/-- A lexer that refuses points at what it has not passed before the call. Then it stays
before the lexeme, or it has passed the place of the error. -/
theorem lex_error (h : l.lex.result = .error e) :
    l.position.offset ≤ e.offset ∧
      (Skips l l.lex.lexer ∨ e.offset < l.lex.lexer.position.offset) := by
  obtain ⟨m, hskips, hends⟩ := exists_skips_ends_lex l
  have hle := hskips.offset_le
  generalize l.lex = outcome at hends h
  cases hends with
  | finished | delivered => cases h
  | stuck =>
    cases h
    exact ⟨hle, .inl hskips⟩
  | @refused c cs taken rest kind e hrest hscan hclassify =>
    cases h
    have hbounds := (raisedFor_of_classify hclassify).offset_bounds
      (Scan.reverse_ne_nil_of_start hscan)
    refine ⟨by omega, .inr ?_⟩
    simpa [refuse, pass] using hbounds.2
  | @tooLong c cs taken rest style hrest hscan hlong =>
    cases h
    have hpos := byteLength_pos (Scan.reverse_ne_nil_of_start hscan)
    refine ⟨hle, .inr ?_⟩
    simpa [refuse, pass] using hpos

end Lexer

end JavaSyntax
