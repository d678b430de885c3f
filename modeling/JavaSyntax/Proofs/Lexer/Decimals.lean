import JavaSyntax.Proofs.Lexer.Numerals
import JavaSyntax.Proofs.Lexer.Pieces

/-!
# Decimal literals

Decimal numbers are spelt with digits of which the first is not a zero, unless it is the only
one, and with underscores between the digits. Below the bound of their type they are read as
literals of the number that the digits denote.
-/

namespace JavaSyntax

/-! ### Spelling and magnitude -/

/-- Whether characters are digits in the base ten with underscores between them, and do not
choose another base. -/
def isDecimal : List Char → Bool
  | [] => false
  | c :: cs =>
    isDigitOf 10 c && (c != '0' || cs.isEmpty) && cs.all (fun c => isDigitOf 10 c || c == '_') &&
      (c :: cs).getLast? != some '_'

/-- The number that one more character makes of a number in the base ten, if the character is
a digit. -/
def pushDigit (n : Nat) (c : Char) : Nat := (digitValue? 10 c).elim n (n * 10 + ·)

/-- The number that decimal digits denote. -/
def decimalMagnitude (cs : List Char) : Nat := cs.foldl pushDigit 0

/-- A literal that is a decimal number of the type `int` and needs no minus sign. -/
structure LiteralText.IsDecimal (l : LiteralText) : Prop where
  kind_eq : l.kind = .int
  spelling : isDecimal l.text.toList = true
  value_eq : l.value = some (.integer (decimalMagnitude l.text.toList) .decimal)
  lt : decimalMagnitude l.text.toList < 2 ^ 31

/-! ### Digits -/

/-- What is tested to be a digit is one. -/
theorem exists_isDigit {c : Char} (h : isDigitOf 10 c = true) : ∃ d, IsDigit 10 d c := by
  obtain ⟨d, hvalue⟩ := Option.isSome_iff_exists.mp h
  exact ⟨d, (digitValue?_eq_some_iff (by decide)).mp hvalue⟩

/-- Decimal digits and underscores may follow a number, if the last of them is a digit. -/
theorem Digits.append_decimal {q cs : List Char} {v k : Nat} (hq : Digits 10 q v)
    (hcs : cs.all (fun c => isDigitOf 10 c || c == '_') = true) (hk : k = 0 ∨ cs ≠ [])
    (hlast : cs.getLast? ≠ some '_') :
    Digits 10 (q ++ List.replicate k '_' ++ cs) (cs.foldl pushDigit v) := by
  induction cs generalizing q v k with
  | nil =>
    obtain rfl := hk.resolve_right (absurd rfl)
    simpa using hq
  | cons c cs ih =>
    rw [List.all_cons] at hcs
    obtain ⟨hc, hcs⟩ := Bool.and_eq_true_iff.mp hcs
    have hrest : cs.getLast? ≠ some '_' := by
      cases cs with
      | nil => rintro ⟨⟩
      | cons d cs => rwa [List.getLast?_cons_cons] at hlast
    by_cases hunderscore : c = '_'
    · subst hunderscore
      have hmore : cs ≠ [] := by
        rintro rfl
        exact hlast rfl
      have hpush : pushDigit v '_' = v := rfl
      have hnext := ih (k := k + 1) hq hcs (.inr hmore) hrest
      rw [List.foldl_cons, hpush]
      simpa [List.replicate_succ'] using hnext
    · have hdigit : isDigitOf 10 c = true := by simpa [hunderscore] using hc
      obtain ⟨d, hd⟩ := exists_isDigit hdigit
      have hvalue := (digitValue?_eq_some_iff (by decide)).mpr hd
      have hpush : pushDigit v c = v * 10 + d := by
        rw [pushDigit, hvalue, Option.elim_some]
      have hnext := ih (k := 0) (.next hq k hd) hcs (.inl rfl) hrest
      rw [List.foldl_cons, hpush]
      simpa using hnext

/-- A decimal number is a numeral in the base ten. -/
theorem numeral_of_isDecimal {cs : List Char} (h : isDecimal cs = true) :
    Numeral .decimal cs (decimalMagnitude cs) := by
  cases cs with
  | nil => cases h
  | cons c cs =>
    simp only [isDecimal, Bool.and_eq_true, Bool.or_eq_true, bne_iff_ne] at h
    obtain ⟨⟨⟨hc, hzero⟩, hcs⟩, hlast⟩ := h
    have hrest : cs.getLast? ≠ some '_' := by
      cases cs with
      | nil => rintro ⟨⟩
      | cons d cs => rwa [List.getLast?_cons_cons] at hlast
    obtain ⟨d, hd⟩ := exists_isDigit hc
    have hvalue := (digitValue?_eq_some_iff (by decide)).mpr hd
    have hpush : pushDigit 0 c = d := by
      rw [pushDigit, hvalue, Option.elim_some, Nat.zero_mul, Nat.zero_add]
    have hdigits := (Digits.digit hd).append_decimal (k := 0) hcs (.inl rfl) hrest
    by_cases hfirst : c = '0'
    · subst hfirst
      obtain rfl := List.isEmpty_iff.mp (hzero.resolve_left (absurd rfl))
      exact .zero
    · rw [decimalMagnitude, List.foldl_cons, hpush]
      exact .decimal hdigits (by simpa using hfirst)

/-- A number below the half of all values is its own value. -/
theorem signed_int {n : Nat} (h : n < 2 ^ 31) : IntegerWidth.int.signed n = n := by
  rw [IntegerWidth.signed, BitVec.toInt_ofNat']
  exact Int.bmod_eq_of_le (by simp [IntegerWidth.bits]) (by simp [IntegerWidth.bits]; omega)

/-- The value of a decimal literal is the number that its digits denote. -/
theorem decode_of_isDecimal {cs : List Char} (h : isDecimal cs = true)
    (hlt : decimalMagnitude cs < 2 ^ 31) :
    Literal.decode .intLiteral cs = .ok (some (.integer (decimalMagnitude cs) .decimal)) := by
  change some <$> ((decodeIntegerBody .int cs).mapError LiteralFault.invalidNumber) = _
  have hle : decimalMagnitude cs ≤ IntegerWidth.int.largest .decimal := Nat.le_of_lt hlt
  rw [(numeral_of_isDecimal h).decodeIntegerBody_eq_ok hle, signed_int hlt]
  rfl

/-! ### Scanning -/

/-- A decimal digit is in the class of digits. -/
theorem isDigit_ofChar {c : Char} (h : isDigitOf 10 c = true) :
    (CharClass.ofChar c).isDigit = true := by
  obtain ⟨d, hd⟩ := exists_isDigit h
  apply hd.elim
  decide

namespace CharClass

/-- Whether an operand ends before a character that does not belong to it. -/
def endsOperand : CharClass → Bool
  | .space | .rightParen | .endOfText => true
  | _ => false

end CharClass

namespace Scan

variable {cs : List Char} {next : CharClass}

/-- Inside of a decimal number the automaton takes every digit. -/
theorem next_decimal {c : Char} (h : isDigitOf 10 c = true) :
    LexState.next .decimal (.ofChar c) = .shift .decimal := by
  obtain ⟨d, hd⟩ := exists_isDigit h
  apply hd.elim
  decide

/-- A digit other than zero starts a decimal number. -/
theorem first_decimal {c : Char} (h : isDigitOf 10 c = true) (hzero : c ≠ '0') :
    LexState.first (.ofChar c) = .shift .decimal := by
  obtain ⟨d, hd⟩ := exists_isDigit h
  revert hzero
  apply hd.elim (P := fun c => c ≠ '0' → LexState.first (.ofChar c) = .shift .decimal)
  decide

/-- Digits and underscores are read as an integer before anything that ends an operand. -/
theorem kindFrom_decimal (hcs : cs.all (fun c => isDigitOf 10 c || c == '_') = true)
    (hnext : next.endsOperand = true) :
    kindFrom .decimal cs next = some (.token .intLiteral) := by
  induction cs with
  | nil => cases next <;> first | rfl | cases hnext
  | cons c cs ih =>
    rw [List.all_cons] at hcs
    obtain ⟨hc, hcs⟩ := Bool.and_eq_true_iff.mp hcs
    have hshift : LexState.next .decimal (.ofChar c) = .shift .decimal := by
      rcases Bool.or_eq_true_iff.mp hc with hdigit | hunderscore
      · exact next_decimal hdigit
      · rw [eq_of_beq hunderscore]
        rfl
    rw [kindFrom, hshift]
    exact ih hcs

/-- A decimal number ends where an operand does. -/
theorem kindOf_of_isDecimal (h : isDecimal cs = true) (hnext : next.endsOperand = true) :
    kindOf cs next = some (.token .intLiteral) := by
  cases cs with
  | nil => cases h
  | cons c cs =>
    simp only [isDecimal, Bool.and_eq_true, Bool.or_eq_true, bne_iff_ne] at h
    obtain ⟨⟨⟨hc, hzero⟩, hcs⟩, -⟩ := h
    by_cases hfirst : c = '0'
    · subst hfirst
      obtain rfl := List.isEmpty_iff.mp (hzero.resolve_left (absurd rfl))
      cases next <;> first | rfl | cases hnext
    · rw [kindOf, first_decimal hc hfirst]
      exact kindFrom_decimal hcs hnext

end Scan

/-- There is no line feed in a decimal number. -/
theorem newline_notMem_of_isDecimal {cs : List Char} (h : isDecimal cs = true) : '\n' ∉ cs := by
  cases cs with
  | nil => cases h
  | cons c cs =>
    simp only [isDecimal, Bool.and_eq_true] at h
    intro hmem
    rcases List.mem_cons.mp hmem with rfl | hmem
    · cases h.1.1.1
    · cases List.all_eq_true.mp h.1.2 _ hmem

/-- The word that a literal is. -/
def Word.literal (l : LiteralText) : Word := ⟨.intLiteral, l.text, l.value⟩

/-- A decimal literal is read as itself where an operand ends. -/
theorem Word.readBefore_literal {l : LiteralText} (h : l.IsDecimal) {next : CharClass}
    (hnext : next.endsOperand = true) : (Word.literal l).ReadBefore next := by
  refine ⟨⟨.intLiteral, Scan.kindOf_of_isDecimal h.spelling hnext, rfl⟩, ?_, ?_⟩
  · rw [Word.literal, h.value_eq]
    exact decode_of_isDecimal h.spelling h.lt
  · exact newline_notMem_of_isDecimal h.spelling

/-- A decimal literal starts with a digit. -/
theorem Piece.isDigit_leading {l : LiteralText} (h : l.IsDecimal) (ps : List Piece)
    (next : CharClass) : (leading (.word (.literal l) :: ps) next).isDigit = true := by
  have hspelling := h.spelling
  have hchars : spelling (.word (.literal l) :: ps) = l.text.toList ++ spelling ps := rfl
  rw [leading, hchars]
  cases htext : l.text.toList with
  | nil =>
    rw [htext] at hspelling
    cases hspelling
  | cons c cs =>
    rw [htext] at hspelling
    simp only [isDecimal, Bool.and_eq_true] at hspelling
    exact isDigit_ofChar hspelling.1.1.1

end JavaSyntax
