import JavaSyntax.Proofs.Lexer.FloatLiterals
import Mathlib.Algebra.Group.Int.Defs

/-!
# Decoding floating-point literals

The decoder drops the suffix, removes the underscores and reads what is left. On the texts that
the automaton takes for literals it can fail only because an underscore or a digit is missing its
place, or because the number is out of range. It does not check the order of the parts: of that
the automaton has taken care.
-/

namespace JavaSyntax

/-! ### Characters -/

section Characters

variable {w : FloatWidth} {cs body suffix mantissa whole fraction exponent digits : List Char}

/-- The letters that have a meaning at the start or at the end of a literal. -/
def endLetters : List Char := ['f', 'F', 'd', 'D', 'x', 'X']

/-- What holds of two characters holds of all in the list of them. -/
theorem forall_mem_pair {P : Char → Prop} {a b : Char} (ha : P a) (hb : P b) :
    ∀ c ∈ [a, b], P c := by
  intro c hc
  rcases List.mem_cons.mp hc with rfl | hc
  · exact ha
  · obtain rfl := List.mem_singleton.mp hc
    exact hb

/-- A digit is no letter of a suffix or of an exponent. -/
theorem LooseDigits.notMem_endLetters (h : LooseDigits 10 cs) : ∀ c ∈ cs, c ∉ endLetters := by
  intro c hc
  rcases h c hc with rfl | ⟨d, hd⟩
  · decide
  · apply hd.elim
    decide

/-- A mantissa has no letters. -/
theorem LooseMantissa.notMem_endLetters (h : LooseMantissa 10 mantissa whole fraction) :
    ∀ c ∈ mantissa, c ∉ endLetters := by
  cases h with
  | whole hwhole => exact hwhole.notMem_endLetters
  | point hwhole hfraction =>
    intro c hc
    rcases List.mem_append.mp hc with hc | hc
    · exact hwhole.notMem_endLetters c hc
    rcases List.mem_cons.mp hc with rfl | hc
    · decide
    · exact hfraction.notMem_endLetters c hc

/-- An exponent has no letters but its own. -/
theorem LooseExponent.notMem_endLetters {letters : List Char}
    (h : LooseExponent letters exponent digits) (hletters : ∀ c ∈ letters, c ∉ endLetters) :
    ∀ c ∈ exponent, c ∉ endLetters := by
  obtain ⟨hletter, hsign, hdigits, -⟩ := h
  intro c hc
  rcases List.mem_cons.mp hc with rfl | hc
  · exact hletters c hletter
  rcases List.mem_append.mp hc with hc | hc
  · cases hsign with
    | absent => cases hc
    | plus | minus =>
      obtain rfl := List.mem_singleton.mp hc
      decide
  · exact hdigits.notMem_endLetters c hc

/-- An exponent starts with its letter. -/
theorem LooseExponent.ne_nil {letters : List Char} (h : LooseExponent letters exponent digits) :
    exponent ≠ [] := by
  cases h
  exact List.cons_ne_nil _ _

/-- A mantissa has a digit or its point. -/
theorem LooseMantissa.ne_nil {base : Nat} (h : LooseMantissa base mantissa whole fraction) :
    mantissa ≠ [] := by
  cases h with
  | whole hwhole hsome => exact hsome
  | point => simp

/-- Before its suffix a decimal literal has no letter of one. -/
theorem LooseDecimal.notMem_endLetters (h : LooseDecimal w body suffix) :
    ∀ c ∈ body, c ∉ endLetters := by
  obtain ⟨hmantissa, -, hexponent, -, -⟩ := h
  intro c hc
  rcases List.mem_append.mp hc with hc | hc
  · exact hmantissa.notMem_endLetters c hc
  rcases hexponent with rfl | ⟨digits, hexponent⟩
  · cases hc
  · exact hexponent.notMem_endLetters (forall_mem_pair (by decide) (by decide)) c hc

namespace Floating

/-- A suffix is dropped, and nothing else is taken for one. -/
theorem dropSuffix_append {front back : List Char} (hsuffix : w.Suffix suffix) (hsome : back ≠ [])
    (hback : ∀ c ∈ back, c ∉ endLetters) :
    dropSuffix (front ++ back ++ suffix) = front ++ back := by
  cases hsuffix with
  | absent =>
    have hlast : (front ++ back).getLast? = some (back.getLast hsome) := by
      rw [List.getLast?_append, List.getLast?_eq_some_getLast hsome]
      rfl
    have hletter := hback _ (List.getLast_mem hsome)
    rw [List.append_nil, dropSuffix, hlast]
    generalize back.getLast hsome = c at hletter
    split <;> first | rfl | exact absurd (by decide) (Option.some.inj ‹_› ▸ hletter)
  | single hc =>
    rw [dropSuffix, List.getLast?_concat, List.dropLast_concat]
    rcases hc with rfl | rfl <;> rfl
  | double hc =>
    rw [dropSuffix, List.getLast?_concat, List.dropLast_concat]
    rcases hc with rfl | rfl <;> rfl

/-- A number without letters has no mark of the base sixteen. -/
theorem hexDigits?_eq_none (h : ∀ c ∈ body, c ∉ endLetters) : hexDigits? body = none := by
  unfold hexDigits?
  split
  · exact absurd (by decide) (h 'x' (by simp))
  · exact absurd (by decide) (h 'X' (by simp))
  · rfl

end Floating

end Characters

/-! ### Reading numbers without underscores -/

/-- Digits without underscores. -/
def bare (cs : List Char) : List Char := cs.filter (· != '_')

section Bare

variable {base m : Nat} {cs : List Char}

/-- Without underscores only digits are left. -/
theorem LooseDigits.isDigitOf_bare (h : LooseDigits base cs) (hbase : base ≤ 16) :
    ∀ c ∈ bare cs, isDigitOf base c = true := by
  intro c hc
  obtain ⟨hmem, hne⟩ := List.mem_filter.mp hc
  obtain ⟨d, hd⟩ := (h c hmem).resolve_left (by simpa using hne)
  exact hd.isDigitOf hbase

/-- Without underscores only decimal digits are left. -/
theorem LooseDigits.isDigit_bare (h : LooseDigits 10 cs) : ∀ c ∈ bare cs, c.isDigit = true := by
  have hdigits := h.isDigitOf_bare (by decide)
  rwa [isDigitOf_ten] at hdigits

/-- Digits with underscores between them are not all underscores. -/
theorem IsDigits.bare_ne_nil (h : IsDigits base cs) (hbase : base ≤ 16) : bare cs ≠ [] := by
  obtain ⟨m, hm⟩ := h
  obtain ⟨c, rest, d, rfl, hd⟩ := hm.exists_eq_cons
  rw [bare, List.filter_cons_of_pos (by simpa using hd.ne_underscore hbase)]
  exact List.cons_ne_nil _ _

/-- Something is left of digits if underscores stand between them. -/
theorem LooseDigits.bare_ne_nil (h : LooseDigits base cs) (hbase : base ≤ 16)
    (hseparated : WellSeparated (isDigitOf base) cs) (hsome : cs ≠ []) : bare cs ≠ [] :=
  (h.isDigits hbase hsome hseparated).bare_ne_nil hbase

/-- On either side of the point of a mantissa stand digits. -/
theorem LooseMantissa.loose {mantissa whole fraction : List Char}
    (h : LooseMantissa base mantissa whole fraction) :
    LooseDigits base whole ∧ LooseDigits base fraction := by
  cases h with
  | whole hwhole => exact ⟨hwhole, looseDigits_nil⟩
  | point hwhole hfraction => exact ⟨hwhole, hfraction⟩

/-- A mantissa has digits on one side of its point. -/
theorem LooseMantissa.bare_ne_nil {mantissa whole fraction : List Char}
    (h : LooseMantissa base mantissa whole fraction) (hbase : base ≤ 16)
    (hseparated : WellSeparated (isDigitOf base) mantissa) (hsome : whole ≠ [] ∨ fraction ≠ []) :
    bare whole ≠ [] ∨ bare fraction ≠ [] := by
  obtain ⟨hwholeSep, hfractionSep⟩ := h.wellSeparated_iff.mp hseparated
  exact hsome.imp (h.loose.1.bare_ne_nil hbase hwholeSep)
    (h.loose.2.bare_ne_nil hbase hfractionSep)

/-- If one of two lists has an item, they are not both empty. -/
theorem isEmpty_and_isEmpty {front back : List Char} (h : front ≠ [] ∨ back ≠ []) :
    (front.isEmpty && back.isEmpty) = false := by
  rcases h with h | h
  · rw [List.isEmpty_eq_false_iff.mpr h, Bool.false_and]
  · rw [List.isEmpty_eq_false_iff.mpr h, Bool.and_false]

end Bare

namespace Floating

section Decimals

variable {w : FloatWidth} {limit m : Nat} {negative : Bool} {letter : Char}
  {cs sign digits whole fraction rest exponent body suffix mantissa : List Char}

/-- Digits are taken up to what is none. -/
theorem takeWhile_digits (h : ∀ c ∈ digits, c.isDigit = true)
    (hrest : ∀ c ∈ rest.head?, c.isDigit = false) :
    (digits ++ rest).takeWhile Char.isDigit = digits := by
  rw [List.takeWhile_append_of_pos h]
  cases rest with
  | nil => simp
  | cons c rest => rw [List.takeWhile_cons_of_neg (by simp [hrest c rfl]), List.append_nil]

/-- Behind the digits stands what is none. -/
theorem dropWhile_digits (h : ∀ c ∈ digits, c.isDigit = true)
    (hrest : ∀ c ∈ rest.head?, c.isDigit = false) :
    (digits ++ rest).dropWhile Char.isDigit = rest := by
  rw [List.dropWhile_append_of_pos h]
  cases rest with
  | nil => rfl
  | cons c rest => rw [List.dropWhile_cons_of_neg (by simp [hrest c rfl])]

/-- Where no sign comes first, none is split off. -/
theorem splitSign_of_head? (h : ∀ c ∈ cs.head?, c ≠ '-' ∧ c ≠ '+') :
    splitSign cs = (false, cs) := by
  unfold splitSign
  split
  · exact absurd rfl (h '-' rfl).1
  · exact absurd rfl (h '+' rfl).2
  · rfl

/-- A whole number is read up to a limit. -/
theorem readInt?_eq (hsign : ExponentSign sign negative) (hdigits : ∀ c ∈ digits, c.isDigit = true)
    (hsome : digits ≠ []) :
    readInt? limit (sign ++ digits) =
      some (if negative then -(ofDigitsUpTo limit digits : Int)
        else ofDigitsUpTo limit digits) := by
  have hsplit : splitSign (sign ++ digits) = (negative, digits) := by
    cases hsign with
    | absent =>
      refine splitSign_of_head? fun c hc => ?_
      have hdigit := hdigits c (List.mem_of_mem_head? hc)
      constructor
      · rintro rfl
        cases hdigit
      · rintro rfl
        cases hdigit
    | plus => rfl
    | minus => rfl
  have hempty : digits.isEmpty = false := by simpa using hsome
  have hall : digits.all Char.isDigit = true := List.all_eq_true.mpr hdigits
  rw [readInt?, hsplit]
  dsimp only
  rw [hempty, hall, Bool.not_true, Bool.or_false, if_neg Bool.false_ne_true]

/-- A number with a point is read as its digits, scaled by how many of them stand behind the
point. -/
theorem readDecimal?_point (hwhole : ∀ c ∈ whole, c.isDigit = true)
    (hfraction : ∀ c ∈ fraction, c.isDigit = true) (hsome : whole ≠ [] ∨ fraction ≠ [])
    (hrest : ∀ c ∈ rest.head?, c.isDigit = false) :
    readDecimal? (whole ++ '.' :: (fraction ++ rest)) =
      (readExponent? rest).map fun exponent =>
        .ofDigits (whole ++ fraction) (exponent - fraction.length) := by
  have hpoint : ∀ c ∈ ('.' :: (fraction ++ rest)).head?, c.isDigit = false := by
    rintro c ⟨⟩
    rfl
  rw [readDecimal?, takeWhile_digits hwhole hpoint, dropWhile_digits hwhole hpoint]
  change (if (whole.isEmpty && ((fraction ++ rest).takeWhile Char.isDigit).isEmpty) = true then none
    else (readExponent? ((fraction ++ rest).dropWhile Char.isDigit)).map fun exponent =>
      Decimal.ofDigits (whole ++ (fraction ++ rest).takeWhile Char.isDigit)
        (exponent - ((fraction ++ rest).takeWhile Char.isDigit).length)) = _
  rw [takeWhile_digits hfraction hrest, dropWhile_digits hfraction hrest,
    isEmpty_and_isEmpty hsome, if_neg Bool.false_ne_true]

/-- A number without a point is read as its digits. -/
theorem readDecimal?_whole (hwhole : ∀ c ∈ whole, c.isDigit = true) (hsome : whole ≠ [])
    (hrest : ∀ c ∈ rest.head?, c.isDigit = false ∧ c ≠ '.') :
    readDecimal? (whole ++ rest) = (readExponent? rest).map (.ofDigits whole) := by
  have hdigit : ∀ c ∈ rest.head?, c.isDigit = false := fun c hc => (hrest c hc).1
  rw [readDecimal?, takeWhile_digits hwhole hdigit, dropWhile_digits hwhole hdigit]
  dsimp only
  split
  · exact absurd rfl (hrest '.' rfl).2
  · dsimp only
    rw [List.isEmpty_eq_false_iff.mpr hsome, Bool.false_and, if_neg Bool.false_ne_true,
      List.append_nil]
    simp only [List.length_nil, Int.natCast_zero, Int.sub_zero]

/-- The letter of an exponent in the base ten. -/
theorem letter_of_mem : ∀ letter ∈ ['e', 'E'],
    letter ≠ '_' ∧ letter.isDigit = false ∧ letter ≠ '.' ∧ (letter = 'e' ∨ letter = 'E') :=
  forall_mem_pair (by decide) (by decide)

/-- Only the digits of an exponent have underscores. -/
theorem bare_exponent (hletter : letter ≠ '_') (hsign : ExponentSign sign negative)
    (digits : List Char) : bare (letter :: (sign ++ digits)) = letter :: (sign ++ bare digits) := by
  rw [bare, List.filter_cons_of_pos (by simpa using hletter), List.filter_append, bare]
  cases hsign <;> rfl

/-- The exponent of a decimal literal is read. -/
theorem exists_readExponent?
    (h : exponent = [] ∨ ∃ digits, LooseExponent ['e', 'E'] exponent digits ∧
      WellSeparated (isDigitOf 10) digits) :
    (∃ e, readExponent? (bare exponent) = some e) ∧
      ∀ c ∈ (bare exponent).head?, c.isDigit = false ∧ c ≠ '.' := by
  rcases h with rfl | ⟨digits, ⟨hletter, hsign, hdigits, hsome⟩, hseparated⟩
  · exact ⟨⟨0, rfl⟩, nofun⟩
  · obtain ⟨hunderscore, hdigit, hpoint, hmark⟩ := letter_of_mem _ hletter
    rw [bare_exponent hunderscore hsign, readExponent?, if_pos hmark,
      readInt?_eq hsign hdigits.isDigit_bare (hdigits.bare_ne_nil (by decide) hseparated hsome)]
    refine ⟨⟨_, rfl⟩, ?_⟩
    rintro c ⟨⟩
    exact ⟨hdigit, hpoint⟩

/-- A mantissa whose underscores stand between digits is read, with what follows. -/
theorem exists_readDecimal? (h : LooseMantissa 10 mantissa whole fraction)
    (hsome : whole ≠ [] ∨ fraction ≠ []) (hseparated : WellSeparated (isDigitOf 10) mantissa)
    {e : Int} (hexponent : readExponent? rest = some e)
    (hrest : ∀ c ∈ rest.head?, c.isDigit = false ∧ c ≠ '.') :
    ∃ d, readDecimal? (bare mantissa ++ rest) = some d := by
  have hbare := h.bare_ne_nil (by decide) hseparated hsome
  cases h with
  | whole hwhole =>
    rw [readDecimal?_whole hwhole.isDigit_bare (hbare.resolve_right (absurd rfl)) hrest, hexponent]
    exact ⟨_, rfl⟩
  | point hwhole hfraction =>
    rw [bare, List.filter_append, List.filter_cons_of_pos (by decide), List.append_assoc,
      List.cons_append, ← bare, ← bare, readDecimal?_point hwhole.isDigit_bare
        hfraction.isDigit_bare hbare (fun c hc => (hrest c hc).1), hexponent]
    exact ⟨_, rfl⟩

/-- A mantissa starts with no sign. -/
theorem head?_bare_mantissa (h : LooseMantissa 10 mantissa whole fraction)
    (hseparated : WellSeparated (isDigitOf 10) mantissa) (rest : List Char) :
    ∀ c ∈ (bare mantissa ++ rest).head?, c ≠ '-' ∧ c ≠ '+' := by
  have hdigit {c : Char} (hc : c.isDigit = true) : c ≠ '-' ∧ c ≠ '+' := by
    constructor
    · rintro rfl
      cases hc
    · rintro rfl
      cases hc
  have hall : ∀ c ∈ bare mantissa, c ≠ '-' ∧ c ≠ '+' := by
    cases h with
    | whole hwhole => exact fun c hc => hdigit (hwhole.isDigit_bare c hc)
    | point hwhole hfraction =>
      intro c hc
      rw [bare, List.filter_append, List.filter_cons_of_pos (by decide)] at hc
      rcases List.mem_append.mp hc with hc | hc
      · exact hdigit (hwhole.isDigit_bare c hc)
      rcases List.mem_cons.mp hc with rfl | hc
      · decide
      · exact hdigit (hfraction.isDigit_bare c hc)
  have hsome : bare mantissa ≠ [] := by
    obtain ⟨hwholeSep, -⟩ := h.wellSeparated_iff.mp hseparated
    cases h with
    | whole hwhole hwholeSome => exact hwhole.bare_ne_nil (by decide) hwholeSep hwholeSome
    | point =>
      rw [bare, List.filter_append, List.filter_cons_of_pos (by decide)]
      simp
  obtain ⟨d, more, hcons⟩ := List.exists_cons_of_ne_nil hsome
  rw [hcons] at hall ⊢
  rintro c ⟨⟩
  exact hall d List.mem_cons_self

/-- A decimal literal is read. -/
theorem exists_decodeBody_decimal {v : FloatWidth} (h : LooseDecimal w body suffix)
    (hseparated : WellSeparated (isDigitOf 10) body) : ∃ value, decodeBody v body = .ok value := by
  have hnone := hexDigits?_eq_none h.notMem_endLetters
  obtain @⟨mantissa, whole, fraction, exponent, -, hmantissa, hsome, hexponent, -, -⟩ := h
  have hparts : WellSeparated (isDigitOf 10) mantissa ∧ (exponent = [] ∨
      ∃ digits, LooseExponent ['e', 'E'] exponent digits ∧
        WellSeparated (isDigitOf 10) digits) := by
    rcases hexponent with rfl | ⟨digits, hloose⟩
    · rw [List.append_nil] at hseparated
      exact ⟨hseparated, .inl rfl⟩
    · obtain ⟨hmantissaSep, hdigits⟩ := (hloose.wellSeparated_iff mantissa).mp hseparated
      exact ⟨hmantissaSep, .inr ⟨digits, hloose, hdigits⟩⟩
  obtain ⟨⟨e, he⟩, hhead⟩ := exists_readExponent? hparts.2
  obtain ⟨d, hd⟩ := exists_readDecimal? hmantissa hsome hparts.1 he hhead
  have hsplit := splitSign_of_head? (head?_bare_mantissa hmantissa hparts.1 (bare exponent))
  have hread : readFloat? v (bare (mantissa ++ exponent)) = some (d.toFloat v) := by
    rw [bare, List.filter_append, ← bare, ← bare, readFloat?, hsplit]
    dsimp only
    rw [hd]
    rfl
  rw [isDigitOf_ten] at hseparated
  refine ⟨d.toFloat v, ?_⟩
  rw [decodeBody, hnone]
  change stripUnderscores Char.isDigit (mantissa ++ exponent) >>= _ = _
  rw [hseparated.stripUnderscores_eq, ← bare]
  dsimp only [bind, Except.bind]
  rw [hread]
  rfl

end Decimals

/-! ### Hexadecimal literals -/

section Hexadecimals

variable {w : FloatWidth} {m : Nat} {e : Int} {x letter : Char} {p : Char → Bool}
  {cs digits whole fraction exponent mantissa front back : List Char}

/-- A list is split at the first item that passes the test. -/
theorem splitAtFirst?_append {c : Char} (hfront : ∀ d ∈ front, p d = false) (hc : p c = true) :
    splitAtFirst? p (front ++ c :: back) = some (front, back) := by
  have hall : ∀ d ∈ front, (!p d) = true := by simpa using hfront
  rw [splitAtFirst?, List.dropWhile_append_of_pos hall, List.takeWhile_append_of_pos hall,
    List.dropWhile_cons_of_neg (by simp [hc]), List.takeWhile_cons_of_neg (by simp [hc]),
    List.append_nil]

/-- A list without such an item is not split. -/
theorem splitAtFirst?_eq_none (h : ∀ c ∈ cs, p c = false) : splitAtFirst? p cs = none := by
  have hall : ∀ c ∈ cs, (!p c) = true := by simpa using h
  have hdrop : cs.dropWhile (!p ·) = [] := by
    rw [← List.append_nil cs, List.dropWhile_append_of_pos hall, List.dropWhile_nil]
  rw [splitAtFirst?, hdrop]

/-- Whether a letter starts the exponent of a hexadecimal literal. -/
def startsExponent (c : Char) : Bool := c == 'p' || c == 'P'

/-- No hexadecimal digit starts the exponent. -/
theorem startsExponent_of_looseDigits (h : LooseDigits 16 cs) :
    ∀ c ∈ cs, startsExponent c = false := by
  intro c hc
  rcases h c hc with rfl | ⟨d, hd⟩
  · rfl
  · apply hd.elim
    decide

/-- No part of a hexadecimal mantissa starts the exponent. -/
theorem startsExponent_of_looseMantissa (h : LooseMantissa 16 mantissa whole fraction) :
    ∀ c ∈ mantissa, startsExponent c = false := by
  cases h with
  | whole hwhole => exact startsExponent_of_looseDigits hwhole
  | point hwhole hfraction =>
    intro c hc
    rcases List.mem_append.mp hc with hc | hc
    · exact startsExponent_of_looseDigits hwhole c hc
    rcases List.mem_cons.mp hc with rfl | hc
    · rfl
    · exact startsExponent_of_looseDigits hfraction c hc

/-- A mantissa without its underscores is split at its point. -/
theorem split_bare_mantissa (h : LooseMantissa 16 mantissa whole fraction) :
    (splitAtFirst? (· == '.') (bare mantissa)).getD (bare mantissa, []) =
      (bare whole, bare fraction) := by
  have hpoint {cs : List Char} (hcs : LooseDigits 16 cs) : ∀ c ∈ bare cs, (c == '.') = false := by
    intro c hc
    have hdigit := hcs.isDigitOf_bare (by decide) c hc
    rw [beq_eq_false_iff_ne]
    rintro rfl
    cases hdigit
  cases h with
  | whole hwhole =>
    rw [splitAtFirst?_eq_none (hpoint hwhole)]
    rfl
  | point hwhole hfraction =>
    rw [bare, List.filter_append, List.filter_cons_of_pos (by decide), ← bare, ← bare,
      splitAtFirst?_append (hpoint hwhole) rfl]
    rfl

/-- Hexadecimal digits can be added up. -/
theorem exists_addHexDigits (h : ∀ c ∈ cs, isDigitOf 16 c = true) (value : Float) :
    ∃ sum, addHexDigits value cs = .ok sum := by
  induction cs generalizing value with
  | nil => exact ⟨value, rfl⟩
  | cons c cs ih =>
    obtain ⟨d, hd⟩ := Option.isSome_iff_exists.mp (h c List.mem_cons_self)
    rw [addHexDigits, hd]
    exact ih (fun b hb => h b (List.mem_cons_of_mem _ hb)) _

/-- The number with some hexadecimal digits before and after its point and with an exponent. -/
def ofHexParts (parts : List Char × List Char) (exponent : List Char) : Except NumberFault Float :=
  if parts.1.isEmpty && parts.2.isEmpty then .error .missingDigits
  else addHexDigits 0.0 (parts.1 ++ parts.2) >>= fun value =>
    match (readInt? UInt64.size exponent).filter isExponent with
    | some e => .ok (value * powerOfTwo (e - 4 * parts.2.length))
    | none => .error .malformedExponent

/-- The steps of the decoder: it finds the exponent, removes the underscores on either side, and
takes the mantissa apart at its point. -/
theorem decodeHex_eq (digits : List Char) :
    decodeHex digits =
      match splitAtFirst? startsExponent digits with
      | none => .error .missingExponent
      | some (mantissa, exponent) =>
        stripUnderscores (isDigitOf 16) mantissa >>= fun kept =>
          stripUnderscores Char.isDigit exponent >>=
            ofHexParts ((splitAtFirst? (· == '.') kept).getD (kept, [])) := by
  have hletters : startsExponent = fun c => c == 'p' || c == 'P' := rfl
  rw [decodeHex, hletters]
  cases splitAtFirst? (fun c => c == 'p' || c == 'P') digits with
  | none => rfl
  | some parts =>
    obtain ⟨mantissa, exponent⟩ := parts
    dsimp only
    cases stripUnderscores (isDigitOf 16) mantissa with
    | error => rfl
    | ok kept =>
      cases stripUnderscores Char.isDigit exponent with
      | error => rfl
      | ok exponent =>
        dsimp only [bind, Except.bind]
        rw [ofHexParts]
        generalize (splitAtFirst? (· == '.') kept).getD (kept, []) = parts
        cases parts.1.isEmpty && parts.2.isEmpty with
        | true => rfl
        | false =>
          cases addHexDigits 0.0 (parts.1 ++ parts.2) with
          | error => rfl
          | ok value => cases (readInt? UInt64.size exponent).filter isExponent <;> rfl

/-- A number in the base sixteen is decoded part by part, on either side of its letter. -/
theorem decodeHex_append (hmantissa : ∀ c ∈ mantissa, startsExponent c = false)
    (hletter : startsExponent letter = true) :
    decodeHex (mantissa ++ letter :: exponent) =
      stripUnderscores (isDigitOf 16) mantissa >>= fun kept =>
        stripUnderscores Char.isDigit exponent >>=
          ofHexParts ((splitAtFirst? (· == '.') kept).getD (kept, [])) := by
  rw [decodeHex_eq, splitAtFirst?_append hmantissa hletter]

/-- A hexadecimal literal is accepted if its parts are, and if its exponent, which is read up to
a limit, is a 64-bit number. -/
theorem decodeHex_of_wellSeparated {sign : List Char} {negative : Bool}
    (hmantissa : LooseMantissa 16 mantissa whole fraction) (hsome : whole ≠ [] ∨ fraction ≠ [])
    (hseparated : WellSeparated (isDigitOf 16) mantissa) (hletter : startsExponent letter = true)
    (hsign : ExponentSign sign negative) (hdigits : IsDigits 10 digits) :
    ∃ value, decodeHex (mantissa ++ letter :: (sign ++ digits)) =
      if isExponent (if negative then -(ofDigitsUpTo UInt64.size (bare digits) : Int)
        else ofDigitsUpTo UInt64.size (bare digits))
      then .ok value else .error .malformedExponent := by
  have hsixteen : (16 : Nat) ≤ 16 := Nat.le_refl 16
  obtain ⟨hdigitsSome, hdigitsLoose, hdigitsSep⟩ := (isDigits_iff (by decide)).mp hdigits
  have hexponentSep : WellSeparated Char.isDigit (sign ++ digits) := by
    rw [← isDigitOf_ten]
    exact (hsign.wellSeparated_iff digits).mpr hdigitsSep
  have hexponent : (sign ++ digits).filter (· != '_') = sign ++ bare digits := by
    rw [List.filter_append, bare]
    cases hsign <;> rfl
  have hempty := isEmpty_and_isEmpty (hmantissa.bare_ne_nil hsixteen hseparated hsome)
  obtain ⟨hwhole, hfraction⟩ := hmantissa.loose
  have hall : ∀ c ∈ bare whole ++ bare fraction, isDigitOf 16 c = true := by
    intro c hc
    rcases List.mem_append.mp hc with hc | hc
    · exact hwhole.isDigitOf_bare hsixteen c hc
    · exact hfraction.isDigitOf_bare hsixteen c hc
  obtain ⟨sum, hsum⟩ := exists_addHexDigits hall 0.0
  rw [decodeHex_append (startsExponent_of_looseMantissa hmantissa) hletter,
    hseparated.stripUnderscores_eq, hexponentSep.stripUnderscores_eq, hexponent]
  change ∃ value, ofHexParts ((splitAtFirst? (· == '.') (bare mantissa)).getD (bare mantissa, []))
    (sign ++ bare digits) = _
  rw [split_bare_mantissa hmantissa, ofHexParts, hempty, if_neg Bool.false_ne_true, hsum,
    readInt?_eq hsign hdigitsLoose.isDigit_bare (hdigits.bare_ne_nil (by decide)),
    Option.filter_some]
  generalize (if negative = true then -(ofDigitsUpTo UInt64.size (bare digits) : Int)
    else ofDigitsUpTo UInt64.size (bare digits)) = n
  cases isExponent n with
  | true => exact ⟨_, rfl⟩
  | false => exact ⟨0.0, rfl⟩

/-- If a loose text is accepted, its underscores stand between digits and there is a digit in its
mantissa. -/
theorem wellSeparated_of_decodeHex {value : Float}
    (hmantissa : LooseMantissa 16 mantissa whole fraction) (hletter : startsExponent letter = true)
    (h : decodeHex (mantissa ++ letter :: exponent) = .ok value) :
    WellSeparated (isDigitOf 16) mantissa ∧ WellSeparated Char.isDigit exponent ∧
      (whole ≠ [] ∨ fraction ≠ []) := by
  rw [decodeHex_append (startsExponent_of_looseMantissa hmantissa) hletter] at h
  cases hkept : stripUnderscores (isDigitOf 16) mantissa with
  | error =>
    rw [hkept] at h
    cases h
  | ok kept =>
    cases hexponent : stripUnderscores Char.isDigit exponent with
    | error =>
      rw [hkept, hexponent] at h
      cases h
    | ok power =>
      refine ⟨⟨kept, hkept⟩, ⟨power, hexponent⟩, ?_⟩
      obtain rfl : kept = bare mantissa := removeUnderscores_eq_ok hkept
      rw [hkept, hexponent] at h
      change ofHexParts ((splitAtFirst? (· == '.') (bare mantissa)).getD (bare mantissa, []))
        power = _ at h
      rw [split_bare_mantissa hmantissa] at h
      cases whole with
      | cons c whole => exact .inl (List.cons_ne_nil c whole)
      | nil =>
        cases fraction with
        | cons c fraction => exact .inr (List.cons_ne_nil c fraction)
        | nil => cases h

end Hexadecimals

/-! ### Exponents up to a limit -/

section Limits

variable {limit m d : Nat} {c : Char} {cs : List Char}

/-- The code of a decimal digit tells its value. -/
theorem toNat_sub_of_isDigit (h : IsDigit 10 d c) : c.toNat - '0'.toNat = d := by
  have hvalues : ∀ k < 10, (Nat.digitChar k).toNat - '0'.toNat = k ∧
      (Nat.digitChar k).toUpper.toNat - '0'.toNat = k := by decide
  obtain ⟨hd, rfl | rfl⟩ := h
  · exact (hvalues d hd).1
  · exact (hvalues d hd).2

/-- One more digit counts as long as the limit is not exceeded. -/
theorem ofDigitsUpTo_append_singleton (cs : List Char) (h : IsDigit 10 d c) :
    ofDigitsUpTo limit (cs ++ [c]) =
      if ofDigitsUpTo limit cs ≤ limit then 10 * ofDigitsUpTo limit cs + d
      else ofDigitsUpTo limit cs := by
  rw [ofDigitsUpTo, List.foldl_append, List.foldl_cons, List.foldl_nil, toNat_sub_of_isDigit h,
    ofDigitsUpTo]

/-- Digits are added up until the sum exceeds the limit, and then the number does, too. -/
theorem ofDigitsUpTo_bare (h : Digits 10 cs m) :
    ofDigitsUpTo limit (bare cs) = m ∨
      limit < ofDigitsUpTo limit (bare cs) ∧ limit < m := by
  induction h with
  | @digit c d hd =>
    have hbare : bare [c] = [] ++ [c] := by
      rw [bare, List.filter_cons_of_pos (by simpa using hd.ne_underscore (by decide))]
      rfl
    rw [hbare, ofDigitsUpTo_append_singleton [] hd]
    left
    change (if 0 ≤ limit then 10 * 0 + d else 0) = d
    rw [if_pos (Nat.zero_le limit)]
    omega
  | @next cs m d c _ k hd ih =>
    have hbare : bare (cs ++ List.replicate k '_' ++ [c]) = bare cs ++ [c] := by
      have hne := hd.ne_underscore (by decide)
      simp [bare, hne]
    rw [hbare, ofDigitsUpTo_append_singleton _ hd]
    split
    · rcases ih with ih | ih
      · left
        omega
      · omega
    · right
      omega

/-- An exponent is a number of 64 bits with a sign. -/
theorem isExponent_iff (n : Int) : isExponent n = true ↔ -2 ^ 63 ≤ n ∧ n < 2 ^ 63 := by
  have hmin : Int64.minValue.toInt = -2 ^ 63 := by decide
  have hmax : Int64.maxValue.toInt = 2 ^ 63 - 1 := by decide
  rw [isExponent, hmin, hmax, Bool.and_eq_true, decide_eq_true_iff, decide_eq_true_iff]
  omega

/-- The limit up to which exponents are read lies beyond the exponents that may be written. -/
theorem isExponent_ofDigitsUpTo (h : Digits 10 cs m) (negative : Bool) :
    isExponent (if negative then -(ofDigitsUpTo UInt64.size (bare cs) : Int)
        else ofDigitsUpTo UInt64.size (bare cs)) =
      isExponent (if negative then -(m : Int) else m) := by
  have hsize : UInt64.size = 2 ^ 64 := rfl
  have hread := @ofDigitsUpTo_bare UInt64.size m cs h
  generalize ofDigitsUpTo UInt64.size (bare cs) = n at hread
  rw [hsize] at hread
  rcases hread with rfl | hread
  · rfl
  · rw [Bool.eq_iff_iff, isExponent_iff, isExponent_iff]
    cases negative with
    | true =>
      simp only [if_true]
      omega
    | false =>
      simp only [Bool.false_eq_true, if_false]
      omega

end Limits

/-! ### Values and faults -/

section Values

variable {w : FloatWidth} {x : Char} {e : Int}
  {text body suffix mantissa whole fraction exponent digits : List Char}

/-- Once a number has been read, only its range is checked. -/
theorem decode_of_decodeBody {value : Float} (hdrop : dropSuffix text = body)
    (hbody : decodeBody w body = .ok value) :
    (∃ v, Floating.decode w text = .ok v) ∨ Floating.decode w text = .error .tooLarge ∨
      Floating.decode w text = .error .tooSmall := by
  rw [Floating.decode, hdrop, hbody]
  dsimp only [bind, Except.bind]
  split
  · exact .inr (.inl rfl)
  · split
    · exact .inr (.inr rfl)
    · exact .inl ⟨_, rfl⟩

/-- A fault before the suffix is the fault of the literal. -/
theorem decode_of_decodeBody_error {fault : NumberFault} (hdrop : dropSuffix text = body)
    (hbody : decodeBody w body = .error fault) : Floating.decode w text = .error fault := by
  rw [Floating.decode, hdrop, hbody]
  rfl

/-- A literal with a value has one before its suffix. -/
theorem exists_decodeBody_of_decode {value : Float} (hdrop : dropSuffix text = body)
    (h : Floating.decode w text = .ok value) : ∃ v, decodeBody w body = .ok v := by
  cases hbody : decodeBody w body with
  | error fault =>
    rw [decode_of_decodeBody_error hdrop hbody] at h
    cases h
  | ok v => exact ⟨v, rfl⟩

/-- The suffix of a decimal literal is dropped, and nothing else. -/
theorem dropSuffix_looseDecimal (h : LooseDecimal w body suffix) :
    dropSuffix (body ++ suffix) = body := by
  have hletters := h.notMem_endLetters
  obtain ⟨hmantissa, -, -, hsuffix, -⟩ := h
  have hdrop := @dropSuffix_append w suffix [] _ hsuffix
    (List.append_ne_nil_of_left_ne_nil hmantissa.ne_nil _) hletters
  rwa [List.nil_append] at hdrop

/-- The suffix of a hexadecimal literal is dropped, and nothing else. -/
theorem dropSuffix_hex (hexponent : LooseExponent ['p', 'P'] exponent digits)
    (hsuffix : w.Suffix suffix) (front : List Char) :
    dropSuffix (front ++ exponent ++ suffix) = front ++ exponent :=
  dropSuffix_append hsuffix hexponent.ne_nil
    (hexponent.notMem_endLetters (forall_mem_pair (by decide) (by decide)))

/-- The mark of the base sixteen is found in either case. -/
theorem hexDigits?_marked (hx : x = 'x' ∨ x = 'X') (cs : List Char) :
    hexDigits? ('0' :: x :: cs) = some cs := by
  rcases hx with rfl | rfl <;> rfl

/-- What is marked so is decoded in the base sixteen. -/
theorem decodeBody_hex (hx : x = 'x' ∨ x = 'X') (cs : List Char) :
    decodeBody w ('0' :: x :: cs) = decodeHex cs := by
  rw [decodeBody, hexDigits?_marked hx]

/-- The letter of a hexadecimal exponent may stand in either case. -/
theorem startsExponent_of_mem : ∀ letter ∈ ['p', 'P'], startsExponent letter = true :=
  forall_mem_pair rfl rfl

/-- What the automaton reads as a literal in the base ten is one if it is accepted. -/
theorem decimalFloating_of_decode {value : Float} (h : LooseDecimal w body suffix)
    (hdecode : Floating.decode w (body ++ suffix) = .ok value) :
    DecimalFloating w (body ++ suffix) := by
  obtain ⟨v, hv⟩ := exists_decodeBody_of_decode (dropSuffix_looseDecimal h) hdecode
  refine decimalFloating_iff.mpr ⟨body, suffix, rfl, h, ?_⟩
  rw [isDigitOf_ten]
  rw [decodeBody, hexDigits?_eq_none h.notMem_endLetters] at hv
  cases hstrip : stripUnderscores Char.isDigit body with
  | error fault =>
    change stripUnderscores Char.isDigit body >>= _ = _ at hv
    rw [hstrip] at hv
    cases hv
  | ok out => exact ⟨out, hstrip⟩

/-- What the automaton reads as a literal in the base sixteen is one if it is accepted. -/
theorem hexFloating_of_decode {value : Float} (hx : x = 'x' ∨ x = 'X')
    (hmantissa : LooseMantissa 16 mantissa whole fraction)
    (hexponent : LooseExponent ['p', 'P'] exponent digits) (hsuffix : w.Suffix suffix)
    (hdecode : Floating.decode w ('0' :: x :: mantissa ++ exponent ++ suffix) = .ok value) :
    ∃ e, HexFloating w ('0' :: x :: mantissa ++ exponent ++ suffix) e := by
  obtain ⟨v, hv⟩ := exists_decodeBody_of_decode (dropSuffix_hex hexponent hsuffix _) hdecode
  rw [List.cons_append, List.cons_append, decodeBody_hex hx] at hv
  obtain ⟨hletter, hsign, hdigits, hsome⟩ := id hexponent
  obtain ⟨hmantissaSep, hexponentSep, hdigit⟩ :=
    wellSeparated_of_decodeHex hmantissa (startsExponent_of_mem _ hletter) hv
  rw [← isDigitOf_ten, hsign.wellSeparated_iff] at hexponentSep
  obtain ⟨e, he⟩ := hexponent.exists_exponent hexponentSep
  exact ⟨e, hexFloating_iff.mpr
    ⟨x, mantissa, whole, fraction, _, suffix, rfl, hx, hmantissa, hdigit, hmantissaSep, he,
      hsuffix⟩⟩

/-- A literal in the base ten is out of range, or it has a value. -/
theorem decode_decimalFloating (h : DecimalFloating w text) :
    (∃ v, Floating.decode w text = .ok v) ∨ Floating.decode w text = .error .tooLarge ∨
      Floating.decode w text = .error .tooSmall := by
  obtain ⟨body, suffix, rfl, hloose, hseparated⟩ := decimalFloating_iff.mp h
  obtain ⟨value, hvalue⟩ := exists_decodeBody_decimal hloose hseparated
  exact decode_of_decodeBody (dropSuffix_looseDecimal hloose) hvalue

/-- A literal in the base sixteen may also have an exponent that is too long. -/
theorem decode_hexFloating (h : HexFloating w text e) :
    (∃ v, Floating.decode w text = .ok v) ∨ Floating.decode w text = .error .tooLarge ∨
      Floating.decode w text = .error .tooSmall ∨
        Floating.decode w text = .error .malformedExponent ∧ ¬ (-2 ^ 63 ≤ e ∧ e < 2 ^ 63) := by
  obtain ⟨x, mantissa, whole, fraction, exponent, suffix, rfl, hx, hmantissa, hdigit, hseparated,
    hexponent, hsuffix⟩ := hexFloating_iff.mp h
  obtain ⟨digits, hloose, -⟩ := hexponent.exists_loose
  have hdrop := dropSuffix_hex hloose hsuffix ('0' :: x :: mantissa)
  obtain @⟨letter, sign, digits, negative, m, hletter, hsign, hdigits⟩ := hexponent
  obtain ⟨value, hvalue⟩ := decodeHex_of_wellSeparated hmantissa hdigit hseparated
    (startsExponent_of_mem _ hletter) hsign ⟨m, hdigits⟩
  rw [isExponent_ofDigitsUpTo hdigits negative, ← decodeBody_hex (w := w) hx] at hvalue
  rw [← isExponent_iff]
  cases hfits : isExponent (if negative then -(m : Int) else m) with
  | true =>
    rw [hfits, if_pos rfl] at hvalue
    rcases decode_of_decodeBody hdrop hvalue with h | h | h
    · exact .inl h
    · exact .inr (.inl h)
    · exact .inr (.inr (.inl h))
  | false =>
    rw [hfits, if_neg Bool.false_ne_true] at hvalue
    exact .inr (.inr (.inr ⟨decode_of_decodeBody_error hdrop hvalue, Bool.false_ne_true⟩))

end Values

end Floating

end JavaSyntax
