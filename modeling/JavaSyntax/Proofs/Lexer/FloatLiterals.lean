import JavaSyntax.Proofs.Lexer.Underscores

/-!
# Floating-point literals

What a floating-point literal is, without the lexer: a mantissa with digits before or after its
point, an exponent and a suffix. In the base ten the exponent may be absent if there is a point or
a suffix; in the base sixteen it is always there, and it is a power of two. If underscores are
allowed everywhere next to digits, the literals are those texts whose underscores stand between
digits, and this is what the decoder looks for.
-/

namespace JavaSyntax

/-! ### What floating-point literals are -/

/-- A part that may be absent. -/
def Optionally (P : List Char → Prop) (cs : List Char) : Prop := cs = [] ∨ P cs

/-- A sign, and whether it is a minus sign. -/
inductive ExponentSign : List Char → Bool → Prop
  | absent : ExponentSign [] false
  | plus : ExponentSign ['+'] false
  | minus : ExponentSign ['-'] true

/-- An exponent and the number that it denotes: a letter, a sign and decimal digits. -/
inductive Exponent (letters : List Char) : List Char → Int → Prop
  | intro {letter : Char} {sign digits : List Char} {negative : Bool} {m : Nat}
      (hletter : letter ∈ letters) (hsign : ExponentSign sign negative)
      (hdigits : Digits 10 digits m) :
      Exponent letters (letter :: (sign ++ digits)) (if negative then -(m : Int) else m)

/-- An exponent that counts powers of ten. -/
def DecimalExponent (cs : List Char) : Prop := ∃ e, Exponent ['e', 'E'] cs e

namespace FloatWidth

/-- The kind of the literals of a type. -/
def kind : FloatWidth → TokenKind
  | single => .floatLiteral
  | double => .doubleLiteral

/-- What stands at the end of a literal. -/
inductive Suffix : FloatWidth → List Char → Prop
  | absent : Suffix .double []
  | single {c : Char} (hc : c = 'f' ∨ c = 'F') : Suffix .single [c]
  | double {c : Char} (hc : c = 'd' ∨ c = 'D') : Suffix .double [c]

end FloatWidth

/-- The floating-point literals of a type in the base ten. -/
inductive DecimalFloating (w : FloatWidth) : List Char → Prop
  | wholeFirst {whole fraction exponent suffix : List Char} (hwhole : IsDigits 10 whole)
      (hfraction : Optionally (IsDigits 10) fraction)
      (hexponent : Optionally DecimalExponent exponent) (hsuffix : w.Suffix suffix) :
      DecimalFloating w (whole ++ '.' :: fraction ++ exponent ++ suffix)
  | pointFirst {fraction exponent suffix : List Char} (hfraction : IsDigits 10 fraction)
      (hexponent : Optionally DecimalExponent exponent) (hsuffix : w.Suffix suffix) :
      DecimalFloating w ('.' :: fraction ++ exponent ++ suffix)
  | withExponent {whole exponent suffix : List Char} (hwhole : IsDigits 10 whole)
      (hexponent : DecimalExponent exponent) (hsuffix : w.Suffix suffix) :
      DecimalFloating w (whole ++ exponent ++ suffix)
  | withSuffix {whole exponent suffix : List Char} (hwhole : IsDigits 10 whole)
      (hexponent : Optionally DecimalExponent exponent) (hsuffix : w.Suffix suffix)
      (hsome : suffix ≠ []) : DecimalFloating w (whole ++ exponent ++ suffix)

/-- The floating-point literals of a type in the base sixteen, and their exponents. -/
inductive HexFloating (w : FloatWidth) : List Char → Int → Prop
  | numeral {x : Char} {whole point exponent suffix : List Char} {e : Int} (hx : x = 'x' ∨ x = 'X')
      (hwhole : IsDigits 16 whole) (hpoint : point = [] ∨ point = ['.'])
      (hexponent : Exponent ['p', 'P'] exponent e) (hsuffix : w.Suffix suffix) :
      HexFloating w ('0' :: x :: (whole ++ point) ++ exponent ++ suffix) e
  | fraction {x : Char} {whole fraction exponent suffix : List Char} {e : Int}
      (hx : x = 'x' ∨ x = 'X') (hwhole : Optionally (IsDigits 16) whole)
      (hfraction : IsDigits 16 fraction) (hexponent : Exponent ['p', 'P'] exponent e)
      (hsuffix : w.Suffix suffix) :
      HexFloating w ('0' :: x :: (whole ++ '.' :: fraction) ++ exponent ++ suffix) e

/-- The floating-point literals of a type. -/
def FloatingLiteral (w : FloatWidth) (text : List Char) : Prop :=
  DecimalFloating w text ∨ ∃ e, HexFloating w text e

/-! ### Texts with underscores everywhere -/

/-- Digits and underscores with at most one point among them. The second list is what stands
before the point, and the third what stands behind it. -/
inductive LooseMantissa (base : Nat) : List Char → List Char → List Char → Prop
  | whole {whole : List Char} (hwhole : LooseDigits base whole) (hsome : whole ≠ []) :
      LooseMantissa base whole whole []
  | point {whole fraction : List Char} (hwhole : LooseDigits base whole)
      (hfraction : LooseDigits base fraction) :
      LooseMantissa base (whole ++ '.' :: fraction) whole fraction

/-- An exponent with underscores anywhere between and behind its digits. -/
inductive LooseExponent (letters : List Char) : List Char → List Char → Prop
  | intro {letter : Char} {sign digits : List Char} {negative : Bool} (hletter : letter ∈ letters)
      (hsign : ExponentSign sign negative) (hdigits : LooseDigits 10 digits)
      (hsome : digits ≠ []) : LooseExponent letters (letter :: (sign ++ digits)) digits

/-- What the automaton reads as a literal in the base ten, before its suffix, and the suffix. -/
inductive LooseDecimal (w : FloatWidth) : List Char → List Char → Prop
  | intro {mantissa whole fraction exponent suffix : List Char}
      (hmantissa : LooseMantissa 10 mantissa whole fraction) (hsome : whole ≠ [] ∨ fraction ≠ [])
      (hexponent : exponent = [] ∨ ∃ digits, LooseExponent ['e', 'E'] exponent digits)
      (hsuffix : w.Suffix suffix) (hfloating : mantissa ≠ whole ∨ exponent ≠ [] ∨ suffix ≠ []) :
      LooseDecimal w (mantissa ++ exponent) suffix

/-! ### Parts whose underscores stand between digits -/

section Parts

variable {base : Nat} {w : FloatWidth} {letters cs mantissa whole fraction exponent digits suffix
  text : List Char} {e : Int}

/-- Digits with underscores between them are digits whose underscores stand between digits, and not
none. -/
theorem isDigits_iff (hbase : base ≤ 16) :
    IsDigits base cs ↔ cs ≠ [] ∧ LooseDigits base cs ∧ WellSeparated (isDigitOf base) cs := by
  constructor
  · intro h
    obtain ⟨m, hm⟩ := id h
    exact ⟨h.ne_nil, h.loose, hm.wellSeparated hbase⟩
  · rintro ⟨hsome, hloose, hseparated⟩
    exact hloose.isDigits hbase hsome hseparated

/-- If digits may be absent, only their underscores are left to look at. -/
theorem optionally_isDigits_iff (hbase : base ≤ 16) :
    Optionally (IsDigits base) cs ↔ LooseDigits base cs ∧ WellSeparated (isDigitOf base) cs := by
  rw [Optionally, isDigits_iff hbase]
  constructor
  · rintro (rfl | h)
    · exact ⟨looseDigits_nil, wellSeparated_nil⟩
    · exact h.2
  · intro h
    by_cases hnil : cs = []
    · exact .inl hnil
    · exact .inr ⟨hnil, h⟩

/-- A point parts the digits of a mantissa. -/
theorem LooseMantissa.wellSeparated_iff (h : LooseMantissa base mantissa whole fraction) :
    WellSeparated (isDigitOf base) mantissa ↔
      WellSeparated (isDigitOf base) whole ∧ WellSeparated (isDigitOf base) fraction := by
  cases h with
  | whole => exact (and_iff_left wellSeparated_nil).symm
  | point =>
    have hpoint : isDigitOf base '.' = false := by
      rw [isDigitOf, Option.isSome_eq_false_iff, Option.isNone_iff_eq_none]
      rfl
    exact wellSeparated_append_cons_iff hpoint (by decide)

/-- A sign before digits is no place for an underscore. -/
theorem ExponentSign.wellSeparated_iff {sign : List Char} {negative : Bool}
    (h : ExponentSign sign negative) (digits : List Char) :
    WellSeparated (isDigitOf 10) (sign ++ digits) ↔ WellSeparated (isDigitOf 10) digits := by
  cases h with
  | absent => exact Iff.rfl
  | plus => exact wellSeparated_cons_iff (by decide) (by decide)
  | minus => exact wellSeparated_cons_iff (by decide) (by decide)

/-- The letter of an exponent and its sign part its digits from those of the mantissa. -/
theorem LooseExponent.wellSeparated_iff (h : LooseExponent ['e', 'E'] exponent digits)
    (mantissa : List Char) :
    WellSeparated (isDigitOf 10) (mantissa ++ exponent) ↔
      WellSeparated (isDigitOf 10) mantissa ∧ WellSeparated (isDigitOf 10) digits := by
  obtain ⟨hletter, hsign, -, -⟩ := h
  rw [wellSeparated_append_cons_iff, hsign.wellSeparated_iff]
  all_goals
    revert hletter
    simp only [List.mem_cons, List.not_mem_nil, or_false]
    rintro (rfl | rfl) <;> decide

/-- An exponent starts with its letter. -/
theorem Exponent.ne_nil (h : Exponent letters exponent e) : exponent ≠ [] := by
  cases h
  exact List.cons_ne_nil _ _

/-- The underscores of an exponent stand between its digits. -/
theorem Exponent.exists_loose (h : Exponent letters exponent e) :
    ∃ digits, LooseExponent letters exponent digits ∧ WellSeparated (isDigitOf 10) digits := by
  obtain ⟨hletter, hsign, hdigits⟩ := h
  obtain ⟨hsome, hloose, hseparated⟩ := (isDigits_iff (by decide)).mp ⟨_, hdigits⟩
  exact ⟨_, .intro hletter hsign hloose hsome, hseparated⟩

/-- An exponent whose underscores stand between digits is an exponent. -/
theorem LooseExponent.exists_exponent (h : LooseExponent letters exponent digits)
    (hseparated : WellSeparated (isDigitOf 10) digits) : ∃ e, Exponent letters exponent e := by
  obtain ⟨hletter, hsign, hloose, hsome⟩ := h
  obtain ⟨m, hm⟩ := hloose.isDigits (by decide) hsome hseparated
  exact ⟨_, .intro hletter hsign hm⟩

/-- An exponent in the base ten that may be absent, next to a mantissa. -/
theorem optionally_decimalExponent_iff (mantissa : List Char) :
    (Optionally DecimalExponent exponent ∧ WellSeparated (isDigitOf 10) mantissa) ↔
      (exponent = [] ∨ ∃ digits, LooseExponent ['e', 'E'] exponent digits) ∧
        WellSeparated (isDigitOf 10) (mantissa ++ exponent) := by
  constructor
  · rintro ⟨rfl | ⟨e, h⟩, hmantissa⟩
    · exact ⟨.inl rfl, by rwa [List.append_nil]⟩
    · obtain ⟨digits, hloose, hdigits⟩ := h.exists_loose
      exact ⟨.inr ⟨digits, hloose⟩, (hloose.wellSeparated_iff mantissa).mpr ⟨hmantissa, hdigits⟩⟩
  · rintro ⟨rfl | ⟨digits, hloose⟩, hall⟩
    · exact ⟨.inl rfl, by rwa [List.append_nil] at hall⟩
    · obtain ⟨hmantissa, hdigits⟩ := (hloose.wellSeparated_iff mantissa).mp hall
      exact ⟨.inr (hloose.exists_exponent hdigits), hmantissa⟩

/-- The literals in the base ten are those of the loose texts whose underscores stand between
digits. -/
theorem decimalFloating_iff :
    DecimalFloating w text ↔ ∃ body suffix, text = body ++ suffix ∧ LooseDecimal w body suffix ∧
      WellSeparated (isDigitOf 10) body := by
  have hten : (10 : Nat) ≤ 16 := by decide
  constructor
  · -- every alternative is a mantissa with what is demanded behind it
    have hintro {mantissa whole fraction exponent suffix : List Char}
        (hmantissa : LooseMantissa 10 mantissa whole fraction)
        (hsome : whole ≠ [] ∨ fraction ≠ []) (hseparated : WellSeparated (isDigitOf 10) mantissa)
        (hexponent : Optionally DecimalExponent exponent) (hsuffix : w.Suffix suffix)
        (hfloating : mantissa ≠ whole ∨ exponent ≠ [] ∨ suffix ≠ []) :
        ∃ body suffix', mantissa ++ exponent ++ suffix = body ++ suffix' ∧
          LooseDecimal w body suffix' ∧ WellSeparated (isDigitOf 10) body := by
      obtain ⟨hloose, hall⟩ := (optionally_decimalExponent_iff mantissa).mp ⟨hexponent, hseparated⟩
      exact ⟨_, suffix, rfl, .intro hmantissa hsome hloose hsuffix hfloating, hall⟩
    rintro (⟨hwhole, hfraction, hexponent, hsuffix⟩ | ⟨hfraction, hexponent, hsuffix⟩ |
      ⟨hwhole, hexponent, hsuffix⟩ | ⟨hwhole, hexponent, hsuffix, hsome⟩)
    · obtain ⟨hwholeSome, hwholeLoose, hwholeSep⟩ := (isDigits_iff hten).mp hwhole
      obtain ⟨hfractionLoose, hfractionSep⟩ := (optionally_isDigits_iff hten).mp hfraction
      have hmantissa := LooseMantissa.point hwholeLoose hfractionLoose
      exact hintro hmantissa (.inl hwholeSome)
        (hmantissa.wellSeparated_iff.mpr ⟨hwholeSep, hfractionSep⟩) hexponent hsuffix
        (.inl (by simp))
    · obtain ⟨hfractionSome, hfractionLoose, hfractionSep⟩ := (isDigits_iff hten).mp hfraction
      have hmantissa := LooseMantissa.point (@looseDigits_nil 10) hfractionLoose
      exact hintro hmantissa (.inr hfractionSome)
        (hmantissa.wellSeparated_iff.mpr ⟨wellSeparated_nil, hfractionSep⟩) hexponent
        hsuffix (.inl (by simp))
    · obtain ⟨hwholeSome, hwholeLoose, hwholeSep⟩ := (isDigits_iff hten).mp hwhole
      obtain ⟨e, hexponentValue⟩ := id hexponent
      exact hintro (.whole hwholeLoose hwholeSome) (.inl hwholeSome) hwholeSep (.inr hexponent)
        hsuffix (.inr (.inl hexponentValue.ne_nil))
    · obtain ⟨hwholeSome, hwholeLoose, hwholeSep⟩ := (isDigits_iff hten).mp hwhole
      exact hintro (.whole hwholeLoose hwholeSome) (.inl hwholeSome) hwholeSep hexponent hsuffix
        (.inr (.inr hsome))
  · rintro ⟨body, suffix, rfl, ⟨hmantissa, hsome, hexponent, hsuffix, hfloating⟩, hbody⟩
    obtain ⟨hexponent, hmantissaSep⟩ := (optionally_decimalExponent_iff _).mpr ⟨hexponent, hbody⟩
    obtain ⟨hwholeSep, hfractionSep⟩ := hmantissa.wellSeparated_iff.mp hmantissaSep
    cases hmantissa with
    | whole hwhole hwholeSome =>
      have hdigits := hwhole.isDigits hten hwholeSome hwholeSep
      rcases hfloating with hfloating | hfloating | hfloating
      · exact absurd rfl hfloating
      · exact .withExponent hdigits (hexponent.resolve_left hfloating) hsuffix
      · exact .withSuffix hdigits hexponent hsuffix hfloating
    | point hwhole hfraction =>
      rcases (optionally_isDigits_iff hten).mpr ⟨hwhole, hwholeSep⟩ with rfl | hdigits
      · exact .pointFirst (hfraction.isDigits hten (hsome.resolve_left (absurd rfl)) hfractionSep)
          hexponent hsuffix
      · exact .wholeFirst hdigits ((optionally_isDigits_iff hten).mpr ⟨hfraction, hfractionSep⟩)
          hexponent hsuffix

/-- The literals in the base sixteen have a mantissa with a digit. -/
theorem hexFloating_iff :
    HexFloating w text e ↔ ∃ x mantissa whole fraction exponent suffix,
      text = '0' :: x :: mantissa ++ exponent ++ suffix ∧ (x = 'x' ∨ x = 'X') ∧
        LooseMantissa 16 mantissa whole fraction ∧ (whole ≠ [] ∨ fraction ≠ []) ∧
        WellSeparated (isDigitOf 16) mantissa ∧ Exponent ['p', 'P'] exponent e ∧
        w.Suffix suffix := by
  have hsixteen : (16 : Nat) ≤ 16 := Nat.le_refl 16
  constructor
  · rintro (⟨hx, hwhole, rfl | rfl, hexponent, hsuffix⟩ |
      ⟨hx, hwhole, hfraction, hexponent, hsuffix⟩)
    · obtain ⟨hsome, hloose, hsep⟩ := (isDigits_iff hsixteen).mp hwhole
      rw [List.append_nil]
      exact ⟨_, _, _, [], _, _, rfl, hx, .whole hloose hsome, .inl hsome, hsep, hexponent, hsuffix⟩
    · obtain ⟨hsome, hloose, hsep⟩ := (isDigits_iff hsixteen).mp hwhole
      have hmantissa := LooseMantissa.point hloose looseDigits_nil
      exact ⟨_, _, _, [], _, _, rfl, hx, hmantissa, .inl hsome,
        hmantissa.wellSeparated_iff.mpr ⟨hsep, wellSeparated_nil⟩, hexponent, hsuffix⟩
    · obtain ⟨hwholeLoose, hwholeSep⟩ := (optionally_isDigits_iff hsixteen).mp hwhole
      obtain ⟨hsome, hloose, hsep⟩ := (isDigits_iff hsixteen).mp hfraction
      have hmantissa := LooseMantissa.point hwholeLoose hloose
      exact ⟨_, _, _, _, _, _, rfl, hx, hmantissa, .inr hsome,
        hmantissa.wellSeparated_iff.mpr ⟨hwholeSep, hsep⟩, hexponent, hsuffix⟩
  · rintro ⟨x, mantissa, whole, fraction, exponent, suffix, rfl, hx, hmantissa, hsome, hsep,
      hexponent, hsuffix⟩
    obtain ⟨hwholeSep, hfractionSep⟩ := hmantissa.wellSeparated_iff.mp hsep
    cases hmantissa with
    | whole hwhole hwholeSome =>
      have hdigits := hwhole.isDigits hsixteen hwholeSome hwholeSep
      have hliteral := HexFloating.numeral hx hdigits (.inl rfl) hexponent hsuffix
      rwa [List.append_nil] at hliteral
    | point hwhole hfraction =>
      rcases (optionally_isDigits_iff hsixteen).mpr ⟨hfraction, hfractionSep⟩ with rfl | hdigits
      · exact .numeral hx (hwhole.isDigits hsixteen (hsome.resolve_right (absurd rfl)) hwholeSep)
          (.inr rfl) hexponent hsuffix
      · exact .fraction hx ((optionally_isDigits_iff hsixteen).mpr ⟨hwhole, hwholeSep⟩) hdigits
          hexponent hsuffix

end Parts

end JavaSyntax
