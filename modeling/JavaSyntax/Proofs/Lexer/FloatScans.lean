import JavaSyntax.Proofs.Lexer.FloatValues
import JavaSyntax.Proofs.Lexer.Spellings

/-!
# Floating-point literals that are read

From a digit or a point the automaton goes through the parts of a floating-point literal. It does
not see which underscores stand between digits, and it does not see whether there is a digit next
to the point of a hexadecimal literal, but the decoder does. Together they accept exactly the
floating-point literals that are in range.
-/

namespace JavaSyntax

/-! ### Characters of the classes that numbers use -/

namespace CharClass

/-- The characters of the classes that floating-point literals use. -/
def members : CharClass → List Char
  | .zero => ['0']
  | .octalDigit => ['1', '2', '3', '4', '5', '6', '7']
  | .digit89 => ['8', '9']
  | .hexLetter => ['a', 'A', 'c', 'C']
  | .letterB => ['b', 'B']
  | .letterD => ['d', 'D']
  | .letterE => ['e', 'E']
  | .letterF => ['f', 'F']
  | .letterP => ['p', 'P']
  | .letterX => ['x', 'X']
  | .underscore => ['_']
  | .dot => ['.']
  | .plus => ['+']
  | .minus => ['-']
  | _ => []

/-- A class that numbers use has no characters but those that are listed. -/
theorem mem_members {c : Char} {k : CharClass} (hk : ofChar c = k) (h : k.members ≠ []) :
    c ∈ k.members := by
  subst hk
  by_cases hc : 127 < c.toNat
  · rw [ofChar, if_pos hc, ofUnicode] at h
    split at h
    · exact absurd rfl h
    · split at h <;> exact absurd rfl h
  · have hascii : ∀ n < 128, (ofChar (.ofNat n)).members ≠ [] →
        Char.ofNat n ∈ (ofChar (.ofNat n)).members := by decide
    have hsmall := hascii c.toNat (by omega)
    rw [Char.ofNat_toNat] at hsmall
    exact hsmall h

/-- The class of digits has no other characters. -/
theorem exists_isDigit_ten {c : Char} (h : (ofChar c).isDigit = true) : ∃ d, IsDigit 10 d c := by
  have hmembers : ∀ k : CharClass, k.isDigit = true →
      k.members ≠ [] ∧ k.members.all (isDigitOf 10) = true := by
    intro k hk
    cases k <;> cases hk <;> exact ⟨nofun, by decide⟩
  obtain ⟨hsome, hall⟩ := hmembers _ h
  obtain ⟨d, hd⟩ := Option.isSome_iff_exists.mp (List.all_eq_true.mp hall c (mem_members rfl hsome))
  exact ⟨d, (digitValue?_eq_some_iff (by decide)).mp hd⟩

/-- The class of hexadecimal digits has no other characters. -/
theorem exists_isDigit_sixteen {c : Char} (h : (ofChar c).isHexDigit = true) :
    ∃ d, IsDigit 16 d c := by
  have hmembers : ∀ k : CharClass, k.isHexDigit = true →
      k.members ≠ [] ∧ k.members.all (isDigitOf 16) = true := by
    intro k hk
    cases k <;> cases hk <;> exact ⟨nofun, by decide⟩
  obtain ⟨hsome, hall⟩ := hmembers _ h
  obtain ⟨d, hd⟩ := Option.isSome_iff_exists.mp (List.all_eq_true.mp hall c (mem_members rfl hsome))
  exact ⟨d, (digitValue?_eq_some_iff (Nat.le_refl 16)).mp hd⟩

end CharClass

/-! ### The part of the automaton that reads floating-point literals -/

namespace LexState

/-- Whether the automaton may still come to a floating-point literal. -/
def numeric : LexState → Bool
  | .zero | .octal | .decimal | .hexMark | .hex | .hexFraction => true
  | .dot | .fraction | .exponentMark | .exponentSign | .exponent => true
  | _ => false

/-- How the automaton goes on inside a floating-point literal with a character of a class. -/
inductive Counts : CharClass → LexState → LexState → Prop
  | digit {k : CharClass} {s : LexState} (hk : k.isDigit = true ∨ k = .underscore)
      (hs : s = octal ∨ s = decimal ∨ s = fraction ∨ s = exponent) : Counts k s s
  | afterZero {k : CharClass} (hk : k.isDigit = true ∨ k = .underscore) : Counts k zero octal
  | point {s : LexState} (hs : s = zero ∨ s = octal ∨ s = decimal) : Counts .dot s fraction
  | pointFirst {k : CharClass} (hk : k.isDigit = true) : Counts k dot fraction
  | letter {s : LexState} (hs : s = zero ∨ s = octal ∨ s = decimal ∨ s = fraction) :
      Counts .letterE s exponentMark
  | sign {k : CharClass} (hk : k = .plus ∨ k = .minus) : Counts k exponentMark exponentSign
  | firstDigit {k : CharClass} {s : LexState} (hk : k.isDigit = true)
      (hs : s = exponentMark ∨ s = exponentSign) : Counts k s exponent
  | mark : Counts .letterX zero hexMark
  | hexDigit {k : CharClass} {s : LexState} (hk : k.isHexDigit = true ∨ k = .underscore)
      (hs : s = hex ∨ s = hexFraction) : Counts k s s
  | hexFirst {k : CharClass} (hk : k.isHexDigit = true) : Counts k hexMark hex
  | hexPoint {s : LexState} (hs : s = hexMark ∨ s = hex) : Counts .dot s hexFraction
  | hexLetter {s : LexState} (hs : s = hex ∨ s = hexFraction) : Counts .letterP s exponentMark

/-- From inside of a number the automaton goes on inside of it or leaves it for good. -/
theorem counts_of_next {s s' : LexState} {k : CharClass} (hnumeric : s.numeric = true)
    (h : s.next k = .shift s') : Counts k s s' ∨ s'.numeric = false := by
  cases s <;> cases hnumeric <;> cases k <;> cases h <;> first
    | exact .inr rfl
    | exact .inl (.digit (by decide) (by decide))
    | exact .inl (.afterZero (by decide))
    | exact .inl (.point (by decide))
    | exact .inl (.pointFirst rfl)
    | exact .inl (.letter (by decide))
    | exact .inl (.sign (by decide))
    | exact .inl (.firstDigit rfl (by decide))
    | exact .inl .mark
    | exact .inl (.hexDigit (by decide) (by decide))
    | exact .inl (.hexFirst rfl)
    | exact .inl (.hexPoint (by decide))
    | exact .inl (.hexLetter (by decide))

end LexState

/-- Whether an action neither goes on inside a floating-point literal nor ends one. -/
def LexAction.uncounted : LexAction → Bool
  | .shift s => !s.numeric
  | .stop (.token kind) | .take (.token kind) => kind != .floatLiteral && kind != .doubleLiteral
  | _ => true

namespace LexState

/-- Outside of numbers every step stays outside. -/
theorem numeric_or_uncounted_next (s : LexState) (k : CharClass) :
    (s.numeric || (s.next k).uncounted) = true := by
  cases s <;> cases k <;> rfl

/-- From outside of numbers no step comes to a number. -/
theorem uncounted_next {s : LexState} (h : s.numeric = false) (k : CharClass) :
    (s.next k).uncounted = true := by
  simpa [h] using s.numeric_or_uncounted_next k

/-- A floating-point literal starts with a digit or a point. -/
theorem uncounted_first (k : CharClass) :
    (first k).uncounted = true ∨ k = .zero ∧ first k = .shift .zero ∨
      k.isDigit = true ∧ first k = .shift .decimal ∨ k = .dot ∧ first k = .shift .dot := by
  cases k <;> first
    | exact .inl rfl
    | exact .inr (.inl ⟨rfl, rfl⟩)
    | exact .inr (.inr (.inl ⟨rfl, rfl⟩))
    | exact .inr (.inr (.inr ⟨rfl, rfl⟩))

/-- Without a suffix a literal ends behind its fraction or its exponent. -/
theorem eq_of_before {s : LexState} {k : CharClass} {w : FloatWidth}
    (h : s.next k = .before w.kind) : w = .double ∧ (s = fraction ∨ s = exponent) := by
  cases hnumeric : s.numeric with
  | false =>
    have huncounted := uncounted_next hnumeric k
    rw [h] at huncounted
    cases w <;> cases huncounted
  | true => cases w <;> cases s <;> cases hnumeric <;> cases k <;> cases h <;> decide

/-- A suffix stands behind digits. -/
theorem eq_of_after {s : LexState} {k : CharClass} {w : FloatWidth}
    (h : s.next k = .after w.kind) :
    (w = .single ∧ k = .letterF ∨ w = .double ∧ k = .letterD) ∧
      (s = zero ∨ s = octal ∨ s = decimal ∨ s = fraction ∨ s = exponent) := by
  cases hnumeric : s.numeric with
  | false =>
    have huncounted := uncounted_next hnumeric k
    rw [h] at huncounted
    cases w <;> cases huncounted
  | true => cases w <;> cases s <;> cases hnumeric <;> cases k <;> cases h <;> decide

end LexState

/-! ### What the automaton reads -/

/-- What the automaton reads as a literal in the base sixteen, behind the letter at its start. -/
inductive LooseHex (w : FloatWidth) : List Char → Prop
  | intro {mantissa whole fraction exponent digits suffix : List Char}
      (hmantissa : LooseMantissa 16 mantissa whole fraction)
      (hexponent : LooseExponent ['p', 'P'] exponent digits) (hsuffix : w.Suffix suffix) :
      LooseHex w (mantissa ++ exponent ++ suffix)

/-- What the automaton reads behind the letter of an exponent. -/
inductive LoosePower (w : FloatWidth) : List Char → Prop
  | intro {sign digits suffix : List Char} {negative : Bool} (hsign : ExponentSign sign negative)
      (hdigits : LooseDigits 10 digits) (hsome : digits ≠ []) (hsuffix : w.Suffix suffix) :
      LoosePower w (sign ++ digits ++ suffix)

/-- What the automaton reads from a digit behind the point of a decimal literal on. -/
inductive LooseFraction (w : FloatWidth) : List Char → List Char → Prop
  | intro {fraction exponent suffix : List Char} (hfraction : LooseDigits 10 fraction)
      (hexponent : exponent = [] ∨ ∃ digits, LooseExponent ['e', 'E'] exponent digits)
      (hsuffix : w.Suffix suffix) : LooseFraction w fraction (fraction ++ exponent ++ suffix)

/-- What the automaton reads behind digits of a decimal literal, whatever these are. -/
def LooseRest (w : FloatWidth) (cs : List Char) : Prop :=
  ∀ front, LooseDigits 10 front → front ≠ [] →
    ∃ body suffix, front ++ cs = body ++ suffix ∧ LooseDecimal w body suffix

/-- What remains to be read from a state if it is to become a floating-point literal. -/
def LexState.Expects (w : FloatWidth) : LexState → List Char → Prop
  | .exponent, cs =>
    ∃ digits suffix, cs = digits ++ suffix ∧ LooseDigits 10 digits ∧ w.Suffix suffix
  | .exponentSign, cs =>
    ∃ digits suffix, cs = digits ++ suffix ∧ LooseDigits 10 digits ∧ digits ≠ [] ∧ w.Suffix suffix
  | .exponentMark, cs => LoosePower w cs
  | .fraction, cs => ∃ fraction, LooseFraction w fraction cs
  | .dot, cs => ∃ fraction, LooseFraction w fraction cs ∧ fraction ≠ []
  | .octal, cs | .decimal, cs => LooseRest w cs
  | .zero, cs => LooseRest w cs ∨ ∃ x more, cs = x :: more ∧ (x = 'x' ∨ x = 'X') ∧ LooseHex w more
  | .hexMark, cs => LooseHex w cs
  | .hex, cs => ∀ front, LooseDigits 16 front → front ≠ [] → LooseHex w (front ++ cs)
  | .hexFraction, cs =>
    ∃ fraction exponent digits suffix, cs = fraction ++ exponent ++ suffix ∧
      LooseDigits 16 fraction ∧ LooseExponent ['p', 'P'] exponent digits ∧ w.Suffix suffix
  | _, _ => False

section Expectations

variable {w : FloatWidth} {c : Char} {cs front : List Char}

/-- One more digit or underscore may stand behind digits. -/
theorem LooseDigits.concat {base : Nat} (h : LooseDigits base front)
    (hc : c = '_' ∨ ∃ d, IsDigit base d c) : LooseDigits base (front ++ [c]) := by
  intro b hb
  rcases List.mem_append.mp hb with hb | hb
  · exact h b hb
  · obtain rfl := List.mem_singleton.mp hb
    exact hc

/-- A digit or an underscore goes on with digits. -/
theorem LooseRest.cons (h : LooseRest w cs) (hc : c = '_' ∨ ∃ d, IsDigit 10 d c) :
    LooseRest w (c :: cs) := by
  intro front hfront hsome
  have hlonger := h (front ++ [c]) (hfront.concat hc) (by simp)
  rwa [List.append_assoc, List.singleton_append] at hlonger

/-- The point of a literal. -/
theorem LooseFraction.looseRest {fraction : List Char} (h : LooseFraction w fraction cs) :
    LooseRest w ('.' :: cs) := by
  intro front hfront hsome
  obtain ⟨hfraction, hexponent, hsuffix⟩ := h
  refine ⟨_, _, ?_, .intro (.point hfront hfraction) (.inl hsome) hexponent hsuffix
    (.inl (by simp))⟩
  simp

/-- The exponent of a literal, behind its letter. -/
theorem LoosePower.exists_looseExponent {letters : List Char} {letter : Char}
    (h : LoosePower w cs) (hletter : letter ∈ letters) :
    ∃ exponent digits suffix, letter :: cs = exponent ++ suffix ∧
      LooseExponent letters exponent digits ∧ w.Suffix suffix := by
  obtain ⟨hsign, hdigits, hsome, hsuffix⟩ := h
  exact ⟨_, _, _, rfl, .intro hletter hsign hdigits hsome, hsuffix⟩

/-- The rest of a literal may be an exponent. -/
theorem LoosePower.looseRest {letter : Char} (h : LoosePower w cs) (hletter : letter ∈ ['e', 'E']) :
    LooseRest w (letter :: cs) := by
  intro front hfront hsome
  obtain ⟨exponent, digits, suffix, hcons, hexponent, hsuffix⟩ := h.exists_looseExponent hletter
  refine ⟨front ++ exponent, suffix, by rw [hcons, List.append_assoc], ?_⟩
  exact .intro (.whole hfront hsome) (.inl hsome) (.inr ⟨digits, hexponent⟩) hsuffix
    (.inr (.inl hexponent.ne_nil))

/-- The rest of a literal may be a suffix. -/
theorem looseRest_suffix (h : w.Suffix [c]) : LooseRest w [c] := by
  intro front hfront hsome
  have hdecimal := LooseDecimal.intro (.whole hfront hsome) (.inl hsome) (.inl rfl) h
    (.inr (.inr (List.cons_ne_nil c [])))
  rw [List.append_nil] at hdecimal
  exact ⟨front, [c], rfl, hdecimal⟩

end Expectations

namespace LexState

variable {w : FloatWidth} {s s' : LexState} {c : Char} {cs : List Char} {next : CharClass}

/-- A character of these classes is an underscore or a decimal digit. -/
theorem digit_or_underscore {k : CharClass} (hk : CharClass.ofChar c = k)
    (h : k.isDigit = true ∨ k = .underscore) : c = '_' ∨ ∃ d, IsDigit 10 d c := by
  rcases h with h | rfl
  · exact .inr (CharClass.exists_isDigit_ten (hk ▸ h))
  · exact .inl (List.mem_singleton.mp (CharClass.mem_members hk (by decide)))

/-- A character of these classes is an underscore or a hexadecimal digit. -/
theorem hexDigit_or_underscore {k : CharClass} (hk : CharClass.ofChar c = k)
    (h : k.isHexDigit = true ∨ k = .underscore) : c = '_' ∨ ∃ d, IsDigit 16 d c := by
  rcases h with h | rfl
  · exact .inr (CharClass.exists_isDigit_sixteen (hk ▸ h))
  · exact .inl (List.mem_singleton.mp (CharClass.mem_members hk (by decide)))

/-- What remains to be read one character earlier. -/
theorem Expects.cons (h : s'.Expects w cs) (hcounts : Counts (.ofChar c) s s') :
    s.Expects w (c :: cs) := by
  generalize hk : CharClass.ofChar c = k at hcounts
  cases hcounts with
  | digit hdigit hs =>
    have hc := digit_or_underscore hk hdigit
    rcases hs with rfl | rfl | rfl | rfl
    · exact LooseRest.cons h hc
    · exact LooseRest.cons h hc
    · obtain ⟨_, hfraction, hexponent, hsuffix⟩ := h
      exact ⟨_, .intro (hfraction.cons hc) hexponent hsuffix⟩
    · obtain ⟨digits, suffix, rfl, hdigits, hsuffix⟩ := h
      exact ⟨c :: digits, suffix, rfl, hdigits.cons hc, hsuffix⟩
  | afterZero hdigit => exact .inl (LooseRest.cons h (digit_or_underscore hk hdigit))
  | point hs =>
    obtain rfl : c = '.' := List.mem_singleton.mp (CharClass.mem_members hk (by decide))
    obtain ⟨fraction, hfraction⟩ := h
    rcases hs with rfl | rfl | rfl
    · exact .inl hfraction.looseRest
    · exact hfraction.looseRest
    · exact hfraction.looseRest
  | pointFirst hdigit =>
    obtain ⟨_, hfraction, hexponent, hsuffix⟩ := h
    have hdigits := hfraction.cons (digit_or_underscore hk (.inl hdigit))
    exact ⟨_, .intro hdigits hexponent hsuffix, List.cons_ne_nil _ _⟩
  | letter hs =>
    have hletter : c ∈ ['e', 'E'] := CharClass.mem_members hk (by decide)
    rcases hs with rfl | rfl | rfl | rfl
    · exact .inl (LoosePower.looseRest h hletter)
    · exact LoosePower.looseRest h hletter
    · exact LoosePower.looseRest h hletter
    · obtain ⟨exponent, digits, suffix, hcons, hexponent, hsuffix⟩ :=
        LoosePower.exists_looseExponent h hletter
      rw [hcons]
      exact ⟨[], .intro looseDigits_nil (.inr ⟨digits, hexponent⟩) hsuffix⟩
  | sign hsign =>
    obtain ⟨digits, suffix, rfl, hdigits, hsome, hsuffix⟩ := h
    rcases hsign with rfl | rfl
    · obtain rfl : c = '+' := List.mem_singleton.mp (CharClass.mem_members hk (by decide))
      exact LoosePower.intro .plus hdigits hsome hsuffix
    · obtain rfl : c = '-' := List.mem_singleton.mp (CharClass.mem_members hk (by decide))
      exact LoosePower.intro .minus hdigits hsome hsuffix
  | firstDigit hdigit hs =>
    obtain ⟨digits, suffix, rfl, hdigits, hsuffix⟩ := h
    have hlonger := hdigits.cons (digit_or_underscore hk (.inl hdigit))
    rcases hs with rfl | rfl
    · exact LoosePower.intro .absent hlonger (List.cons_ne_nil _ _) hsuffix
    · exact ⟨c :: digits, suffix, rfl, hlonger, List.cons_ne_nil _ _, hsuffix⟩
  | mark =>
    have hx : c ∈ ['x', 'X'] := CharClass.mem_members hk (by decide)
    exact .inr ⟨c, cs, rfl, by simpa using hx, h⟩
  | hexDigit hdigit hs =>
    have hc := hexDigit_or_underscore hk hdigit
    rcases hs with rfl | rfl
    · intro front hfront hsome
      have hlonger := h (front ++ [c]) (hfront.concat hc) (by simp)
      rwa [List.append_assoc, List.singleton_append] at hlonger
    · obtain ⟨fraction, exponent, digits, suffix, rfl, hfraction, hexponent, hsuffix⟩ := h
      exact ⟨c :: fraction, exponent, digits, suffix, rfl, hfraction.cons hc, hexponent, hsuffix⟩
  | hexFirst hdigit =>
    have hc := hexDigit_or_underscore hk (.inl hdigit)
    exact h [c] (looseDigits_nil.cons hc) (List.cons_ne_nil c [])
  | hexPoint hs =>
    obtain rfl : c = '.' := List.mem_singleton.mp (CharClass.mem_members hk (by decide))
    obtain ⟨fraction, exponent, digits, suffix, rfl, hfraction, hexponent, hsuffix⟩ := h
    rcases hs with rfl | rfl
    · exact LooseHex.intro (.point looseDigits_nil hfraction) hexponent hsuffix
    · intro front hfront hsome
      have hhex := LooseHex.intro (.point hfront hfraction) hexponent hsuffix
      simpa using hhex
  | hexLetter hs =>
    have hletter : c ∈ ['p', 'P'] := CharClass.mem_members hk (by decide)
    obtain ⟨exponent, digits, suffix, hcons, hexponent, hsuffix⟩ :=
      LoosePower.exists_looseExponent h hletter
    rw [hcons]
    rcases hs with rfl | rfl
    · intro front hfront hsome
      have hhex := LooseHex.intro (.whole hfront hsome) hexponent hsuffix
      rwa [List.append_assoc] at hhex
    · exact ⟨[], exponent, digits, suffix, rfl, looseDigits_nil, hexponent, hsuffix⟩

/-- A suffix stands behind digits. -/
theorem expects_suffix (h : s.next (.ofChar c) = .after w.kind) : s.Expects w [c] := by
  obtain ⟨hkind, hs⟩ := eq_of_after h
  have hsuffix : w.Suffix [c] := by
    rcases hkind with ⟨rfl, hk⟩ | ⟨rfl, hk⟩
    · have hc : c ∈ ['f', 'F'] := CharClass.mem_members hk (by decide)
      exact .single (by simpa using hc)
    · have hc : c ∈ ['d', 'D'] := CharClass.mem_members hk (by decide)
      exact .double (by simpa using hc)
  rcases hs with rfl | rfl | rfl | rfl | rfl
  · exact .inl (looseRest_suffix hsuffix)
  · exact looseRest_suffix hsuffix
  · exact looseRest_suffix hsuffix
  · exact ⟨[], .intro looseDigits_nil (.inl rfl) hsuffix⟩
  · exact ⟨[], [c], rfl, looseDigits_nil, hsuffix⟩

/-- Outside of numbers nothing is expected. -/
theorem not_expects_of_not_numeric (h : s.numeric = false) : ¬ s.Expects w cs := by
  cases s <;> first | cases h; done | exact id

/-- What is read as a floating-point literal has its parts in order. -/
theorem expects_of_kindFrom (h : Scan.kindFrom s cs next = some (.token w.kind)) :
    s.Expects w cs := by
  induction cs generalizing s with
  | nil =>
    rw [Scan.kindFrom] at h
    split at h
    · rename_i hnext
      cases h
      obtain ⟨rfl, rfl | rfl⟩ := eq_of_before hnext
      · exact ⟨[], .intro looseDigits_nil (.inl rfl) .absent⟩
      · exact ⟨[], [], rfl, looseDigits_nil, .absent⟩
    · cases h
  | cons c cs ih =>
    rw [Scan.kindFrom] at h
    split at h
    · rename_i s' hnext
      have hexpects := ih h
      cases hnumeric : s.numeric with
      | false =>
        have huncounted := uncounted_next hnumeric (.ofChar c)
        rw [hnext] at huncounted
        have hs' : s'.numeric = false := by simpa [LexAction.uncounted] using huncounted
        exact absurd hexpects (not_expects_of_not_numeric hs')
      | true =>
        rcases counts_of_next hnumeric hnext with hcounts | hs'
        · exact hexpects.cons hcounts
        · exact absurd hexpects (not_expects_of_not_numeric hs')
    · rename_i hnext
      split at h
      · rename_i hlast
        cases h
        obtain rfl := List.isEmpty_iff.mp hlast
        exact expects_suffix hnext
      · cases h
    · cases h

end LexState

/-- What is read as a floating-point literal is a loose one. -/
theorem Scan.loose_of_kindOf {w : FloatWidth} {cs : List Char} {next : CharClass}
    (h : kindOf cs next = some (.token w.kind)) :
    (∃ body suffix, cs = body ++ suffix ∧ LooseDecimal w body suffix) ∨
      ∃ x more, cs = '0' :: x :: more ∧ (x = 'x' ∨ x = 'X') ∧ LooseHex w more := by
  cases cs with
  | nil => cases h
  | cons c cs =>
    rw [kindOf] at h
    have hone {c : Char} (hc : ∃ d, IsDigit 10 d c) : LooseDigits 10 [c] :=
      looseDigits_nil.cons (.inr hc)
    rcases LexState.uncounted_first (.ofChar c) with hplain | ⟨hk, hfirst⟩ | ⟨hk, hfirst⟩ |
      ⟨hk, hfirst⟩
    · split at h
      · rename_i s hfirst
        rw [hfirst] at hplain
        have hs : s.numeric = false := by simpa [LexAction.uncounted] using hplain
        exact absurd (LexState.expects_of_kindFrom h) (LexState.not_expects_of_not_numeric hs)
      · rename_i hfirst
        rw [hfirst] at hplain
        split at h
        · cases h
          cases w <;> cases hplain
        · cases h
      · cases h
    · obtain rfl : c = '0' := List.mem_singleton.mp (CharClass.mem_members hk (by decide))
      rw [hfirst] at h
      rcases LexState.expects_of_kindFrom h with hrest | ⟨x, more, rfl, hx, hhex⟩
      · exact .inl (hrest ['0'] (hone ⟨0, by decide, .inl rfl⟩) (List.cons_ne_nil _ _))
      · exact .inr ⟨x, more, rfl, hx, hhex⟩
    · rw [hfirst] at h
      have hdigits := hone (CharClass.exists_isDigit_ten hk)
      exact .inl (LexState.expects_of_kindFrom h [c] hdigits (List.cons_ne_nil _ _))
    · obtain rfl : c = '.' := List.mem_singleton.mp (CharClass.mem_members hk (by decide))
      rw [hfirst] at h
      obtain ⟨_, ⟨hfraction, hexponent, hsuffix⟩, hsome⟩ := LexState.expects_of_kindFrom h
      exact .inl ⟨_, _, rfl, .intro (.point looseDigits_nil hfraction) (.inr hsome) hexponent
        hsuffix (.inl (by simp))⟩

/-! ### Literals are read to their end -/

namespace Scan

variable {w : FloatWidth} {s : LexState} {e : Int}
  {cs text mantissa whole fraction exponent suffix digits sign letters : List Char}

/-- The automaton stays in a state with all digits and underscores. -/
def Stays (base : Nat) (s : LexState) : Prop :=
  s.next (.ofChar '_') = .shift s ∧ ∀ d c, IsDigit base d c → s.next (.ofChar c) = .shift s

/-- In a state that stays with digits all of them are passed. -/
theorem Stays.kindFrom_append {base : Nat} (hs : Stays base s) (h : LooseDigits base cs)
    (rest : List Char) : kindFrom s (cs ++ rest) .endOfText = kindFrom s rest .endOfText := by
  refine Scan.kindFrom_append fun c hc => ?_
  rcases h c hc with rfl | ⟨d, hd⟩
  · exact hs.1
  · exact hs.2 d c hd

/-- These states stay with decimal digits. -/
theorem stays_ten (hs : s = .octal ∨ s = .decimal ∨ s = .fraction ∨ s = .exponent) :
    Stays 10 s := by
  rcases hs with rfl | rfl | rfl | rfl
  all_goals
    refine ⟨rfl, fun d c hd => ?_⟩
    apply hd.elim
    decide

/-- These states stay with hexadecimal digits. -/
theorem stays_sixteen (hs : s = .hex ∨ s = .hexFraction) : Stays 16 s := by
  rcases hs with rfl | rfl
  all_goals
    refine ⟨rfl, fun d c hd => ?_⟩
    apply hd.elim
    decide

/-- An exponent is read behind its letter. -/
theorem kindFrom_exponentMark {negative : Bool} (hsign : ExponentSign sign negative)
    (hdigits : IsDigits 10 digits) (hsuffix : w.Suffix suffix) :
    kindFrom .exponentMark (sign ++ digits ++ suffix) .endOfText = some (.token w.kind) := by
  have hloose := hdigits.loose
  obtain ⟨m, hm⟩ := hdigits
  obtain ⟨c, rest, d, rfl, hd⟩ := hm.exists_eq_cons
  have hrest : LooseDigits 10 rest := fun b hb => hloose b (List.mem_cons_of_mem _ hb)
  have hend : kindFrom .exponent (rest ++ suffix) .endOfText = some (.token w.kind) := by
    rw [(stays_ten (.inr (.inr (.inr rfl)))).kindFrom_append hrest]
    cases hsuffix with
    | absent => rfl
    | single hc => rcases hc with rfl | rfl <;> rfl
    | double hc => rcases hc with rfl | rfl <;> rfl
  have hfirst : LexState.next .exponentMark (.ofChar c) = .shift .exponent ∧
      LexState.next .exponentSign (.ofChar c) = .shift .exponent := by
    apply hd.elim
    decide
  cases hsign with
  | absent =>
    change kindFrom .exponentMark (c :: (rest ++ suffix)) .endOfText = _
    rw [kindFrom, hfirst.1]
    exact hend
  | plus | minus =>
    change kindFrom .exponentSign (c :: (rest ++ suffix)) .endOfText = _
    rw [kindFrom, hfirst.2]
    exact hend

/-- The exponent and the suffix of a literal in the base ten are read, one of which has to be
there unless there was a point. -/
theorem kindFrom_end (hexponent : Optionally DecimalExponent exponent) (hsuffix : w.Suffix suffix)
    (hs : s = .fraction ∨ (s = .octal ∨ s = .decimal) ∧ (exponent ≠ [] ∨ suffix ≠ [])) :
    kindFrom s (exponent ++ suffix) .endOfText = some (.token w.kind) := by
  rcases hexponent with rfl | ⟨e, hletter, hsign, hdigits⟩
  · cases hsuffix with
    | absent =>
      rcases hs with rfl | ⟨-, h | h⟩
      · rfl
      · exact absurd rfl h
      · exact absurd rfl h
    | single hc =>
      rcases hc with rfl | rfl <;> rcases hs with rfl | ⟨rfl | rfl, -⟩ <;> rfl
    | double hc =>
      rcases hc with rfl | rfl <;> rcases hs with rfl | ⟨rfl | rfl, -⟩ <;> rfl
  · have hmark := kindFrom_exponentMark hsign ⟨_, hdigits⟩ hsuffix
    have hstates : s = .fraction ∨ s = .octal ∨ s = .decimal := hs.imp_right And.left
    simp only [List.mem_cons, List.not_mem_nil, or_false] at hletter
    rcases hletter with rfl | rfl <;> rcases hstates with rfl | rfl | rfl <;> exact hmark

/-- What stands behind the first digits of a literal in the base ten is read. -/
theorem kindFrom_rest (hs : s = .octal ∨ s = .decimal) (hwhole : LooseDigits 10 cs)
    (htail : mantissa = cs ∧ (exponent ≠ [] ∨ suffix ≠ []) ∨
      ∃ fraction, LooseDigits 10 fraction ∧ mantissa = cs ++ '.' :: fraction)
    (hexponent : Optionally DecimalExponent exponent) (hsuffix : w.Suffix suffix) :
    kindFrom s (mantissa ++ (exponent ++ suffix)) .endOfText = some (.token w.kind) := by
  have hstays : Stays 10 s := stays_ten (hs.imp_right .inl)
  rcases htail with ⟨rfl, hsome⟩ | ⟨fraction, hfraction, rfl⟩
  · rw [hstays.kindFrom_append hwhole]
    exact kindFrom_end hexponent hsuffix (.inr ⟨hs, hsome⟩)
  · have hfractionEnd : kindFrom .fraction (fraction ++ (exponent ++ suffix)) .endOfText =
        some (.token w.kind) := by
      rw [(stays_ten (.inr (.inr (.inl rfl)))).kindFrom_append hfraction]
      exact kindFrom_end hexponent hsuffix (.inl rfl)
    rw [List.append_assoc, hstays.kindFrom_append hwhole]
    rcases hs with rfl | rfl <;> exact hfractionEnd

/-- Behind a zero a literal is read like behind other octal digits. -/
theorem kindFrom_zero {next : CharClass} {kind : LexemeKind}
    (h : kindFrom .octal cs next = some kind) : kindFrom .zero cs next = some kind := by
  have hnext (k : CharClass) : LexState.next .zero k = LexState.next .octal k ∨
      LexState.next .octal k = .fail .invalidNumber := by
    cases k <;> first | exact .inl rfl | exact .inr rfl
  cases cs with
  | nil =>
    rw [kindFrom] at h ⊢
    rcases hnext next with heq | hfail
    · rw [heq]
      exact h
    · rw [hfail] at h
      cases h
  | cons c cs =>
    rw [kindFrom] at h ⊢
    rcases hnext (.ofChar c) with heq | hfail
    · rw [heq]
      exact h
    · rw [hfail] at h
      cases h

/-- A literal in the base ten that starts with a digit is a lexeme. -/
theorem kindOf_whole (hwhole : IsDigits 10 whole)
    (htail : mantissa = whole ∧ (exponent ≠ [] ∨ suffix ≠ []) ∨
      ∃ fraction, LooseDigits 10 fraction ∧ mantissa = whole ++ '.' :: fraction)
    (hexponent : Optionally DecimalExponent exponent) (hsuffix : w.Suffix suffix) :
    kindOf (mantissa ++ exponent ++ suffix) .endOfText = some (.token w.kind) := by
  have hloose := hwhole.loose
  obtain ⟨m, hm⟩ := hwhole
  obtain ⟨c, rest, d, rfl, hd⟩ := hm.exists_eq_cons
  have hrest : LooseDigits 10 rest := fun b hb => hloose b (List.mem_cons_of_mem _ hb)
  obtain ⟨more, rfl, hmore⟩ : ∃ more, mantissa = c :: more ∧
      (more = rest ∧ (exponent ≠ [] ∨ suffix ≠ []) ∨
        ∃ fraction, LooseDigits 10 fraction ∧ more = rest ++ '.' :: fraction) := by
    rcases htail with ⟨rfl, hsome⟩ | ⟨fraction, hfraction, rfl⟩
    · exact ⟨rest, rfl, .inl ⟨rfl, hsome⟩⟩
    · exact ⟨_, rfl, .inr ⟨fraction, hfraction, rfl⟩⟩
  have hread (s : LexState) (hs : s = .octal ∨ s = .decimal) :
      kindFrom s (more ++ (exponent ++ suffix)) .endOfText = some (.token w.kind) :=
    kindFrom_rest hs hrest hmore hexponent hsuffix
  rw [List.append_assoc, List.cons_append, kindOf]
  by_cases hzero : c = '0'
  · subst hzero
    exact kindFrom_zero (hread .octal (.inl rfl))
  · have hfirst : c ≠ '0' → LexState.first (.ofChar c) = .shift .decimal :=
      hd.elim (P := fun c => c ≠ '0' → LexState.first (.ofChar c) = .shift .decimal) (by decide)
    rw [hfirst hzero]
    exact hread .decimal (.inr rfl)

/-- A floating-point literal in the base ten is a lexeme. -/
theorem kindOf_decimalFloating (h : DecimalFloating w text) :
    kindOf text .endOfText = some (.token w.kind) := by
  cases h with
  | wholeFirst hwhole hfraction hexponent hsuffix =>
    have hloose := ((optionally_isDigits_iff (by decide)).mp hfraction).1
    exact kindOf_whole hwhole (.inr ⟨_, hloose, rfl⟩) hexponent hsuffix
  | withExponent hwhole hexponent hsuffix =>
    obtain ⟨e, he⟩ := id hexponent
    exact kindOf_whole hwhole (.inl ⟨rfl, .inl he.ne_nil⟩) (.inr hexponent) hsuffix
  | withSuffix hwhole hexponent hsuffix hsome =>
    exact kindOf_whole hwhole (.inl ⟨rfl, .inr hsome⟩) hexponent hsuffix
  | pointFirst hfraction hexponent hsuffix =>
    have hloose := hfraction.loose
    obtain ⟨m, hm⟩ := hfraction
    obtain ⟨c, rest, d, rfl, hd⟩ := hm.exists_eq_cons
    have hrest : LooseDigits 10 rest := fun b hb => hloose b (List.mem_cons_of_mem _ hb)
    have hfirst : LexState.next .dot (.ofChar c) = .shift .fraction := by
      apply hd.elim
      decide
    rw [List.append_assoc]
    change kindFrom .dot (c :: (rest ++ (_ ++ _))) .endOfText = _
    rw [kindFrom, hfirst]
    dsimp only
    rw [(stays_ten (.inr (.inr (.inl rfl)))).kindFrom_append hrest]
    exact kindFrom_end hexponent hsuffix (.inl rfl)

/-- The exponent and the suffix of a literal in the base sixteen are read. -/
theorem kindFrom_hexEnd (hexponent : Exponent ['p', 'P'] exponent e) (hsuffix : w.Suffix suffix)
    (hs : s = .hex ∨ s = .hexFraction) :
    kindFrom s (exponent ++ suffix) .endOfText = some (.token w.kind) := by
  obtain ⟨hletter, hsign, hdigits⟩ := hexponent
  have hmark := kindFrom_exponentMark hsign ⟨_, hdigits⟩ hsuffix
  simp only [List.mem_cons, List.not_mem_nil, or_false] at hletter
  rcases hletter with rfl | rfl <;> rcases hs with rfl | rfl <;> exact hmark

/-- A floating-point literal in the base sixteen is a lexeme. -/
theorem kindOf_hexFloating (h : HexFloating w text e) :
    kindOf text .endOfText = some (.token w.kind) := by
  obtain ⟨x, mantissa, whole, fraction, exponent, suffix, rfl, hx, hmantissa, -, hseparated,
    hexponent, hsuffix⟩ := hexFloating_iff.mp h
  have hmark : kindOf ('0' :: x :: mantissa ++ exponent ++ suffix) .endOfText =
      kindFrom .hexMark (mantissa ++ (exponent ++ suffix)) .endOfText := by
    rw [List.append_assoc]
    rcases hx with rfl | rfl <;> rfl
  have hhex := stays_sixteen (s := .hex) (.inl rfl)
  have hhexFraction := stays_sixteen (s := .hexFraction) (.inr rfl)
  have hfirst {c : Char} {d : Nat} (hd : IsDigit 16 d c) :
      LexState.next .hexMark (.ofChar c) = .shift .hex := by
    apply hd.elim
    decide
  obtain ⟨hwholeSep, -⟩ := hmantissa.wellSeparated_iff.mp hseparated
  rw [hmark]
  cases hmantissa with
  | whole hwhole hsome =>
    obtain ⟨m, hm⟩ := hwhole.isDigits (Nat.le_refl 16) hsome hwholeSep
    obtain ⟨c, rest, d, rfl, hd⟩ := hm.exists_eq_cons
    rw [List.cons_append, kindFrom, hfirst hd]
    dsimp only
    rw [hhex.kindFrom_append fun b hb => hwhole b (List.mem_cons_of_mem _ hb)]
    exact kindFrom_hexEnd hexponent hsuffix (.inl rfl)
  | point hwhole hfraction =>
    have hpoint : kindFrom .hexFraction (fraction ++ (exponent ++ suffix)) .endOfText =
        some (.token w.kind) := by
      rw [hhexFraction.kindFrom_append hfraction]
      exact kindFrom_hexEnd hexponent hsuffix (.inr rfl)
    rw [List.append_assoc]
    rcases (optionally_isDigits_iff (Nat.le_refl 16)).mpr ⟨hwhole, hwholeSep⟩ with rfl | ⟨m, hm⟩
    · exact hpoint
    · obtain ⟨c, rest, d, rfl, hd⟩ := hm.exists_eq_cons
      rw [List.cons_append, kindFrom, hfirst hd]
      dsimp only
      rw [hhex.kindFrom_append fun b hb => hwhole b (List.mem_cons_of_mem _ hb)]
      exact hpoint

end Scan

/-! ### Texts that are a floating-point literal -/

section Texts

variable {w : FloatWidth} {text : String} {preferences : LexicalPreferences} {t : Token}

/-- A floating-point literal is read to its end as one lexeme. -/
theorem Scan.kindOf_floatingLiteral {cs : List Char} (h : FloatingLiteral w cs) :
    kindOf cs .endOfText = some (.token w.kind) := by
  rcases h with h | ⟨e, h⟩
  · exact kindOf_decimalFloating h
  · exact kindOf_hexFloating h

/-- A floating-point literal is decoded by the decoder for them. -/
theorem Literal.decode_floating (w : FloatWidth) (cs : List Char) :
    Literal.decode w.kind cs = match Floating.decode w cs with
      | .ok value => .ok (some (.floating value))
      | .error fault => .error (.invalidNumber fault) := by
  cases w with
  | single =>
    change some <$> decodeFloating .single cs = _
    rw [decodeFloating]
    cases Floating.decode .single cs <;> rfl
  | double =>
    change some <$> decodeFloating .double cs = _
    rw [decodeFloating]
    cases Floating.decode .double cs <;> rfl

/-- A text that is read as a floating-point number is a literal of its type. -/
theorem ReadsSingly.floatingLiteral (h : ReadsSingly text preferences t) (hkind : t.kind = w.kind) :
    FloatingLiteral w text.toList := by
  have hdecode := h.decode_eq
  obtain ⟨last, -, hopen, -⟩ := id h
  obtain ⟨⟨kind, hscan, hclassify⟩, -⟩ := Lexer.exists_scan_of_lex h.lex_eq hopen
  rw [h.source_eq] at hscan hclassify
  have hrefine := (Lexer.classify_eq_ok (hclassify _ rfl)).1
  have hlexeme : kind = w.kind := by
    rw [hkind, Lexer.refineKind] at hrefine
    split at hrefine
    · have hword := classifyWord_cases (String.ofList text.toList)
      rw [← hrefine] at hword
      cases w <;> simp [FloatWidth.kind] at hword
    · exact hrefine.symm
  rw [hkind, Literal.decode_floating] at hdecode
  obtain ⟨value, hvalue⟩ : ∃ value, Floating.decode w text.toList = .ok value := by
    cases hvalue : Floating.decode w text.toList with
    | ok value => exact ⟨value, rfl⟩
    | error fault =>
      rw [hvalue] at hdecode
      cases hdecode
  rcases Scan.loose_of_kindOf (hlexeme ▸ hscan .space rfl) with ⟨body, suffix, htext, hloose⟩ |
    ⟨x, more, htext, hx, hhex⟩
  · rw [htext] at hvalue ⊢
    exact .inl (Floating.decimalFloating_of_decode hloose hvalue)
  · rw [htext] at hvalue ⊢
    obtain ⟨hmantissa, hexponent, hsuffix⟩ := hhex
    exact .inr (Floating.hexFloating_of_decode hx hmantissa hexponent hsuffix hvalue)

/-- Before its suffix a literal ends with a character that is no suffix. -/
theorem FloatingLiteral.exists_suffix {cs : List Char} (h : FloatingLiteral w cs) :
    ∃ body c suffix, cs = body ++ [c] ++ suffix ∧ c ∉ endLetters ∧ w.Suffix suffix := by
  have hlast {front back suffix : List Char} (hsome : back ≠ [])
      (hback : ∀ c ∈ back, c ∉ endLetters) (hsuffix : w.Suffix suffix) :
      ∃ body c suffix', front ++ back ++ suffix = body ++ [c] ++ suffix' ∧
        c ∉ endLetters ∧ w.Suffix suffix' := by
    refine ⟨front ++ back.dropLast, back.getLast hsome, suffix, ?_,
      hback _ (List.getLast_mem hsome), hsuffix⟩
    rw [List.append_assoc front back.dropLast, List.dropLast_concat_getLast]
  rcases h with h | ⟨e, h⟩
  · obtain ⟨body, suffix, rfl, hloose, -⟩ := decimalFloating_iff.mp h
    have hletters := hloose.notMem_endLetters
    obtain ⟨hmantissa, -, -, hsuffix, -⟩ := hloose
    exact @hlast [] _ _ (List.append_ne_nil_of_left_ne_nil hmantissa.ne_nil _) hletters hsuffix
  · obtain ⟨x, mantissa, whole, fraction, exponent, suffix, rfl, -, -, -, -, hexponent, hsuffix⟩ :=
      hexFloating_iff.mp h
    obtain ⟨digits, hloose, -⟩ := hexponent.exists_loose
    exact hlast hloose.ne_nil (hloose.notMem_endLetters
      (forall_mem_pair (by decide) (by decide))) hsuffix

/-- A literal is a `float` if and only if it ends in the letter for it. -/
theorem FloatingLiteral.eq_single_iff {cs : List Char} (h : FloatingLiteral w cs) :
    w = .single ↔ ∃ c, cs.getLast? = some c ∧ (c = 'f' ∨ c = 'F') := by
  obtain ⟨body, d, suffix, rfl, hd, hsuffix⟩ := h.exists_suffix
  cases hsuffix with
  | absent =>
    rw [List.append_nil, List.getLast?_concat]
    refine iff_of_false nofun ?_
    rintro ⟨c, hc, hletter⟩
    obtain rfl := Option.some.inj hc
    rcases hletter with rfl | rfl
    · exact hd (by decide)
    · exact hd (by decide)
  | @single c hc =>
    rw [List.getLast?_concat]
    exact iff_of_true rfl ⟨c, rfl, hc⟩
  | @double c hc =>
    rw [List.getLast?_concat]
    refine iff_of_false nofun ?_
    rintro ⟨b, hb, hletter⟩
    obtain rfl := Option.some.inj hb
    rcases hc with rfl | rfl <;> rcases hletter with h | h <;> cases h

/-- A literal that the decoder accepts is read as a single token. -/
theorem FloatingLiteral.exists_readsSingly (h : FloatingLiteral w text.toList) {value : Float}
    (hdecode : Floating.decode w text.toList = .ok value) (preferences : LexicalPreferences) :
    ∃ t, ReadsSingly text preferences t ∧ t.kind = w.kind := by
  have hvalue : Literal.decode w.kind text.toList = .ok (some (.floating value)) := by
    rw [Literal.decode_floating, hdecode]
  obtain ⟨t, ht, hkind, -⟩ := @readsSingly_of_decode text preferences _ _
    (Scan.kindOf_floatingLiteral h) (by cases w <;> decide) (by cases w <;> decide)
    (by cases w <;> rintro (h | h) <;> cases h) hvalue
  exact ⟨t, ht, hkind⟩

/-- A literal that the decoder refuses is refused for the same reason. -/
theorem FloatingLiteral.exists_error (h : FloatingLiteral w text.toList) {fault : NumberFault}
    (hdecode : Floating.decode w text.toList = .error fault) (preferences : LexicalPreferences) :
    ∃ e, (tokenize text preferences).toExcept = .error e ∧ e.kind = .invalidNumber fault := by
  refine ⟨.ofLiteralFault text.toList 0 (.invalidNumber fault),
    tokenize_refused (Scan.kindOf_floatingLiteral h) ?_, rfl⟩
  rw [Lexer.classify_first rfl (by cases w <;> decide)
    (by cases w <;> rintro (h | h) <;> cases h), Literal.decode_floating, hdecode]
  rfl

end Texts

/-- A text that is read as a single floating-point number is a floating-point literal, and the
number is a `float` if and only if the text ends in the letter for it. Each floating-point literal
is read as a single number of its type, unless it is out of range; in the base sixteen an exponent
of more than 64 bits is refused, too. -/
theorem readsSingly_floating (text : String) (preferences : LexicalPreferences) :
    (∀ t, ReadsSingly text preferences t → t.kind = .floatLiteral ∨ t.kind = .doubleLiteral →
      (∃ w, FloatingLiteral w text.toList) ∧
        (t.kind = .floatLiteral ↔
          ∃ c, text.toList.getLast? = some c ∧ (c = 'f' ∨ c = 'F'))) ∧
    ∀ w, FloatingLiteral w text.toList →
      (∃ t, ReadsSingly text preferences t ∧ t.kind = w.kind) ∨
        ∃ e, (tokenize text preferences).toExcept = .error e ∧
          (e.kind = .invalidNumber .tooLarge ∨ e.kind = .invalidNumber .tooSmall ∨
            e.kind = .invalidNumber .malformedExponent ∧
              ∃ exponent, HexFloating w text.toList exponent ∧
                ¬ (-2 ^ 63 ≤ exponent ∧ exponent < 2 ^ 63)) := by
  constructor
  · intro t ht hkind
    obtain ⟨w, hw⟩ : ∃ w : FloatWidth, t.kind = w.kind := by
      rcases hkind with hkind | hkind
      · exact ⟨.single, hkind⟩
      · exact ⟨.double, hkind⟩
    have hliteral := ht.floatingLiteral hw
    refine ⟨⟨w, hliteral⟩, ?_⟩
    rw [← hliteral.eq_single_iff, hw]
    cases w with
    | single => exact iff_of_true rfl rfl
    | double => exact iff_of_false nofun nofun
  · intro w hliteral
    have hfails {fault : NumberFault} (hfault : Floating.decode w text.toList = .error fault) :=
      hliteral.exists_error hfault preferences
    rcases id hliteral with hdecimal | ⟨exponent, hhex⟩
    · rcases Floating.decode_decimalFloating hdecimal with ⟨value, hvalue⟩ | hlarge | hsmall
      · exact .inl (hliteral.exists_readsSingly hvalue preferences)
      · obtain ⟨e, he, hkind⟩ := hfails hlarge
        exact .inr ⟨e, he, .inl hkind⟩
      · obtain ⟨e, he, hkind⟩ := hfails hsmall
        exact .inr ⟨e, he, .inr (.inl hkind)⟩
    · rcases Floating.decode_hexFloating hhex with ⟨value, hvalue⟩ | hlarge | hsmall |
        ⟨hmalformed, hexponent⟩
      · exact .inl (hliteral.exists_readsSingly hvalue preferences)
      · obtain ⟨e, he, hkind⟩ := hfails hlarge
        exact .inr ⟨e, he, .inl hkind⟩
      · obtain ⟨e, he, hkind⟩ := hfails hsmall
        exact .inr ⟨e, he, .inr (.inl hkind)⟩
      · obtain ⟨e, he, hkind⟩ := hfails hmalformed
        exact .inr ⟨e, he, .inr (.inr ⟨hkind, exponent, hhex, hexponent⟩)⟩

/-- A zero in front does not make the mantissa octal, and there may be digits on one side of the
point only. An underscore next to the point is refused. -/
theorem readsSingly_floating_samples :
    (∃ t, ReadsSingly "09.f" {} t ∧ t.kind = .floatLiteral) ∧
      ¬ ∃ t, ReadsSingly "1_.5" {} t ∧ t.kind = .doubleLiteral := by
  constructor
  · have hzero : Digits 10 ['0'] 0 := .digit ⟨by decide, .inl rfl⟩
    have hnine : IsDigit 10 9 '9' := ⟨by decide, .inl rfl⟩
    have hdigits : IsDigits 10 ['0', '9'] := ⟨_, hzero.next 0 hnine⟩
    have hliteral : DecimalFloating .single "09.f".toList :=
      .wholeFirst hdigits (.inl rfl) (.inl rfl) (.single (.inl rfl))
    have hok : (tokenize "09.f" {}).toExcept.isOk = true := by decide +kernel
    rcases (readsSingly_floating "09.f" {}).2 .single (.inl hliteral) with hread | ⟨e, he, -⟩
    · exact hread
    · rw [he] at hok
      cases hok
  · rintro ⟨t, ht, hkind⟩
    obtain ⟨⟨w, hliteral⟩, -⟩ := (readsSingly_floating "1_.5" {}).1 t ht (.inr hkind)
    have hrefused : Floating.decode w "1_.5".toList = .error .misplacedUnderscore := by
      cases w <;> rfl
    rcases hliteral with hliteral | ⟨e, hliteral⟩
    · rcases Floating.decode_decimalFloating hliteral with ⟨v, h⟩ | h | h
      all_goals cases hrefused.symm.trans h
    · rcases Floating.decode_hexFloating hliteral with ⟨v, h⟩ | h | h | ⟨h, -⟩
      all_goals cases hrefused.symm.trans h

end JavaSyntax
