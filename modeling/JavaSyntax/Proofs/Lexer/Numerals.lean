import JavaSyntax.Lexer.Literal
import Mathlib.Algebra.Group.Nat.Defs

/-!
# Numerals

A numeral is a number in one of four bases, which its first characters choose, with underscores
between its digits. What a numeral is and which number it denotes is said here without the
lexer: digits are put together one by one. The decoder of integer literals accepts exactly the
numerals in the range of their type, and gives them the number that the low bits of the
magnitude mean.
-/

namespace JavaSyntax

/-! ### What numerals are -/

/-- A character is a digit of a base: a decimal digit or a letter in either case. -/
def IsDigit (base d : Nat) (c : Char) : Prop :=
  d < base ∧ (c = Nat.digitChar d ∨ c = (Nat.digitChar d).toUpper)

/-- Digits of a base with any number of underscores between two of them, and the number that
they denote. -/
inductive Digits (base : Nat) : List Char → Nat → Prop
  | digit {c : Char} {d : Nat} (hd : IsDigit base d c) : Digits base [c] d
  | next {cs : List Char} {m d : Nat} {c : Char} (h : Digits base cs m) (underscores : Nat)
      (hd : IsDigit base d c) :
      Digits base (cs ++ List.replicate underscores '_' ++ [c]) (m * base + d)

/-- A numeral: its base, its characters and the number that it denotes. A zero in front of other
digits makes it octal. -/
inductive Numeral : Radix → List Char → Nat → Prop
  | zero : Numeral .decimal ['0'] 0
  | decimal {cs : List Char} {m : Nat} (h : Digits 10 cs m) (hfirst : cs.head? ≠ some '0') :
      Numeral .decimal cs m
  | octal {cs : List Char} {m : Nat} (h : Digits 8 ('0' :: cs) m) (hmore : cs ≠ []) :
      Numeral .octal ('0' :: cs) m
  | hexadecimal {x : Char} {cs : List Char} {m : Nat} (hx : x = 'x' ∨ x = 'X')
      (h : Digits 16 cs m) : Numeral .hexadecimal ('0' :: x :: cs) m
  | binary {b : Char} {cs : List Char} {m : Nat} (hb : b = 'b' ∨ b = 'B') (h : Digits 2 cs m) :
      Numeral .binary ('0' :: b :: cs) m

namespace IntegerWidth

/-- How many bits the values of a type have. -/
def bits : IntegerWidth → Nat
  | int => 32
  | long => 64

/-- The largest magnitude of a literal. A decimal literal may denote the opposite of the least
value; in the other bases all bits can be written. -/
def largest (w : IntegerWidth) : Radix → Nat
  | .decimal => 2 ^ (w.bits - 1)
  | _ => 2 ^ w.bits - 1

/-- The number that the low bits of a magnitude mean, with a sign. -/
def signed (w : IntegerWidth) (m : Nat) : Int := (BitVec.ofNat w.bits m).toInt

end IntegerWidth

/-! ### Digits -/

/-- The digits of a base are those of the base sixteen that are below it. -/
theorem digitValue?_eq_some {base d : Nat} {c : Char} (hbase : base ≤ 16) :
    digitValue? base c = some d ↔ digitValue? 16 c = some d ∧ d < base := by
  unfold digitValue?
  simp only [Option.filter_eq_some_iff, decide_eq_true_eq]
  constructor
  · rintro ⟨hvalue, hd⟩
    exact ⟨⟨hvalue, by omega⟩, hd⟩
  · rintro ⟨⟨hvalue, -⟩, hd⟩
    exact ⟨hvalue, hd⟩

/-- A character with a value is a digit of it. -/
theorem isDigit_of_digitValue? {d : Nat} {c : Char} (h : digitValue? 16 c = some d) :
    IsDigit 16 d c := by
  have hlow : ∀ k < 10, Char.ofNat (48 + k) = Nat.digitChar k := by decide
  have hletter : ∀ k < 6, Char.ofNat (97 + k) = Nat.digitChar (k + 10) ∧
      Char.ofNat (65 + k) = (Nat.digitChar (k + 10)).toUpper := by decide
  unfold digitValue? at h
  obtain ⟨hvalue, hd⟩ := Option.filter_eq_some_iff.mp h
  refine ⟨of_decide_eq_true hd, ?_⟩
  split at hvalue
  · rename_i hc
    obtain rfl := Option.some.inj hvalue
    have hle : 48 ≤ c.toNat ∧ c.toNat ≤ 57 := hc
    have hof := hlow (c.toNat - 48) (by omega)
    rw [Nat.add_sub_cancel' hle.1, Char.ofNat_toNat] at hof
    exact .inl hof
  split at hvalue
  · rename_i hc
    obtain rfl := Option.some.inj hvalue
    have hle : 97 ≤ c.toNat ∧ c.toNat ≤ 102 := hc
    have hof := (hletter (c.toNat - 97) (by omega)).1
    rw [Nat.add_sub_cancel' hle.1, Char.ofNat_toNat] at hof
    exact .inl hof
  split at hvalue
  · rename_i hc
    obtain rfl := Option.some.inj hvalue
    have hle : 65 ≤ c.toNat ∧ c.toNat ≤ 70 := hc
    have hof := (hletter (c.toNat - 65) (by omega)).2
    rw [Nat.add_sub_cancel' hle.1, Char.ofNat_toNat] at hof
    exact .inr hof
  · cases hvalue

/-- The value of a character is looked up correctly in every base. -/
theorem digitValue?_eq_some_iff {base d : Nat} {c : Char} (hbase : base ≤ 16) :
    digitValue? base c = some d ↔ IsDigit base d c := by
  rw [digitValue?_eq_some hbase]
  constructor
  · rintro ⟨hvalue, hd⟩
    exact ⟨hd, (isDigit_of_digitValue? hvalue).2⟩
  · have hvalues : ∀ k < 16, digitValue? 16 (Nat.digitChar k) = some k ∧
        digitValue? 16 (Nat.digitChar k).toUpper = some k := by decide
    rintro ⟨hd, rfl | rfl⟩
    · exact ⟨(hvalues d (by omega)).1, hd⟩
    · exact ⟨(hvalues d (by omega)).2, hd⟩

/-- What holds of the digits of a base one by one. -/
theorem IsDigit.elim {base d : Nat} {c : Char} {P : Char → Prop} (h : IsDigit base d c)
    (hdigits : ∀ k < base, P (Nat.digitChar k) ∧ P (Nat.digitChar k).toUpper) : P c := by
  obtain ⟨hd, rfl | rfl⟩ := h
  · exact (hdigits d hd).1
  · exact (hdigits d hd).2

/-- No base is larger than sixteen. -/
theorem Radix.base_le (radix : Radix) : radix.base ≤ 16 := by
  cases radix <;> decide

/-- A digit is tested to be one. -/
theorem IsDigit.isDigitOf {base d : Nat} {c : Char} (h : IsDigit base d c) (hbase : base ≤ 16) :
    isDigitOf base c = true := by
  rw [JavaSyntax.isDigitOf, (digitValue?_eq_some_iff hbase).mpr h, Option.isSome_some]

/-- An underscore is no digit. -/
theorem IsDigit.ne_underscore {base d : Nat} {c : Char} (h : IsDigit base d c)
    (hbase : base ≤ 16) : c ≠ '_' := by
  rintro rfl
  have hvalue := ((digitValue?_eq_some hbase).mp ((digitValue?_eq_some_iff hbase).mpr h)).1
  cases hvalue

/-! ### Underscores -/

section Underscores

variable {base m : Nat} {cs done rest out : List Char} {pending : Bool}

/-- Underscores after a digit are passed over. -/
theorem removeUnderscores_replicate (isDigit : Char → Bool) (k : Nat)
    (hdone : done.head?.any isDigit = true) :
    removeUnderscores isDigit done pending (List.replicate k '_' ++ rest) =
      removeUnderscores isDigit done (pending || 0 < k) rest := by
  induction k generalizing pending with
  | zero => simp
  | succ k ih =>
    rw [List.replicate_succ, List.cons_append, removeUnderscores, if_pos rfl, if_pos hdone, ih]
    simp

/-- Digits are kept, and the underscores between them are passed over. -/
theorem Digits.removeUnderscores_append (h : Digits base cs m) (hbase : base ≤ 16)
    (rest : List Char) :
    ∃ kept, kept.head?.any (isDigitOf base) = true ∧ kept.reverse = cs.filter (· != '_') ∧
      removeUnderscores (isDigitOf base) [] false (cs ++ rest) =
        removeUnderscores (isDigitOf base) kept false rest := by
  induction h generalizing rest with
  | @digit c d hd =>
    have hne := hd.ne_underscore hbase
    refine ⟨[c], hd.isDigitOf hbase, ?_, ?_⟩
    · simp [hne]
    · rw [List.singleton_append, removeUnderscores, if_neg hne, Bool.false_and,
        if_neg Bool.false_ne_true]
  | @next cs m d c _ k hd ih =>
    have hne := hd.ne_underscore hbase
    obtain ⟨kept, hkept, hfilter, hremove⟩ := ih (List.replicate k '_' ++ c :: rest)
    refine ⟨c :: kept, hd.isDigitOf hbase, ?_, ?_⟩
    · simp [hfilter, hne]
    · rw [List.append_assoc, List.append_assoc, List.singleton_append, hremove,
        removeUnderscores_replicate _ _ hkept, removeUnderscores, if_neg hne, hd.isDigitOf hbase,
        Bool.not_true, Bool.and_false, if_neg Bool.false_ne_true]

/-- The underscores between digits are removed. -/
theorem Digits.stripUnderscores (h : Digits base cs m) (hbase : base ≤ 16) :
    stripUnderscores (isDigitOf base) cs = .ok (cs.filter (· != '_')) := by
  obtain ⟨kept, -, hfilter, hremove⟩ := h.removeUnderscores_append hbase []
  rw [List.append_nil] at hremove
  rw [JavaSyntax.stripUnderscores, hremove, removeUnderscores, if_neg Bool.false_ne_true, hfilter]

/-! ### Magnitudes -/

/-- Digits are added one after the other. -/
theorem addDigits_append (radix : Radix) (n : Nat) (cs ds : List Char) :
    addDigits radix n (cs ++ ds) = addDigits radix n cs >>= fun m => addDigits radix m ds := by
  induction cs generalizing n with
  | nil => rfl
  | cons c cs ih =>
    rw [List.cons_append, addDigits, addDigits]
    cases digitValue? radix.base c with
    | none => rfl
    | some d =>
      dsimp only
      split
      · exact ih _
      · rfl

/-- One more digit is added as long as the sum is in bounds. -/
theorem addDigits_singleton {radix : Radix} {n d : Nat} {c : Char} (hd : IsDigit radix.base d c)
    (hlt : n * radix.base + d < magnitudeBound) :
    addDigits radix n [c] = .ok (n * radix.base + d) := by
  rw [addDigits, (digitValue?_eq_some_iff radix.base_le).mpr hd]
  exact if_pos hlt

/-- Digits are added up to the number that they denote, if it is a word. -/
theorem Digits.addDigits {radix : Radix} (h : Digits radix.base cs m) (hlt : m < magnitudeBound) :
    addDigits radix 0 (cs.filter (· != '_')) = .ok m := by
  induction h with
  | @digit c d hd =>
    have hne := hd.ne_underscore radix.base_le
    rw [List.filter_cons_of_pos (by simpa using hne), List.filter_nil,
      addDigits_singleton hd (by omega), Nat.zero_mul, Nat.zero_add]
  | @next cs m d c _ k hd ih =>
    have hne := hd.ne_underscore radix.base_le
    have hbase : 0 < radix.base := by cases radix <;> decide
    have hle : m ≤ m * radix.base := Nat.le_mul_of_pos_right m hbase
    have hfilter : (cs ++ List.replicate k '_' ++ [c]).filter (· != '_') =
        cs.filter (· != '_') ++ [c] := by simp [hne]
    rw [hfilter, addDigits_append, ih (by omega)]
    exact addDigits_singleton hd hlt

end Underscores

/-! ### Digits that were read -/

section Reading

variable {radix : Radix} {m v : Nat} {q done rest out : List Char}

/-- What is kept already stays in front. -/
theorem exists_append_of_removeUnderscores {isDigit : Char → Bool} {pending : Bool}
    (h : removeUnderscores isDigit done pending rest = .ok out) :
    ∃ more, out = done.reverse ++ more := by
  induction rest generalizing done pending with
  | nil =>
    rw [removeUnderscores] at h
    split at h
    · cases h
    · cases h
      exact ⟨[], (List.append_nil _).symm⟩
  | cons c rest ih =>
    rw [removeUnderscores] at h
    split at h
    · split at h
      · exact ih h
      · cases h
    split at h
    · cases h
    · obtain ⟨more, rfl⟩ := ih h
      exact ⟨c :: more, by rw [List.reverse_cons, List.append_assoc, List.singleton_append]⟩

/-- A sum that was reached went over a digit. -/
theorem exists_isDigit_of_addDigits {n : Nat} {c : Char} {cs : List Char}
    (h : addDigits radix n (c :: cs) = .ok m) :
    ∃ d, IsDigit radix.base d c ∧ addDigits radix n [c] = .ok (n * radix.base + d) := by
  rw [addDigits] at h
  cases hvalue : digitValue? radix.base c with
  | none =>
    rw [hvalue] at h
    cases h
  | some d =>
    rw [hvalue] at h
    dsimp only at h
    have hd := (digitValue?_eq_some_iff radix.base_le).mp hvalue
    by_cases hlt : n * radix.base + d < magnitudeBound
    · exact ⟨d, hd, addDigits_singleton hd hlt⟩
    · rw [if_neg hlt] at h
      cases h

/-- If what follows digits and underscores is accepted, the whole consists of digits with
underscores between them. The digits before the place are `q`, of which `done` is kept. -/
theorem Digits.of_removeUnderscores {k : Nat} (hq : Digits radix.base q v)
    (hdone : JavaSyntax.addDigits radix 0 done.reverse = .ok v)
    (hremove : removeUnderscores (isDigitOf radix.base) done (0 < k) rest = .ok out)
    (hsum : JavaSyntax.addDigits radix 0 out = .ok m) :
    Digits radix.base (q ++ List.replicate k '_' ++ rest) m := by
  induction rest generalizing q done k v with
  | nil =>
    rw [removeUnderscores] at hremove
    split at hremove
    · cases hremove
    · rename_i hk
      obtain rfl : k = 0 := by simpa using hk
      cases hremove
      obtain rfl : v = m := Except.ok.inj (hdone.symm.trans hsum)
      simpa using hq
  | cons c rest ih =>
    rw [removeUnderscores] at hremove
    split at hremove
    · rename_i hc
      subst hc
      split at hremove
      · have hnext := ih (k := k + 1) hq hdone (by simpa using hremove)
        simpa [List.replicate_succ'] using hnext
      · cases hremove
    split at hremove
    · cases hremove
    -- The sum of everything is known to be reached, so it was reached at this character.
    obtain ⟨more, hout⟩ := exists_append_of_removeUnderscores hremove
    have hpassed := hsum
    rw [hout, List.reverse_cons, List.append_assoc, addDigits_append, hdone] at hpassed
    obtain ⟨d, hd, hadd⟩ := exists_isDigit_of_addDigits hpassed
    have hkept : JavaSyntax.addDigits radix 0 (c :: done).reverse = .ok (v * radix.base + d) := by
      rw [List.reverse_cons, addDigits_append, hdone]
      exact hadd
    have hnext := ih (k := 0) (.next hq k hd) hkept (by simpa using hremove)
    simpa using hnext

/-- Digits that were added up are digits with underscores between them. -/
theorem Digits.of_stripUnderscores {cs : List Char}
    (hstrip : JavaSyntax.stripUnderscores (isDigitOf radix.base) cs = .ok out)
    (hsome : out ≠ []) (hsum : JavaSyntax.addDigits radix 0 out = .ok m) :
    Digits radix.base cs m := by
  rw [JavaSyntax.stripUnderscores] at hstrip
  cases cs with
  | nil =>
    cases hstrip
    exact absurd rfl hsome
  | cons c cs =>
    rw [removeUnderscores] at hstrip
    split at hstrip
    · cases hstrip
    rw [Bool.false_and, if_neg Bool.false_ne_true] at hstrip
    obtain ⟨more, rfl⟩ := exists_append_of_removeUnderscores hstrip
    obtain ⟨d, hd, hadd⟩ := exists_isDigit_of_addDigits hsum
    exact Digits.of_removeUnderscores (k := 0) (.digit hd) (by simpa using hadd) hstrip hsum

end Reading

/-! ### Bases -/

/-- Only digits and underscores stand in a number. -/
theorem Digits.eq_underscore_or_isDigit {base m : Nat} {cs : List Char} (h : Digits base cs m) :
    ∀ c ∈ cs, c = '_' ∨ ∃ d, IsDigit base d c := by
  induction h with
  | digit hd =>
    intro c hc
    obtain rfl := List.mem_singleton.mp hc
    exact .inr ⟨_, hd⟩
  | next _ k hd ih =>
    intro c hc
    rcases List.mem_append.mp hc with hc | hc
    · rcases List.mem_append.mp hc with hc | hc
      · exact ih c hc
      · exact .inl (List.eq_of_mem_replicate hc)
    · obtain rfl := List.mem_singleton.mp hc
      exact .inr ⟨_, hd⟩

/-- Digits start with a digit. -/
theorem Digits.exists_eq_cons {base m : Nat} {cs : List Char} (h : Digits base cs m) :
    ∃ c rest d, cs = c :: rest ∧ IsDigit base d c := by
  induction h with
  | digit hd => exact ⟨_, [], _, rfl, hd⟩
  | next _ k _ ih =>
    obtain ⟨c, rest, d, rfl, hd⟩ := ih
    exact ⟨c, _, d, rfl, hd⟩

/-- A single character that is a number is a digit. -/
theorem Digits.isDigit_of_singleton {base m : Nat} {c : Char} (h : Digits base [c] m) :
    IsDigit base m c := by
  generalize hcs : [c] = cs at h
  cases h with
  | digit hd =>
    obtain rfl := List.singleton_inj.mp hcs
    exact hd
  | next h k _ =>
    obtain ⟨b, rest, _, rfl, _⟩ := h.exists_eq_cons
    simp at hcs

/-- In the base eight, what follows the zero does not choose another base. -/
theorem Digits.splitRadix_octal {c : Char} {cs : List Char} {m : Nat}
    (h : Digits 8 ('0' :: c :: cs) m) : splitRadix ('0' :: c :: cs) = (.octal, '0' :: c :: cs) := by
  have hletters : ∀ b ∈ ['x', 'X', 'b', 'B'], b ≠ '_' ∧ digitValue? 8 b = none := by
    simp only [List.forall_mem_cons, List.not_mem_nil, false_implies, implies_true]
    decide
  have hc : c ∉ ['x', 'X', 'b', 'B'] := by
    intro hmem
    obtain ⟨hne, hnone⟩ := hletters c hmem
    obtain ⟨d, hd⟩ := (h.eq_underscore_or_isDigit c (by simp)).resolve_left hne
    rw [(digitValue?_eq_some_iff (by decide)).mpr hd] at hnone
    cases hnone
  simp only [List.mem_cons, List.not_mem_nil, or_false, not_or] at hc
  unfold splitRadix
  grind

/-- A numeral consists of digits of the base that its first characters choose. -/
theorem numeral_iff {radix : Radix} {cs : List Char} {m : Nat} :
    Numeral radix cs m ↔ Digits radix.base (splitRadix cs).2 m ∧ (splitRadix cs).1 = radix := by
  constructor
  · rintro (_ | ⟨h, hfirst⟩ | ⟨h, hmore⟩ | ⟨rfl | rfl, h⟩ | ⟨rfl | rfl, h⟩)
    · exact ⟨.digit ⟨by decide, .inl rfl⟩, rfl⟩
    · have hsplit : splitRadix cs = (.decimal, cs) := by
        unfold splitRadix
        split <;> first | rfl | exact absurd rfl hfirst
      rw [hsplit]
      exact ⟨h, rfl⟩
    · obtain ⟨c, cs, rfl⟩ := List.exists_cons_of_ne_nil hmore
      rw [h.splitRadix_octal]
      exact ⟨h, rfl⟩
    all_goals exact ⟨h, rfl⟩
  · rintro ⟨h, rfl⟩
    unfold splitRadix at h ⊢
    split at h
    · exact .hexadecimal (.inl rfl) h
    · exact .hexadecimal (.inr rfl) h
    · exact .binary (.inl rfl) h
    · exact .binary (.inr rfl) h
    · exact .octal h (List.cons_ne_nil _ _)
    · rename_i hoctal
      obtain ⟨c, rest, d, rfl, hd⟩ := h.exists_eq_cons
      by_cases hc : c = '0'
      · subst hc
        cases rest with
        | nil =>
          have hm := (digitValue?_eq_some_iff (by decide)).mpr h.isDigit_of_singleton
          obtain rfl : 0 = m := Option.some.inj hm
          exact .zero
        | cons c rest => exact absurd rfl (hoctal c rest)
      · exact .decimal h (by simpa using hc)

/-! ### Values -/

namespace IntegerWidth

/-- A type of so many bits has that power of two of values. -/
theorem count_eq (w : IntegerWidth) : w.count = 2 ^ w.bits := by
  cases w <;> rfl

/-- The low bits of a magnitude, with a sign, are the remainder that is nearest to zero. -/
theorem wrap_eq_signed (w : IntegerWidth) (m : Nat) : w.wrap m = w.signed m := by
  rw [wrap, signed, count_eq, BitVec.toInt_ofNat']

/-- A type admits magnitudes up to the largest. -/
theorem admits_iff (w : IntegerWidth) (radix : Radix) (m : Nat) :
    w.admits radix m = true ↔ m ≤ w.largest radix := by
  have hbits : 0 < w.bits := by cases w <;> decide
  have hcount : w.count = 2 * 2 ^ (w.bits - 1) := by
    rw [count_eq, ← Nat.pow_succ', Nat.succ_eq_add_one, Nat.sub_add_cancel hbits]
  have hpos := Nat.two_pow_pos w.bits
  cases radix with
  | decimal =>
    rw [admits, largest, decide_eq_true_iff, hcount]
    omega
  | octal | hexadecimal | binary =>
    change decide (m < w.count) = true ↔ m ≤ 2 ^ w.bits - 1
    rw [decide_eq_true_iff, count_eq]
    omega

/-- All magnitudes that are admitted are in the bounds of the decoder. -/
theorem largest_lt (w : IntegerWidth) (radix : Radix) : w.largest radix < magnitudeBound := by
  cases w <;> cases radix <;> decide

end IntegerWidth

/-- The steps of the decoder after it has found the base. -/
theorem decodeIntegerBody_eq {w : IntegerWidth} {body digits : List Char} {radix : Radix}
    (hsplit : splitRadix body = (radix, digits)) :
    decodeIntegerBody w body =
      stripUnderscores (isDigitOf radix.base) digits >>= fun kept =>
        if kept.isEmpty then .error .missingDigits
        else addDigits radix 0 kept >>= fun m =>
          if w.admits radix m then .ok (.integer (w.wrap m) radix) else .error .outOfRange := by
  unfold decodeIntegerBody
  rw [hsplit]
  dsimp only
  cases stripUnderscores (isDigitOf radix.base) digits with
  | error => rfl
  | ok kept => cases kept <;> rfl

/-- A numeral in the range of the type is accepted. -/
theorem Numeral.decodeIntegerBody_eq_ok {w : IntegerWidth} {radix : Radix} {body : List Char}
    {m : Nat} (h : Numeral radix body m) (hle : m ≤ w.largest radix) :
    decodeIntegerBody w body = .ok (.integer (w.signed m) radix) := by
  obtain ⟨hdigits, hradix⟩ := numeral_iff.mp h
  have hlt := Nat.lt_of_le_of_lt hle (w.largest_lt radix)
  obtain ⟨c, rest, d, hcons, hd⟩ := hdigits.exists_eq_cons
  have hsome : ((splitRadix body).2.filter (· != '_')).isEmpty = false := by
    rw [hcons, List.filter_cons_of_pos (by simpa using hd.ne_underscore radix.base_le)]
    rfl
  rw [decodeIntegerBody_eq (Prod.ext hradix rfl), hdigits.stripUnderscores radix.base_le]
  change (if ((splitRadix body).2.filter (· != '_')).isEmpty = true then _ else _) = _
  rw [hsome, if_neg Bool.false_ne_true, hdigits.addDigits hlt]
  change (if w.admits radix m = true then _ else _) = _
  rw [if_pos ((w.admits_iff radix m).mpr hle), w.wrap_eq_signed]

/-- What is accepted is a numeral in the range of the type. -/
theorem exists_numeral_of_decodeIntegerBody {w : IntegerWidth} {body : List Char}
    {value : LiteralValue} (h : decodeIntegerBody w body = .ok value) :
    ∃ radix m, Numeral radix body m ∧ m ≤ w.largest radix ∧
      value = .integer (w.signed m) radix := by
  generalize hsplit : splitRadix body = split at h
  obtain ⟨radix, digits⟩ := split
  rw [decodeIntegerBody_eq hsplit] at h
  cases hstrip : stripUnderscores (isDigitOf radix.base) digits with
  | error =>
    rw [hstrip] at h
    cases h
  | ok kept =>
    rw [hstrip] at h
    change (if kept.isEmpty = true then _ else _) = _ at h
    split at h
    · cases h
    rename_i hsome
    cases hsum : addDigits radix 0 kept with
    | error =>
      rw [hsum] at h
      cases h
    | ok m =>
      rw [hsum] at h
      change (if w.admits radix m = true then _ else _) = _ at h
      split at h
      · rename_i hadmits
        cases h
        refine ⟨radix, m, numeral_iff.mpr ?_, (w.admits_iff radix m).mp hadmits, ?_⟩
        · rw [hsplit]
          exact ⟨.of_stripUnderscores hstrip (by simpa using hsome) hsum, rfl⟩
        · rw [w.wrap_eq_signed]
      · cases h

end JavaSyntax
