import JavaSyntax.Proofs.Lexer.Numerals

/-!
# Underscores between digits

A number with a point, a mark or a sign in it is read as a whole, but what stands on either side
of such a character is read as if it stood alone: underscores at its ends are refused, and the
others are removed. So the groups of digits of a number are looked at one by one.
-/

namespace JavaSyntax

/-! ### Groups of digits -/

section Groups

variable {isDigit : Char → Bool} {pending : Bool} {c : Char} {cs ds done more out : List Char}

/-- Behind a character that is no digit, underscores are as bad as at the start. -/
theorem removeUnderscores_behind (hc : isDigit c = false) :
    removeUnderscores isDigit (done ++ c :: more) pending cs =
      (removeUnderscores isDigit done pending cs).map ((c :: more).reverse ++ ·) := by
  induction cs generalizing done pending with
  | nil =>
    cases pending with
    | true => rfl
    | false =>
      rw [removeUnderscores, removeUnderscores, if_neg Bool.false_ne_true,
        if_neg Bool.false_ne_true, List.reverse_append]
      rfl
  | cons d cs ih =>
    have hhead : (done ++ c :: more).head?.any isDigit = done.head?.any isDigit := by
      cases done with
      | nil => simpa using hc
      | cons => rfl
    rw [removeUnderscores, removeUnderscores, hhead]
    split
    · split
      · exact ih
      · rfl
    split
    · rfl
    · exact @ih false (d :: done)

/-- A character that is neither a digit nor an underscore parts two groups. -/
theorem removeUnderscores_append_cons (hc : isDigit c = false) (hne : c ≠ '_') :
    removeUnderscores isDigit done pending (cs ++ c :: ds) =
      removeUnderscores isDigit done pending cs >>= fun front =>
        (stripUnderscores isDigit ds).map (front ++ c :: ·) := by
  induction cs generalizing done pending with
  | nil =>
    rw [List.nil_append, removeUnderscores, removeUnderscores, if_neg hne, hc, Bool.not_false,
      Bool.and_true]
    cases pending with
    | true => rfl
    | false =>
      rw [if_neg Bool.false_ne_true, if_neg Bool.false_ne_true]
      have hbehind := @removeUnderscores_behind isDigit false c ds [] done hc
      rw [List.nil_append] at hbehind
      rw [hbehind, List.reverse_cons]
      simp only [List.append_assoc, List.singleton_append]
      rfl
  | cons d cs ih =>
    rw [List.cons_append, removeUnderscores, removeUnderscores]
    split
    · split
      · exact ih
      · rfl
    split
    · rfl
    · exact ih

/-- On either side of a character that is no digit underscores are removed independently. -/
theorem stripUnderscores_append_cons (hc : isDigit c = false) (hne : c ≠ '_') :
    stripUnderscores isDigit (cs ++ c :: ds) =
      stripUnderscores isDigit cs >>= fun front =>
        (stripUnderscores isDigit ds).map (front ++ c :: ·) :=
  removeUnderscores_append_cons hc hne

/-- If underscores can be removed, everything else is left. -/
theorem removeUnderscores_eq_ok (h : removeUnderscores isDigit done pending cs = .ok out) :
    out = done.reverse ++ cs.filter (· != '_') := by
  induction cs generalizing done pending with
  | nil =>
    rw [removeUnderscores] at h
    split at h
    · cases h
    · cases h
      simp
  | cons c cs ih =>
    rw [removeUnderscores] at h
    split at h
    · rename_i hc
      split at h
      · rw [ih h, List.filter_cons_of_neg (by simpa using hc)]
      · cases h
    · rename_i hc
      split at h
      · cases h
      · rw [ih h, List.filter_cons_of_pos (by simpa using hc)]
        simp

/-- All underscores stand between digits. -/
def WellSeparated (isDigit : Char → Bool) (cs : List Char) : Prop :=
  ∃ out, stripUnderscores isDigit cs = .ok out

/-- Underscores between digits can be removed. -/
theorem WellSeparated.stripUnderscores_eq (h : WellSeparated isDigit cs) :
    stripUnderscores isDigit cs = .ok (cs.filter (· != '_')) := by
  obtain ⟨out, hout⟩ := h
  rw [hout, removeUnderscores_eq_ok hout]
  rfl

/-- Without underscores there is nothing to separate. -/
theorem wellSeparated_nil : WellSeparated isDigit [] := ⟨[], rfl⟩

/-- Underscores stand between digits if they do on either side of another character. -/
theorem wellSeparated_append_cons_iff (hc : isDigit c = false) (hne : c ≠ '_') :
    WellSeparated isDigit (cs ++ c :: ds) ↔
      WellSeparated isDigit cs ∧ WellSeparated isDigit ds := by
  unfold WellSeparated
  rw [stripUnderscores_append_cons hc hne]
  constructor
  · rintro ⟨out, h⟩
    cases hfront : stripUnderscores isDigit cs with
    | error =>
      rw [hfront] at h
      cases h
    | ok front =>
      rw [hfront] at h
      cases hback : stripUnderscores isDigit ds with
      | error =>
        rw [hback] at h
        cases h
      | ok back => exact ⟨⟨front, rfl⟩, back, rfl⟩
  · rintro ⟨⟨front, hfront⟩, back, hback⟩
    rw [hfront, hback]
    exact ⟨front ++ c :: back, rfl⟩

/-- A character at the start that is no digit is no place for an underscore. -/
theorem wellSeparated_cons_iff (hc : isDigit c = false) (hne : c ≠ '_') :
    WellSeparated isDigit (c :: ds) ↔ WellSeparated isDigit ds := by
  have happend := @wellSeparated_append_cons_iff isDigit c [] ds hc hne
  rw [List.nil_append] at happend
  exact happend.trans (and_iff_right wellSeparated_nil)

end Groups

/-! ### Digits of a base -/

/-- Digits of a base with any number of underscores between two of them. -/
def IsDigits (base : Nat) (cs : List Char) : Prop := ∃ m, Digits base cs m

/-- Digits of a base and underscores in any order. -/
def LooseDigits (base : Nat) (cs : List Char) : Prop :=
  ∀ c ∈ cs, c = '_' ∨ ∃ d, IsDigit base d c

section Bases

variable {base m : Nat} {cs rest done out q : List Char}

/-- There is a digit among digits. -/
theorem IsDigits.ne_nil (h : IsDigits base cs) : cs ≠ [] := by
  obtain ⟨m, h⟩ := h
  obtain ⟨c, rest, d, rfl, -⟩ := h.exists_eq_cons
  exact List.cons_ne_nil c rest

/-- Underscores between digits may stand anywhere. -/
theorem IsDigits.loose (h : IsDigits base cs) : LooseDigits base cs := by
  obtain ⟨m, h⟩ := h
  exact h.eq_underscore_or_isDigit

/-- There may be no digits. -/
theorem looseDigits_nil : LooseDigits base [] := nofun

/-- One more digit or underscore may stand before digits. -/
theorem LooseDigits.cons {c : Char} (hc : c = '_' ∨ ∃ d, IsDigit base d c)
    (h : LooseDigits base cs) : LooseDigits base (c :: cs) := by
  rintro d (_ | ⟨_, hd⟩)
  · exact hc
  · exact h d hd

/-- The underscores of a number stand between its digits. -/
theorem Digits.wellSeparated (h : Digits base cs m) (hbase : base ≤ 16) :
    WellSeparated (isDigitOf base) cs := ⟨_, h.stripUnderscores hbase⟩

/-- Digits and underscores that are accepted behind digits go on with them. The digits before the
place are `q`, of which `done` is kept. -/
theorem Digits.of_looseDigits {k : Nat} (hbase : base ≤ 16) (hq : Digits base q m)
    (hdone : done.head?.any (isDigitOf base) = true) (hrest : LooseDigits base rest)
    (hremove : removeUnderscores (isDigitOf base) done (0 < k) rest = .ok out) :
    IsDigits base (q ++ List.replicate k '_' ++ rest) := by
  induction rest generalizing q done k m with
  | nil =>
    rw [removeUnderscores] at hremove
    split at hremove
    · cases hremove
    · rename_i hk
      obtain rfl : k = 0 := by simpa using hk
      exact ⟨m, by simpa using hq⟩
  | cons c rest ih =>
    have hloose : LooseDigits base rest := fun d hd => hrest d (List.mem_cons_of_mem _ hd)
    rcases hrest c List.mem_cons_self with rfl | ⟨d, hd⟩
    · rw [removeUnderscores, if_pos rfl, if_pos hdone] at hremove
      have hnext := @ih m done q (k + 1) hq hdone hloose (by simpa using hremove)
      simpa [List.replicate_succ'] using hnext
    · rw [removeUnderscores, if_neg (hd.ne_underscore hbase), hd.isDigitOf hbase, Bool.not_true,
        Bool.and_false, if_neg Bool.false_ne_true] at hremove
      have hkept : (c :: done).head?.any (isDigitOf base) = true := hd.isDigitOf hbase
      have hnext := @ih _ (c :: done) _ 0 (hq.next k hd) hkept hloose (by simpa using hremove)
      simpa using hnext

/-- Digits and underscores that are accepted are digits with underscores between them. -/
theorem LooseDigits.isDigits (h : LooseDigits base cs) (hbase : base ≤ 16) (hsome : cs ≠ [])
    (hseparated : WellSeparated (isDigitOf base) cs) : IsDigits base cs := by
  obtain ⟨out, hout⟩ := hseparated
  obtain ⟨c, cs, rfl⟩ := List.exists_cons_of_ne_nil hsome
  have hloose : LooseDigits base cs := fun d hd => h d (List.mem_cons_of_mem _ hd)
  rw [stripUnderscores] at hout
  rcases h c List.mem_cons_self with rfl | ⟨d, hd⟩
  · cases hout
  · rw [removeUnderscores, if_neg (hd.ne_underscore hbase), Bool.false_and,
      if_neg Bool.false_ne_true] at hout
    have hkept : [c].head?.any (isDigitOf base) = true := hd.isDigitOf hbase
    have hdigits := @Digits.of_looseDigits base d cs [c] out [c] 0 hbase (.digit hd) hkept hloose
      (by simpa using hout)
    simpa using hdigits

end Bases

/-! ### Decimal digits -/

/-- The digits in the base ten are the decimal ones. -/
theorem isDigitOf_ten : isDigitOf 10 = Char.isDigit := by
  funext c
  have hiff : Char.isDigit c = true ↔ '0' ≤ c ∧ c ≤ '9' := by
    rw [Char.isDigit, Bool.and_eq_true, decide_eq_true_iff, decide_eq_true_iff]
    rfl
  rw [Bool.eq_iff_iff, hiff, isDigitOf, digitValue?]
  split
  · rename_i hc
    have hle : c.toNat ≤ 57 := hc.2
    have hlt : decide (c.toNat - '0'.toNat < 10) = true := by
      simp only [decide_eq_true_iff]
      change c.toNat - 48 < 10
      omega
    rw [Option.filter_some, if_pos hlt]
    exact iff_of_true rfl hc
  · rename_i hc
    refine iff_of_false ?_ hc
    split
    · simp
    split
    · simp
    · simp

end JavaSyntax
