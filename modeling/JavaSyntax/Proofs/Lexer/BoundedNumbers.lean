import JavaSyntax.Proofs.Lexer.BoundedDecoders

/-!
# Numbers with bounds

The decoders of numbers do the same with bounds as without them. They cut off prefixes and suffixes
that they have seen, and the places around an underscore lie in the number. Only the suffix of a
`long` is cut off unseen.
-/

namespace JavaSyntax

namespace Bounded

/-! ### Underscores -/

section Numbers

variable {isDigit : Char → Bool} {pending : Bool} {chars before kept cs rest : List Char}

/-- What stands before an index in a list can be taken. -/
theorem front?_append {α : Type} (front back : List α) :
    front? front.length (front ++ back) = some front := by
  rw [front?, List.length_append, if_pos (Nat.le_add_right _ _), List.take_left]

/-- What stands behind an index in a list can be taken. -/
theorem back?_append {α : Type} (front back : List α) :
    back? front.length (front ++ back) = some back := by
  rw [back?, List.length_append, if_pos (Nat.le_add_right _ _), List.drop_left]

/-- Underscores behind which no digit comes are refused. -/
theorem removeUnderscores_of_find? (h : (rest.find? (· != '_')).any isDigit = false) :
    removeUnderscores isDigit kept true rest = .error .misplacedUnderscore := by
  induction rest with
  | nil => rfl
  | cons c rest ih =>
    rw [removeUnderscores]
    by_cases hc : c = '_'
    · rw [if_pos hc]
      rw [List.find?_cons_of_neg (by simpa using hc)] at h
      split
      · exact ih h
      · rfl
    · rw [if_neg hc]
      rw [List.find?_cons_of_pos (by simpa using hc)] at h
      have hdigit : isDigit c = false := h
      rw [hdigit]
      rfl

/-- Looking at both sides of an underscore is the same as waiting for the digit behind it. -/
theorem stripFrom?_eq (hchars : chars = before ++ rest)
    (hkept : before.reverse.find? (· != '_') = kept.head?)
    (hpending : pending = true → (rest.find? (· != '_')).any isDigit = true) :
    stripFrom? isDigit chars kept before.length rest =
      total (removeUnderscores isDigit kept pending rest) := by
  induction rest generalizing before kept pending with
  | nil =>
    cases pending with
    | true => cases hpending rfl
    | false => rfl
  | cons c rest ih =>
    have hnext : chars = (before ++ [c]) ++ rest := by
      rw [hchars, List.append_assoc, List.singleton_append]
    have hlength : before.length + 1 = (before ++ [c]).length := by simp
    rw [stripFrom?, removeUnderscores]
    by_cases hc : c = '_'
    · subst hc
      rw [if_pos rfl, if_pos rfl]
      have hfront : front? before.length chars = some before := by
        rw [hchars]
        exact front?_append before _
      have hback : back? (before.length + 1) chars = some rest := by
        rw [hnext, hlength]
        exact back?_append _ rest
      have hsame : (before ++ ['_']).reverse.find? (· != '_') = kept.head? := by
        rw [List.reverse_append, List.reverse_singleton, List.singleton_append,
          List.find?_cons_of_neg (by decide), hkept]
      rw [hfront, hback, step_some_bind, step_some_bind, hkept]
      dsimp only
      cases kept.head?.any isDigit with
      | false => rfl
      | true =>
        rw [Bool.true_and, if_pos rfl]
        cases hafter : (rest.find? (· != '_')).any isDigit with
        | false =>
          rw [removeUnderscores_of_find? hafter]
          rfl
        | true =>
          rw [hlength]
          exact ih hnext hsame fun _ => hafter
    · rw [if_neg hc, if_neg hc]
      have hsame : (before ++ [c]).reverse.find? (· != '_') = (c :: kept).head? := by
        rw [List.reverse_append, List.reverse_singleton, List.singleton_append,
          List.find?_cons_of_pos (by simpa using hc), List.head?_cons]
      have hdigit : (pending && !isDigit c) = false := by
        cases pending with
        | false => rfl
        | true =>
          have hany := hpending rfl
          rw [List.find?_cons_of_pos (by simpa using hc)] at hany
          have hdigit : isDigit c = true := hany
          rw [hdigit]
          rfl
      rw [hdigit, if_neg Bool.false_ne_true, hlength]
      exact ih hnext hsame fun h => absurd h Bool.false_ne_true

/-- Underscores are removed as without bounds. -/
theorem stripUnderscores?_eq (isDigit : Char → Bool) (cs : List Char) :
    stripUnderscores? isDigit cs = total (stripUnderscores isDigit cs) :=
  @stripFrom?_eq isDigit false cs [] [] cs rfl rfl fun h => absurd h Bool.false_ne_true

/-! ### Integers -/

/-- The letters of a prefix may be written in either case. -/
theorem toLower_eq_iff (c : Char) :
    (c.toLower = '0' ↔ c = '0') ∧ (c.toLower = 'x' ↔ c = 'x' ∨ c = 'X') ∧
      (c.toLower = 'b' ↔ c = 'b' ∨ c = 'B') := by
  by_cases hc : c.toNat < 128
  · have hascii : ∀ n < 128, ((Char.ofNat n).toLower = '0' ↔ Char.ofNat n = '0') ∧
        ((Char.ofNat n).toLower = 'x' ↔ Char.ofNat n = 'x' ∨ Char.ofNat n = 'X') ∧
        ((Char.ofNat n).toLower = 'b' ↔ Char.ofNat n = 'b' ∨ Char.ofNat n = 'B') := by decide
    have hsmall := hascii c.toNat hc
    rwa [Char.ofNat_toNat] at hsmall
  · have hsame : c.toLower = c := by
      refine dif_neg fun h => hc ?_
      have hle : c.toNat ≤ 'Z'.toNat := h.2
      have hz : 'Z'.toNat = 90 := rfl
      omega
    have hne {d : Char} (hd : d.toNat < 128) : c ≠ d := by
      rintro rfl
      exact hc hd
    rw [hsame]
    refine ⟨Iff.rfl, iff_of_false (hne (by decide)) ?_, iff_of_false (hne (by decide)) ?_⟩
    · exact fun h => h.elim (hne (by decide)) (hne (by decide))
    · exact fun h => h.elim (hne (by decide)) (hne (by decide))

/-- Two characters of one byte each can be cut off. -/
theorem dropBytes?_two {c d : Char} (hc : c.utf8Size = 1) (hd : d.utf8Size = 1) (cs : List Char) :
    dropBytes? 2 (c :: d :: cs) = some cs := by
  have hlength : byteLength [c, d] = 2 := by simp [hc, hd]
  rw [← hlength]
  exact dropBytes?_append [c, d] cs

/-- Whether a text starts with a prefix of a letter in either case. -/
theorem isPrefixOf_lower (d : Char) (cs : List Char) :
    ['0', d].isPrefixOf (cs.map Char.toLower) = true ↔
      ∃ c rest, cs = '0' :: c :: rest ∧ c.toLower = d := by
  cases cs with
  | nil => simp
  | cons b cs =>
    cases cs with
    | nil => simp
    | cons c rest =>
      simp only [List.map_cons, List.isPrefixOf_cons_cons, List.isPrefixOf_nil_left, Bool.and_true,
        Bool.and_eq_true, beq_iff_eq, List.cons.injEq]
      constructor
      · rintro ⟨hb, hc⟩
        exact ⟨c, rest, ⟨(toLower_eq_iff b).1.mp hb.symm, rfl, rfl⟩, hc.symm⟩
      · rintro ⟨c', rest', ⟨rfl, rfl, rfl⟩, hc⟩
        exact ⟨rfl, hc.symm⟩

/-- The base of a number is found as without bounds. -/
theorem splitRadix?_eq (body : List Char) : splitRadix? body = some (splitRadix body) := by
  have hmarked {c d : Char} {rest : List Char} (hc : c.toLower = d) :
      ['0', d].isPrefixOf (('0' :: c :: rest).map Char.toLower) = true :=
    (isPrefixOf_lower d _).mpr ⟨c, rest, rfl, hc⟩
  have hother {d : Char} (hnone : ∀ c rest, body = '0' :: c :: rest → c.toLower ≠ d) :
      ¬ ['0', d].isPrefixOf (body.map Char.toLower) = true := fun h => by
    obtain ⟨c, rest, hbody, hc⟩ := (isPrefixOf_lower d body).mp h
    exact hnone c rest hbody hc
  unfold splitRadix
  split
  · rw [splitRadix?, if_pos (hmarked (by decide)), dropBytes?_two (by decide) (by decide)]
    rfl
  · rw [splitRadix?, if_pos (hmarked (by decide)), dropBytes?_two (by decide) (by decide)]
    rfl
  · rw [splitRadix?, if_neg (hother ?_), if_pos (hmarked (by decide)),
      dropBytes?_two (by decide) (by decide)]
    · rfl
    · rintro c rest ⟨⟩
      decide
  · rw [splitRadix?, if_neg (hother ?_), if_pos (hmarked (by decide)),
      dropBytes?_two (by decide) (by decide)]
    · rfl
    · rintro c rest ⟨⟩
      decide
  · rename_i c digits hx hX hb hB
    have hlong : 1 < byteLength ('0' :: c :: digits) := by
      have hzero : '0'.utf8Size = 1 := by decide
      have hpos := c.utf8Size_pos
      rw [byteLength_cons, byteLength_cons]
      omega
    rw [splitRadix?, if_neg (hother ?_), if_neg (hother ?_), if_pos ⟨hlong, rfl⟩]
    · rintro c' rest ⟨⟩ hlower
      rcases (toLower_eq_iff c).2.2.mp hlower with rfl | rfl
      · exact hb rfl
      · exact hB rfl
    · rintro c' rest ⟨⟩ hlower
      rcases (toLower_eq_iff c).2.1.mp hlower with rfl | rfl
      · exact hx rfl
      · exact hX rfl
  · rename_i hx hX hb hB hzero
    have hshort : ¬ (1 < byteLength body ∧ body.head? = some '0') := by
      rintro ⟨hlong, hhead⟩
      obtain ⟨rest, rfl⟩ := List.head?_eq_some_iff.mp hhead
      cases rest with
      | nil => exact absurd hlong (by decide)
      | cons c rest => exact hzero c rest rfl
    rw [splitRadix?, if_neg (hother ?_), if_neg (hother ?_), if_neg hshort]
    · exact fun c rest hbody => absurd hbody (hzero c rest)
    · exact fun c rest hbody => absurd hbody (hzero c rest)

/-- An integer is decoded as without bounds. -/
theorem decodeIntegerBody?_eq (width : IntegerWidth) (body : List Char) :
    decodeIntegerBody? width body = total (decodeIntegerBody width body) := by
  generalize hsplit : splitRadix body = split
  obtain ⟨radix, digits⟩ := split
  rw [decodeIntegerBody?, splitRadix?_eq, hsplit, decodeIntegerBody_eq hsplit, total_bind]
  rw [step_some_bind]
  dsimp only
  rw [stripUnderscores?_eq]
  congr 1
  funext kept
  split
  · rfl
  · rw [total_bind]
    congr 1
    funext magnitude
    split <;> rfl

/-- Only the suffix of a `long` can be missing. -/
theorem decodeInteger?_eq (width : IntegerWidth) (text : List Char) :
    decodeInteger? width text = unlessCut (decodeInteger width text) := by
  have hbody (body : List Char) : (decodeIntegerBody? width body).adapt LiteralFault.invalidNumber =
      unlessCut ((decodeIntegerBody width body).mapError .invalidNumber) := by
    rw [decodeIntegerBody?_eq, adapt_total]
    cases decodeIntegerBody width body <;> rfl
  cases width with
  | int => exact hbody text
  | long =>
    change (step ((minus? (byteLength text) 1).bind (takeBytes? · text)) >>= fun body =>
        (decodeIntegerBody? .long body).adapt LiteralFault.invalidNumber) =
      unlessCut (Literal.withoutSuffix text >>= fun body =>
        (decodeIntegerBody .long body).mapError .invalidNumber)
    rw [takeBytes?_minus, Literal.withoutSuffix]
    cases dropLastBytes? 1 text with
    | none => rfl
    | some body => exact hbody body

/-! ### Floating-point numbers -/

/-- A part of a text has no more bytes than the text. -/
theorem byteLength_le_append (front back : List Char) :
    byteLength front ≤ byteLength (front ++ back) := by
  rw [byteLength_append]
  exact Nat.le_add_right _ _

/-- The mark of the base sixteen is found as without bounds. -/
theorem isHexPrefixed?_eq (body : List Char) :
    isHexPrefixed? body = some (Floating.hexDigits? body).isSome := by
  rw [isHexPrefixed?]
  split
  · rename_i h
    obtain ⟨rest, rfl⟩ := List.head?_eq_some_iff.mp h.2
    cases rest with
    | nil => exact absurd h.1 (by decide)
    | cons c rest =>
      obtain ⟨b, hb⟩ := Option.isSome_iff_exists.mp (isSome_head?_utf8EncodeChar c)
      have hmark (d : Char) (hd : d.toNat < 128) : (b == UInt8.ofNat d.toNat) = (c == d) := by
        rw [Bool.eq_iff_iff, beq_iff_eq, beq_iff_eq, ← head?_utf8EncodeChar c d hd, hb,
          Option.some_inj]
      rw [byteAt?_one_eq, hb, Option.map_some, hmark 'x' (by decide), hmark 'X' (by decide)]
      congr 1
      unfold Floating.hexDigits?
      split
      · rename_i heq
        cases heq
        rfl
      · rename_i heq
        cases heq
        rfl
      · rename_i hx hX
        have hne : (c == 'x' || c == 'X') = false := by
          rw [Bool.or_eq_false_iff, beq_eq_false_iff_ne, beq_eq_false_iff_ne]
          exact ⟨fun h => hx rest (by rw [h]), fun h => hX rest (by rw [h])⟩
        rw [hne]
        rfl
  · rename_i h
    unfold Floating.hexDigits?
    split
    · refine absurd ⟨?_, rfl⟩ h
      exact Nat.lt_of_lt_of_le (by decide) (byteLength_le_append ['0', 'x'] _)
    · refine absurd ⟨?_, rfl⟩ h
      exact Nat.lt_of_lt_of_le (by decide) (byteLength_le_append ['0', 'X'] _)
    · rfl

/-- The digits behind a mark are there. -/
theorem dropBytes?_of_hexDigits? {body digits : List Char}
    (h : Floating.hexDigits? body = some digits) : dropBytes? 2 body = some digits := by
  unfold Floating.hexDigits? at h
  split at h
  · cases h
    exact dropBytes?_two (by decide) (by decide) _
  · cases h
    exact dropBytes?_two (by decide) (by decide) _
  · cases h

/-- A suffix is one byte long. -/
theorem dropSuffix?_eq (text : List Char) :
    dropSuffix? text = some (Floating.dropSuffix text) := by
  have hlast {c : Char} (hc : text.getLast? = some c) (hsize : c.utf8Size = 1)
      (hsuffix : isSuffix c = true) : dropSuffix? text = some text.dropLast := by
    obtain ⟨body, rfl⟩ := List.getLast?_eq_some_iff.mp hc
    rw [dropSuffix?, hc, Option.any_some, if_pos hsuffix, takeBytes?_minus,
      dropLastBytes?_eq_some_iff]
    exact ⟨[c], by rw [List.dropLast_concat], by rw [byteLength_cons, hsize]; rfl⟩
  unfold Floating.dropSuffix
  split
  · rename_i hc
    exact hlast hc (by decide) (by decide)
  · rename_i hc
    exact hlast hc (by decide) (by decide)
  · rename_i hc
    exact hlast hc (by decide) (by decide)
  · rename_i hc
    exact hlast hc (by decide) (by decide)
  · rename_i hf hF hd hD
    refine if_neg ?_
    cases hc : text.getLast? with
    | none => exact Bool.false_ne_true
    | some c =>
      rw [Option.any_some, isSuffix]
      intro h
      simp only [Bool.or_eq_true, beq_iff_eq] at h
      rcases h with ((rfl | rfl) | rfl) | rfl
      · exact hf hc
      · exact hF hc
      · exact hd hc
      · exact hD hc

/-- A digit other than zero is found as without bounds. -/
theorem hasNonzeroMantissa?_eq (body : List Char) :
    hasNonzeroMantissa? body = some (Floating.hasNonzeroMantissa body) := by
  rw [hasNonzeroMantissa?, isHexPrefixed?_eq]
  unfold Floating.hasNonzeroMantissa
  cases hhex : Floating.hexDigits? body with
  | none => rfl
  | some digits =>
    have hdrop := dropBytes?_of_hexDigits? hhex
    change (dropBytes? 2 body).bind _ = _
    rw [hdrop]
    rfl

/-- A number in the base sixteen is decoded as without bounds. -/
theorem decodeHex?_eq (digits : List Char) :
    decodeHex? digits = total (Floating.decodeHex digits) := by
  rw [decodeHex?, Floating.decodeHex_eq]
  cases splitAtFirst? Floating.startsExponent digits with
  | none => rfl
  | some parts =>
    dsimp only
    rw [total_bind, stripUnderscores?_eq]
    congr 1
    funext mantissa
    rw [total_bind, stripUnderscores?_eq]

/-- A floating-point number is decoded as without bounds. -/
theorem decodeFloatBody?_eq (width : FloatWidth) (body : List Char) :
    decodeFloatBody? width body = total (Floating.decodeBody width body) := by
  rw [decodeFloatBody?, isHexPrefixed?_eq, step_some_bind, Floating.decodeBody]
  cases hhex : Floating.hexDigits? body with
  | some digits =>
    dsimp only
    rw [Option.isSome_some, if_pos rfl, dropBytes?_of_hexDigits? hhex, step_some_bind,
      decodeHex?_eq]
  | none =>
    dsimp only
    rw [Option.isSome_none, if_neg Bool.false_ne_true, stripUnderscores?_eq]
    cases stripUnderscores Char.isDigit body with
    | error => rfl
    | ok cleaned =>
      rw [total_ok_bind]
      dsimp only [bind, Except.bind]
      cases Floating.readFloat? width cleaned <;> rfl

/-- A floating-point literal is decoded as without bounds. -/
theorem decodeFloat?_eq (width : FloatWidth) (text : List Char) :
    decodeFloat? width text = total (Floating.decode width text) := by
  rw [decodeFloat?, dropSuffix?_eq, step_some_bind, Floating.decode, decodeFloatBody?_eq]
  cases Floating.decodeBody width (Floating.dropSuffix text) with
  | error => rfl
  | ok read =>
    rw [total_ok_bind, hasNonzeroMantissa?_eq]
    dsimp only [bind, Except.bind]
    generalize Floating.round width read = value
    cases value.isInf with
    | true => rfl
    | false =>
      cases value == 0.0 with
      | false => rfl
      | true => cases Floating.hasNonzeroMantissa (Floating.dropSuffix text) <;> rfl

end Numbers

end Bounded

end JavaSyntax
