import JavaSyntax.Lexer.Literal
import JavaSyntax.Proofs.Text.Slices

/-!
# Bad escapes

A decoder that meets a bad escape reports what is left from its backslash on. Up to there it has
read characters and escapes that would be read in the same way if nothing came after them. In a
string the place of the backslash can therefore be found again in the text; a text block has lost
its layout before its escapes are read, and only the place where its content starts is reported.
-/

namespace JavaSyntax

namespace Escape

/-! ### Cutting off what comes after -/

variable {inTextBlock : Bool} {count code value : Nat} {cs ds left : List Char} {piece : Piece}

/-- The digits of an octal escape do not depend on what comes later. -/
theorem exists_octal (h : octal count code cs = (value, ds ++ left)) :
    ∃ digits, cs = digits ++ (ds ++ left) ∧ octal count code (digits ++ ds) = (value, ds) := by
  fun_induction octal count code cs with
  | case1 code cs =>
    cases h
    exact ⟨[], rfl, rfl⟩
  | case2 count code =>
    obtain ⟨rfl, hnil⟩ := Prod.mk.inj h
    obtain ⟨rfl, rfl⟩ := List.append_eq_nil_iff.mp hnil.symm
    exact ⟨[], rfl, rfl⟩
  | case3 count code c cs digit hdigit ih =>
    obtain ⟨digits, rfl, hread⟩ := ih h
    refine ⟨c :: digits, rfl, ?_⟩
    rw [List.cons_append, octal, hdigit]
    exact hread
  | case4 count code c cs hdigit =>
    obtain ⟨rfl, hcs⟩ := Prod.mk.inj h
    refine ⟨[], hcs, ?_⟩
    cases ds with
    | nil => rfl
    | cons d ds =>
      obtain ⟨rfl, -⟩ := List.cons.inj hcs
      rw [List.nil_append, octal, hdigit]

/-- The digits of a hexadecimal escape do not depend on what comes later. -/
theorem exists_hex? (h : hex? count code cs = some (value, ds ++ left)) :
    ∃ digits, cs = digits ++ (ds ++ left) ∧ digits.length = count ∧
      hex? count code (digits ++ ds) = some (value, ds) := by
  fun_induction hex? count code cs with
  | case1 code cs =>
    cases h
    exact ⟨[], rfl, rfl, rfl⟩
  | case2 => cases h
  | case3 count code c cs digit hdigit ih =>
    obtain ⟨digits, rfl, hlength, hread⟩ := ih h
    refine ⟨c :: digits, rfl, by simp [hlength], ?_⟩
    rw [List.cons_append, hex?, hdigit]
    exact hread
  | case4 => cases h

/-- What is skipped at the front does not depend on what comes after the next character. -/
private theorem dropWhile_takeWhile_append {p : Char → Bool} {d : Char}
    (h : cs.dropWhile p = d :: ds) (more : List Char) :
    (cs.takeWhile p ++ d :: more).dropWhile p = d :: more := by
  have hfirst := List.head?_dropWhile_not p cs
  rw [h] at hfirst
  rw [List.dropWhile_append_of_pos (List.all_eq_true.mp List.all_takeWhile),
    List.dropWhile_cons_of_neg (by simpa using hfirst)]

/-- What an escape stands for does not depend on what comes after it. -/
theorem exists_read? (h : read? inTextBlock cs = some (piece, ds ++ left)) :
    ∃ escape, cs = escape ++ (ds ++ left) ∧
      read? inTextBlock (escape ++ ds) = some (piece, ds) := by
  cases cs with
  | nil => cases h
  | cons c cs =>
    simp only [read?] at h
    split at h
    · rename_i named hnamed
      cases h
      refine ⟨[c], rfl, ?_⟩
      simp only [List.cons_append, List.nil_append, read?, hnamed]
    · rename_i digit hnamed hdigit
      simp only [Option.some.injEq, Prod.mk.injEq] at h
      obtain ⟨rfl, hrest⟩ := h
      obtain ⟨digits, rfl, hread⟩ := exists_octal (Prod.ext rfl hrest)
      refine ⟨c :: digits, rfl, ?_⟩
      simp only [List.cons_append, read?, hnamed, hdigit, hread]
    · rename_i hnamed hdigit
      split at h
      · rename_i hc
        obtain ⟨⟨code, rest⟩, hhex, hpiece⟩ := Option.map_eq_some_iff.mp h
        cases hpiece
        obtain ⟨digits, hdrop, hlength, hread⟩ := exists_hex? hhex
        refine ⟨c :: (cs.takeWhile (· == 'u') ++ digits), ?_, ?_⟩
        · rw [List.cons_append, List.append_assoc, ← hdrop, List.takeWhile_append_dropWhile]
        · -- there is a digit at which the skipping of `u` stops, whatever comes after it
          obtain ⟨d, digits, rfl⟩ : ∃ d more, digits = d :: more :=
            List.exists_cons_of_length_pos (by omega)
          simp only [List.cons_append, List.append_assoc] at hdrop hread ⊢
          simp only [read?, hnamed, hdigit, if_pos hc, dropWhile_takeWhile_append hdrop, hread]
          rfl
      · rename_i hc
        split at h
        · rename_i hfeed
          cases h
          refine ⟨[c], rfl, ?_⟩
          simp only [List.cons_append, List.nil_append, read?, hnamed, hdigit, if_neg hc,
            if_pos hfeed]
        · cases h

/-- A decoder that stops at a bad escape would have accepted what comes before it. -/
theorem exists_decodeRest {d : Decoded} (h : decodeRest inTextBlock d cs = .error left) :
    ∃ before after, cs = before ++ left ∧ left = '\\' :: after ∧
      ∃ chars, decodeRest inTextBlock d before = .ok chars := by
  fun_induction decodeRest inTextBlock d cs with
  | case1 d => cases h
  | case2 d rest hread =>
    cases h
    exact ⟨[], rest, rfl, rfl, _, by rw [decodeRest]⟩
  | case3 d rest piece rest' hread _ ih =>
    obtain ⟨before, after, rfl, hleft, chars, hdecode⟩ := ih h
    obtain ⟨escape, rfl, hescape⟩ := exists_read? hread
    refine ⟨'\\' :: (escape ++ before), after, by simp, hleft, chars, ?_⟩
    rw [decodeRest, if_pos rfl]
    split
    · rename_i hnone
      rw [hescape] at hnone
      cases hnone
    · rename_i hsome
      rw [hescape] at hsome
      cases hsome
      exact hdecode
  | case4 d c rest hc ih =>
    obtain ⟨before, after, rfl, hleft, chars, hdecode⟩ := ih h
    refine ⟨c :: before, after, rfl, hleft, chars, ?_⟩
    rw [decodeRest, if_neg hc]
    exact hdecode

/-- The offset that is reported is that of a backslash, and everything before it decodes. -/
theorem decode_eq_error {body : List Char} {within : Nat}
    (h : decode inTextBlock body = .error within) :
    ∃ before after, body = before ++ '\\' :: after ∧ within = byteLength before ∧
      ∃ chars, decode inTextBlock before = .ok chars := by
  unfold decode at h
  cases hrest : decodeRest inTextBlock .empty body with
  | ok chars =>
    rw [hrest] at h
    cases h
  | error left =>
    rw [hrest] at h
    cases h
    obtain ⟨before, after, rfl, rfl, chars, hbefore⟩ := exists_decodeRest hrest
    refine ⟨before, after, rfl, ?_, chars, ?_⟩
    · simp only [byteLength_append, Nat.add_sub_cancel]
    · rw [decode, hbefore]
      rfl

end Escape

/-! ### Literals between their delimiters -/

/-- What stands before an offset can be cut off. -/
theorem dropBytes?_append (front cs : List Char) :
    dropBytes? (byteLength front) (front ++ cs) = some cs := by
  induction front with
  | nil => rw [byteLength_nil, List.nil_append, dropBytes?]
  | cons c front ih =>
    obtain ⟨n, hn⟩ : ∃ n, c.utf8Size + byteLength front = n + 1 :=
      Nat.exists_eq_add_one.mpr (Nat.add_pos_left c.utf8Size_pos _)
    rw [byteLength_cons, List.cons_append, hn, dropBytes?, if_pos (by omega), ← hn,
      Nat.add_sub_cancel_left, ih]

namespace Literal

variable {front body back : List Char} {within : Nat}

/-- What stands between delimiters of the same length can be taken out. -/
theorem undelimited_append (h : byteLength back = byteLength front) :
    undelimited (byteLength front) (front ++ body ++ back) = .ok body := by
  have hback : dropLastBytes? (byteLength front) (body ++ back) = some body := by
    rw [dropLastBytes?, List.reverse_append, ← h, ← byteLength_reverse, dropBytes?_append]
    simp
  rw [undelimited, List.append_assoc, dropBytes?_append, Option.bind_some, hback]

/-- A string with a bad escape is decoded as far as the backslash that is reported. -/
theorem decodeString_eq_error {quote : Char} (hquote : quote.utf8Size = 1)
    (h : decodeString (quote :: body ++ [quote]) = .error (.invalidEscape within)) :
    ∃ before after, body = before ++ '\\' :: after ∧ within = byteLength (quote :: before) ∧
      ∃ chars, Escape.decode false before = .ok chars := by
  have hone : byteLength [quote] = 1 := by simp [hquote]
  have hbody : undelimited 1 (quote :: body ++ [quote]) = .ok body := by
    rw [← hone]
    exact undelimited_append rfl
  unfold decodeString at h
  rw [hbody] at h
  change (Escape.decode false body).mapError _ = _ at h
  cases hdecode : Escape.decode false body with
  | ok chars =>
    rw [hdecode] at h
    cases h
  | error offset =>
    rw [hdecode] at h
    cases h
    obtain ⟨before, after, hsplit, rfl, hchars⟩ := Escape.decode_eq_error hdecode
    refine ⟨before, after, hsplit, ?_, hchars⟩
    rw [byteLength_cons, hquote, Nat.add_comm]

/-- A character literal is read like a string. -/
theorem decodeString_of_decodeChar {text : List Char}
    (h : decodeChar text = .error (.invalidEscape within)) :
    decodeString text = .error (.invalidEscape within) := by
  unfold decodeChar at h
  cases hstring : decodeString text with
  | error fault =>
    rw [hstring] at h
    cases h
    rfl
  | ok chars =>
    rw [hstring] at h
    dsimp only [bind, Except.bind] at h
    split at h
    · split at h <;> cases h
    · cases h

/-- A text block with a bad escape is reported below its opening line. -/
theorem decodeTextBlock_eq_error {quotes : List Char} (hquotes : byteLength quotes = 3)
    (h : decodeTextBlock (quotes ++ body ++ quotes) = .error (.invalidEscape within)) :
    within = byteLength quotes + TextBlock.openingLength body := by
  have hbody : undelimited 3 (quotes ++ body ++ quotes) = .ok body := by
    rw [← hquotes]
    exact undelimited_append rfl
  unfold decodeTextBlock at h
  rw [hbody] at h
  change (TextBlock.decode body).mapError _ = _ at h
  unfold TextBlock.decode at h
  cases hdecode : Escape.decode true (TextBlock.strip (TextBlock.contentLines body)) with
  | ok chars =>
    rw [hdecode] at h
    cases h
  | error offset =>
    rw [hdecode] at h
    cases h
    rw [hquotes, Nat.add_comm]

/-- To look for delimiters finds no bad escape. -/
theorem undelimited_ne_invalidEscape {text : List Char} (count : Nat) :
    undelimited count text ≠ .error (.invalidEscape within) := by
  unfold undelimited
  split <;> exact nofun

/-- There are no bad escapes in an integer. -/
theorem decodeInteger_ne_invalidEscape {text : List Char} (width : IntegerWidth) :
    decodeInteger width text ≠ .error (.invalidEscape within) := by
  intro h
  have hbody {body : List Char} :
      (decodeIntegerBody width body).mapError LiteralFault.invalidNumber ≠
        .error (.invalidEscape within) := by
    cases decodeIntegerBody width body <;> exact nofun
  cases width with
  | int => exact hbody h
  | long =>
    unfold decodeInteger withoutSuffix at h
    cases hsuffix : dropLastBytes? 1 text with
    | none =>
      rw [hsuffix] at h
      cases h
    | some body =>
      rw [hsuffix] at h
      exact hbody h

/-- There are no bad escapes in a floating-point number. -/
theorem decodeFloating_ne_invalidEscape {text : List Char} (width : FloatWidth) :
    decodeFloating width text ≠ .error (.invalidEscape within) := by
  unfold decodeFloating
  split <;> exact nofun

/-- Only strings, characters and text blocks have escapes. -/
theorem decode_eq_invalidEscape {kind : TokenKind} {text : List Char}
    (h : decode kind text = .error (.invalidEscape within)) :
    (kind = .stringLiteral ∨ kind = .charLiteral) ∧
        decodeString text = .error (.invalidEscape within) ∨
      kind = .textBlock ∧ decodeTextBlock text = .error (.invalidEscape within) := by
  have hmap {α β : Type} {x : Except LiteralFault α} {f : α → β}
      (hx : f <$> x = .error (.invalidEscape within)) : x = .error (.invalidEscape within) := by
    cases x with
    | ok a => cases hx
    | error fault => cases hx; rfl
  cases kind with
  | intLiteral => exact absurd (hmap h) (decodeInteger_ne_invalidEscape .int)
  | longLiteral => exact absurd (hmap h) (decodeInteger_ne_invalidEscape .long)
  | floatLiteral => exact absurd (hmap h) (decodeFloating_ne_invalidEscape .single)
  | doubleLiteral => exact absurd (hmap h) (decodeFloating_ne_invalidEscape .double)
  | charLiteral =>
    have hchar := hmap (f := fun c => some (LiteralValue.char c)) h
    exact .inl ⟨.inr rfl, decodeString_of_decodeChar hchar⟩
  | stringLiteral =>
    exact .inl ⟨.inl rfl, hmap (f := some ∘ LiteralValue.string ∘ String.ofList) h⟩
  | textBlock =>
    exact .inr ⟨rfl, hmap (f := some ∘ LiteralValue.string ∘ String.ofList) h⟩
  | _ => cases h

end Literal

/-! ### Opening lines of text blocks -/

/-- A line terminator that is not the first half of a longer one. -/
def EndsLine (terminator content : List Char) : Prop :=
  terminator = ['\r', '\n'] ∨ terminator = ['\n'] ∨
    terminator = ['\r'] ∧ content.head? ≠ some '\n'

/-- The opening line reaches to the end of the first terminator. -/
theorem TextBlock.openingLength_eq {opening : List Char} {c : Char}
    (hopening : ∀ d ∈ opening, isLineTerminator d = false) (hc : isLineTerminator c = true)
    (more : List Char) :
    ∃ terminator content, opening ++ c :: more = opening ++ terminator ++ content ∧
      EndsLine terminator content ∧
      openingLength (opening ++ c :: more) = byteLength (opening ++ terminator) := by
  have hall : ∀ d ∈ opening, (!isLineTerminator d) = true := by simpa using hopening
  have htake : (opening ++ c :: more).takeWhile (!isLineTerminator ·) = opening := by
    rw [List.takeWhile_append_of_pos hall, List.takeWhile_cons_of_neg (by simp [hc]),
      List.append_nil]
  have hdrop : (opening ++ c :: more).dropWhile (!isLineTerminator ·) = c :: more := by
    rw [List.dropWhile_append_of_pos hall, List.dropWhile_cons_of_neg (by simp [hc])]
  have hreturn : ('\r' : Char).utf8Size = 1 := by decide
  have hfeed : ('\n' : Char).utf8Size = 1 := by decide
  rcases (by simpa [isLineTerminator] using hc : c = '\n' ∨ c = '\r') with rfl | rfl
  · refine ⟨['\n'], more, by simp, .inr (.inl rfl), ?_⟩
    simp only [openingLength, htake, hdrop, byteLength_append, byteLength_cons, byteLength_nil,
      hfeed]
    rfl
  · by_cases hpair : more.head? = some '\n'
    · obtain ⟨content, rfl⟩ := List.head?_eq_some_iff.mp hpair
      refine ⟨['\r', '\n'], content, by simp, .inl rfl, ?_⟩
      simp [openingLength, htake, hdrop, byteLength_append, hreturn, hfeed]
    · refine ⟨['\r'], more, by simp, .inr (.inr ⟨rfl, hpair⟩), ?_⟩
      simp only [openingLength, htake, hdrop, byteLength_append, byteLength_cons, byteLength_nil,
        hreturn]
      congr 1
      split
      · rename_i hmore
        cases hmore
        exact absurd rfl hpair
      · rfl
      · rename_i hmore
        cases hmore

end JavaSyntax
