import JavaSyntax.Proofs.Lexer.Numerals
import JavaSyntax.Proofs.Lexer.Tiling
import JavaSyntax.Proofs.Lexer.Trivia

/-!
# Integer literals

An integer literal is a numeral in the range of its type, with a letter at its end if it is a
`long`. The automaton lets through more than that, and the decoder does not look at the suffix;
together they accept exactly the integer literals. A text is read as a single token of an
integer type if and only if it is a literal of this type, and the value of the token is the
number that the low bits of the magnitude mean.
-/

namespace JavaSyntax

/-! ### What integer literals are -/

namespace IntegerWidth

/-- The kind of the literals of a type. -/
def kind : IntegerWidth → TokenKind
  | int => .intLiteral
  | long => .longLiteral

/-- What stands after the numeral of a literal. -/
inductive Suffix : IntegerWidth → List Char → Prop
  | int : Suffix .int []
  | long {c : Char} (hc : c = 'l' ∨ c = 'L') : Suffix .long [c]

end IntegerWidth

/-- A text is a literal of an integer type, in a base and with a magnitude. -/
def IntegerLiteral (w : IntegerWidth) (radix : Radix) (text : List Char) (m : Nat) : Prop :=
  ∃ numeral suffix, text = numeral ++ suffix ∧ Numeral radix numeral m ∧ w.Suffix suffix ∧
    m ≤ w.largest radix

/-- A text is read as one token with nothing before or after it. -/
def ReadsSingly (text : String) (preferences : LexicalPreferences) (t : Token) : Prop :=
  ∃ last, (tokenize text preferences).toExcept = .ok [t, last] ∧ t.isEnd = false ∧
    last.isEnd = true ∧ t.affiliations = [] ∧ last.affiliations = []

/-! ### Suffixes -/

namespace Literal

/-- A suffix of one byte is cut off. -/
theorem withoutSuffix_append {c : Char} (body : List Char) (hc : c.utf8Size = 1) :
    withoutSuffix (body ++ [c]) = .ok body := by
  rw [withoutSuffix, dropLastBytes?, List.reverse_append, List.reverse_singleton,
    List.singleton_append, dropBytes?, if_pos (by omega), hc, Nat.zero_add, Nat.sub_self, dropBytes?,
    Option.map_some, List.reverse_reverse]

end Literal

/-- A literal has the value of its numeral. -/
theorem IntegerLiteral.decode_eq {w : IntegerWidth} {radix : Radix} {text : List Char} {m : Nat}
    (h : IntegerLiteral w radix text m) :
    Literal.decode w.kind text = .ok (some (.integer (w.signed m) radix)) := by
  obtain ⟨numeral, suffix, rfl, hnumeral, hsuffix, hle⟩ := h
  have hbody := hnumeral.decodeIntegerBody_eq_ok hle
  cases hsuffix with
  | int =>
    rw [List.append_nil]
    change some <$> ((decodeIntegerBody .int numeral).mapError _) = _
    rw [hbody]
    rfl
  | @long c hc =>
    have hsize : c.utf8Size = 1 := by
      rcases hc with rfl | rfl <;> rfl
    change some <$> (Literal.withoutSuffix (numeral ++ [c]) >>= fun body =>
      (decodeIntegerBody .long body).mapError _) = _
    rw [Literal.withoutSuffix_append numeral hsize]
    change some <$> ((decodeIntegerBody .long numeral).mapError _) = _
    rw [hbody]
    rfl

/-- What is decoded as an integer before a suffix that may stand there is a literal. -/
theorem exists_integerLiteral_of_decode {w : IntegerWidth} {body suffix : List Char}
    {value : Option LiteralValue} (hsuffix : w.Suffix suffix)
    (h : Literal.decode w.kind (body ++ suffix) = .ok value) :
    ∃ radix m, IntegerLiteral w radix (body ++ suffix) m := by
  have hdecode : some <$> ((decodeIntegerBody w body).mapError LiteralFault.invalidNumber) =
      .ok value := by
    cases hsuffix with
    | int =>
      rw [List.append_nil] at h
      exact h
    | @long c hc =>
      have hsize : c.utf8Size = 1 := by
        rcases hc with rfl | rfl <;> rfl
      change some <$> (Literal.withoutSuffix (body ++ [c]) >>= fun body =>
        (decodeIntegerBody .long body).mapError _) = _ at h
      rw [Literal.withoutSuffix_append body hsize] at h
      exact h
  cases hbody : decodeIntegerBody w body with
  | error =>
    rw [hbody] at hdecode
    cases hdecode
  | ok =>
    obtain ⟨radix, m, hnumeral, hle, -⟩ := exists_numeral_of_decodeIntegerBody hbody
    exact ⟨radix, m, body, suffix, rfl, hnumeral, hsuffix, hle⟩

/-! ### What the automaton accepts -/

/-- The letter of the suffix has a class of its own. -/
theorem CharClass.eq_of_ofChar_eq_letterL {c : Char} (h : ofChar c = .letterL) :
    c = 'l' ∨ c = 'L' := by
  have hascii : ∀ n < 128, ofChar (.ofNat n) = .letterL →
      Char.ofNat n = 'l' ∨ Char.ofNat n = 'L' := by decide
  by_cases hc : 127 < c.toNat
  · rw [ofChar, if_pos hc, ofUnicode] at h
    split at h
    · cases h
    · split at h <;> cases h
  · have hsmall := hascii c.toNat (by omega)
    rw [Char.ofNat_toNat] at hsmall
    exact hsmall h

namespace LexState

/-- Inside a lexeme only the letter of the suffix makes it a `long`. -/
theorem yields_longLiteral_next (s : LexState) (c : CharClass) :
    (!(s.next c).yields .longLiteral || ((s.next c).takes && c == .letterL)) = true := by
  cases s <;> cases c <;> rfl

/-- No character alone is a literal of the type `long`. -/
theorem yields_longLiteral_first (c : CharClass) : (first c).yields .longLiteral = false := by
  cases c <;> rfl

/-- A literal of the type `long` does not end before its letter. -/
theorem next_ne_before_longLiteral (s : LexState) (c : CharClass) :
    s.next c ≠ .before .longLiteral := by
  intro h
  have hyields := s.yields_longLiteral_next c
  rw [h] at hyields
  cases hyields

/-- A literal of the type `long` ends with its letter. -/
theorem eq_letterL_of_next {s : LexState} {c : CharClass} (h : s.next c = .after .longLiteral) :
    c = .letterL := by
  have hyields := s.yields_longLiteral_next c
  rw [h] at hyields
  exact eq_of_beq hyields

/-- Where the automaton stands inside the digits of a base. -/
def inside : Radix → LexState
  | .decimal => .decimal
  | .octal => .octal
  | .hexadecimal => .hex
  | .binary => .binary

/-- Inside of the digits of a base the automaton takes underscores. -/
theorem next_inside_underscore (radix : Radix) :
    (inside radix).next (.ofChar '_') = .shift (inside radix) := by
  cases radix <;> rfl

/-- Inside of the digits of a base the automaton takes more of them. -/
theorem next_inside_digit {radix : Radix} {d : Nat} {c : Char} (h : IsDigit radix.base d c) :
    (inside radix).next (.ofChar c) = .shift (inside radix) := by
  apply h.elim
  cases radix <;> decide

end LexState

namespace Scan

variable {s : LexState} {cs ds : List Char} {next : CharClass} {m : Nat}

/-- What is read as a literal of the type `long` has its letter at the end. -/
theorem exists_suffix_of_kindFrom (h : kindFrom s cs next = some (.token .longLiteral)) :
    ∃ body c, cs = body ++ [c] ∧ (c = 'l' ∨ c = 'L') := by
  induction cs generalizing s with
  | nil =>
    rw [kindFrom] at h
    split at h
    · rename_i hnext
      cases h
      exact absurd hnext (s.next_ne_before_longLiteral next)
    · cases h
  | cons c cs ih =>
    rw [kindFrom] at h
    split at h
    · obtain ⟨body, d, rfl, hd⟩ := ih h
      exact ⟨c :: body, d, rfl, hd⟩
    · rename_i hnext
      split at h
      · rename_i hlast
        cases h
        obtain rfl := List.isEmpty_iff.mp hlast
        exact ⟨[], c, rfl, CharClass.eq_of_ofChar_eq_letterL (LexState.eq_letterL_of_next hnext)⟩
      · cases h
    · cases h

/-- A `long` has a letter at its end. -/
theorem exists_suffix_of_kindOf (h : kindOf cs next = some (.token .longLiteral)) :
    ∃ body c, cs = body ++ [c] ∧ (c = 'l' ∨ c = 'L') := by
  cases cs with
  | nil => cases h
  | cons c cs =>
    rw [kindOf] at h
    split at h
    · obtain ⟨body, d, rfl, hd⟩ := exists_suffix_of_kindFrom h
      exact ⟨c :: body, d, rfl, hd⟩
    · rename_i hfirst
      split at h
      · cases h
        have hyields := LexState.yields_longLiteral_first (.ofChar c)
        rw [hfirst] at hyields
        cases hyields
      · cases h
    · cases h

/-- The automaton stays where characters do not lead it away. -/
theorem kindFrom_append (h : ∀ c ∈ cs, s.next (.ofChar c) = .shift s) :
    kindFrom s (cs ++ ds) next = kindFrom s ds next := by
  induction cs with
  | nil => rfl
  | cons c cs ih =>
    rw [List.cons_append, kindFrom, h c List.mem_cons_self]
    exact ih fun c hc => h c (List.mem_cons_of_mem _ hc)

/-- Digits, underscores and the suffix are read to the end. -/
theorem kindFrom_inside {w : IntegerWidth} {suffix : List Char} (radix : Radix)
    (h : ∀ c ∈ cs, c = '_' ∨ ∃ d, IsDigit radix.base d c) (hsuffix : w.Suffix suffix) :
    kindFrom (.inside radix) (cs ++ suffix) .endOfText = some (.token w.kind) := by
  rw [kindFrom_append]
  · cases hsuffix with
    | int => cases radix <;> rfl
    | long hc => rcases hc with rfl | rfl <;> cases radix <;> rfl
  · intro c hc
    rcases h c hc with rfl | ⟨d, hd⟩
    · exact LexState.next_inside_underscore radix
    · exact LexState.next_inside_digit hd

/-- A letter after a zero announces digits of another base. -/
theorem kindOf_marked {w : IntegerWidth} {x : Char} {suffix : List Char} (radix : Radix)
    (mark : LexState) (h : Digits radix.base cs m) (hx : LexState.next .zero (.ofChar x) = .shift mark)
    (hmark : ∀ d c, IsDigit radix.base d c → mark.next (.ofChar c) = .shift (.inside radix))
    (hsuffix : w.Suffix suffix) :
    kindOf ('0' :: x :: cs ++ suffix) .endOfText = some (.token w.kind) := by
  have hall := h.eq_underscore_or_isDigit
  obtain ⟨c, rest, d, rfl, hd⟩ := h.exists_eq_cons
  change kindFrom .zero (x :: c :: (rest ++ suffix)) .endOfText = _
  rw [kindFrom, hx]
  change kindFrom mark (c :: (rest ++ suffix)) .endOfText = _
  rw [kindFrom, hmark d c hd]
  exact kindFrom_inside radix (fun c hc => hall c (List.mem_cons_of_mem _ hc)) hsuffix

/-- A numeral with a suffix is a lexeme. -/
theorem kindOf_numeral {w : IntegerWidth} {radix : Radix} {suffix : List Char}
    (h : Numeral radix cs m)
    (hsuffix : w.Suffix suffix) :
    kindOf (cs ++ suffix) .endOfText = some (.token w.kind) := by
  cases h with
  | zero =>
    cases hsuffix with
    | int => rfl
    | long hc => rcases hc with rfl | rfl <;> rfl
  | decimal h hfirst =>
    have hall := h.eq_underscore_or_isDigit
    obtain ⟨c, rest, d, rfl, hd⟩ := h.exists_eq_cons
    have hshift : c ≠ '0' → LexState.first (.ofChar c) = .shift .decimal :=
      hd.elim (P := fun c => c ≠ '0' → LexState.first (.ofChar c) = .shift .decimal) (by decide)
    rw [List.cons_append, kindOf, hshift (by simpa using hfirst)]
    exact kindFrom_inside .decimal (fun c hc => hall c (List.mem_cons_of_mem _ hc)) hsuffix
  | octal h hmore =>
    have hall := h.eq_underscore_or_isDigit
    obtain ⟨c, rest, rfl⟩ := List.exists_cons_of_ne_nil hmore
    have hshift : LexState.next .zero (.ofChar c) = .shift .octal := by
      rcases hall c (by simp) with rfl | ⟨d, hd⟩
      · rfl
      · apply hd.elim
        decide
    change kindFrom .zero (c :: (rest ++ suffix)) .endOfText = _
    rw [kindFrom, hshift]
    exact kindFrom_inside .octal (fun c hc => hall c (by simp [hc])) hsuffix
  | hexadecimal hx h =>
    refine kindOf_marked .hexadecimal .hexMark h ?_ ?_ hsuffix
    · rcases hx with rfl | rfl <;> rfl
    · intro d c hd
      apply hd.elim
      decide
  | binary hb h =>
    refine kindOf_marked .binary .binaryMark h ?_ ?_ hsuffix
    · rcases hb with rfl | rfl <;> rfl
    · intro d c hd
      apply hd.elim
      decide

end Scan

/-! ### Texts that are one token -/

section Single

variable {text : String} {preferences : LexicalPreferences} {t : Token}

/-- A text that is a lexeme to its end is read as a single token, if it is accepted. -/
theorem exists_readsSingly {kind kind' : TokenKind} {value : Option LiteralValue}
    (hkind : Scan.kindOf text.toList .endOfText = some (.token kind)) (hend : kind' ≠ .endOfInput)
    (hclassify : ∀ l : Lexer, l.metrics.totalTokens = 0 →
      l.classify kind text.toList = .ok (kind', value)) :
    ∃ t, ReadsSingly text preferences t ∧ t.kind = kind' := by
  cases hchars : text.toList with
  | nil =>
    rw [hchars] at hkind
    cases hkind
  | cons c cs =>
    rw [hchars] at hkind hclassify
    let l := Lexer.ofText text preferences
    have hrest : l.rest = c :: cs := hchars
    have hscan : Scan.start c cs = .lexeme (.token kind) (c :: cs).reverse [] := by
      have happend := @Scan.start_append c cs [] _ hkind
      rwa [List.append_nil] at happend
    let t := l.tokenOf kind' (c :: cs) value
    let m := l.afterToken t (c :: cs) []
    have hlex : l.lex = ⟨.ok t, m, []⟩ := by
      rw [Lexer.lex_of_token hrest hscan, List.reverse_reverse, Lexer.deliver, hclassify l rfl]
      rfl
    have hfinish : m.lex = m.finish := Lexer.lex_of_nil rfl
    have hopen : t.isEnd = false := beq_false_of_ne hend
    have hdelivers : Lexer.Delivers l [t, m.endToken] m.finish.lexer := by
      refine .cons (by rw [hlex]) (by simp [hopen]) ?_
      rw [hlex]
      refine .cons (by rw [hfinish]; rfl) (fun _ => rfl) ?_
      rw [hfinish]
      exact .nil _
    obtain ⟨hfailure, htokens⟩ := hdelivers.runFrom_of_end rfl [] []
    exact ⟨t, ⟨m.endToken, LexRun.toExcept_eq_ok.mpr ⟨hfailure, htokens⟩, hopen, rfl, rfl, rfl⟩, rfl⟩

namespace ReadsSingly

/-- The text of the token is the whole text. -/
theorem source_eq (h : ReadsSingly text preferences t) : t.source = text := by
  obtain ⟨last, hok, -, hlast, ht, hnone⟩ := h
  have htext := (tiles_of_tokenize hok).2
  obtain ⟨body, m, -, -, -, htokens⟩ := tokenize_eq_ok hok
  obtain ⟨-, hlast⟩ : [t] = body ∧ [last] = [m.endToken] := List.append_inj' htokens rfl
  obtain rfl := List.singleton_inj.mp hlast
  have hnothing : m.pending.toList = [] := hnone
  rw [← htext]
  simp [reconstruct, Token.fullText, ht, Lexer.endToken, hnothing]

/-- The token was delivered at the start of the text. -/
theorem lex_eq (h : ReadsSingly text preferences t) :
    (Lexer.ofText text preferences).lex.result = .ok t := by
  obtain ⟨last, hok, -⟩ := h
  obtain ⟨hfailure, htokens⟩ := LexRun.toExcept_eq_ok.mp hok
  obtain ⟨ts, m, hdelivers, hts⟩ := Lexer.exists_delivers_of_runFrom _ [] [] hfailure
  obtain rfl : ts = [t, last] := hts.symm.trans htokens
  cases hdelivers with
  | cons hresult => exact hresult

/-- The value of a token that is a whole text is what the text is decoded to. -/
theorem decode_eq (h : ReadsSingly text preferences t) :
    Literal.decode t.kind text.toList = .ok t.value := by
  have hdecode := Lexer.decode_of_lex h.lex_eq
  rwa [h.source_eq] at hdecode

/-- Only a text with the suffix of its type is read as an integer. -/
theorem exists_suffix (h : ReadsSingly text preferences t) {w : IntegerWidth}
    (hkind : t.kind = w.kind) : ∃ body suffix, text.toList = body ++ suffix ∧ w.Suffix suffix := by
  cases w with
  | int => exact ⟨text.toList, [], (List.append_nil _).symm, .int⟩
  | long =>
    obtain ⟨last, -, hopen, -⟩ := id h
    obtain ⟨⟨kind, hscan, hclassify⟩, -⟩ := Lexer.exists_scan_of_lex h.lex_eq hopen
    rw [h.source_eq] at hscan hclassify
    have hrefine := (Lexer.classify_eq_ok (hclassify _ rfl)).1
    rw [hkind, Lexer.refineKind] at hrefine
    split at hrefine
    · have hword := classifyWord_cases (String.ofList text.toList)
      rw [← hrefine] at hword
      simp [IntegerWidth.kind] at hword
    · obtain ⟨body, c, htext, hc⟩ := Scan.exists_suffix_of_kindOf (hrefine ▸ hscan .space rfl)
      exact ⟨body, [c], htext, .long hc⟩

end ReadsSingly

end Single

/-! ### Texts that are an integer literal -/

/-- An integer literal is read as one token of its type. -/
theorem IntegerLiteral.exists_readsSingly {w : IntegerWidth} {radix : Radix} {text : String}
    {m : Nat} (h : IntegerLiteral w radix text.toList m) (preferences : LexicalPreferences) :
    ∃ t, ReadsSingly text preferences t ∧ t.kind = w.kind := by
  have hdecode := h.decode_eq
  obtain ⟨numeral, suffix, htext, hnumeral, hsuffix, -⟩ := h
  have hkind := Scan.kindOf_numeral hnumeral hsuffix
  rw [← htext] at hkind
  have hrefine : Lexer.refineKind w.kind text.toList = w.kind := by cases w <;> rfl
  have hclassify : ∀ l : Lexer, l.metrics.totalTokens = 0 →
      l.classify w.kind text.toList = .ok (w.kind, some (.integer (w.signed m) radix)) := by
    intro l hl
    rw [Lexer.classify_eq, hl, if_neg (by decide), if_neg (by cases w <;> simp [IntegerWidth.kind]),
      if_neg (by cases w <;> simp [IntegerWidth.kind]), hrefine, hdecode]
  exact JavaSyntax.exists_readsSingly hkind (by cases w <;> decide) hclassify

/-- A text that is read as one token of an integer type is a literal of it. -/
theorem ReadsSingly.exists_integerLiteral {text : String} {preferences : LexicalPreferences}
    {t : Token} (h : ReadsSingly text preferences t) {w : IntegerWidth} (hkind : t.kind = w.kind) :
    ∃ radix m, IntegerLiteral w radix text.toList m := by
  have hdecode := h.decode_eq
  obtain ⟨body, suffix, htext, hsuffix⟩ := h.exists_suffix hkind
  rw [htext, hkind] at hdecode
  rw [htext]
  exact exists_integerLiteral_of_decode hsuffix hdecode

/-- A text is read as a single token of an integer type if and only if it is a literal of this
type, and then the value of the token is the number that the low bits of the magnitude mean, in
the base of the literal. -/
theorem readsSingly_integer_iff (text : String) (preferences : LexicalPreferences)
    (w : IntegerWidth) :
    ((∃ t, ReadsSingly text preferences t ∧ t.kind = w.kind) ↔
        ∃ radix m, IntegerLiteral w radix text.toList m) ∧
      ∀ t, ReadsSingly text preferences t → t.kind = w.kind →
        ∀ radix m, IntegerLiteral w radix text.toList m →
          t.value = some (.integer (w.signed m) radix) := by
  refine ⟨⟨?_, ?_⟩, ?_⟩
  · rintro ⟨t, ht, hkind⟩
    exact ht.exists_integerLiteral hkind
  · rintro ⟨radix, m, h⟩
    exact h.exists_readsSingly preferences
  · intro t ht hkind radix m h
    have hdecode := ht.decode_eq
    rw [hkind, h.decode_eq] at hdecode
    exact (Except.ok.inj hdecode).symm

/-- All bits of an `int` can be written in hexadecimal, and the first of them is the sign. A
`long` in the base ten may not be larger than the opposite of the least value. -/
theorem readsSingly_integer_at_bounds :
    (∃ t, ReadsSingly "0x8000_0000" {} t ∧ t.kind = .intLiteral ∧
      t.value = some (.integer (-2147483648) .hexadecimal)) ∧
    ¬ ∃ t, ReadsSingly "9223372036854775809L" {} t ∧ t.kind = .longLiteral := by
  constructor
  · have hzero : IsDigit 16 0 '0' := ⟨by decide, .inl rfl⟩
    have height : Digits 16 ['8'] 8 := .digit ⟨by decide, .inl rfl⟩
    have hhalf : Digits 16 ['8', '0', '0', '0'] 0x8000 :=
      ((height.next 0 hzero).next 0 hzero).next 0 hzero
    have hdigits : Digits 16 ['8', '0', '0', '0', '_', '0', '0', '0', '0'] 0x80000000 :=
      (((hhalf.next 1 hzero).next 0 hzero).next 0 hzero).next 0 hzero
    have hliteral : IntegerLiteral .int .hexadecimal "0x8000_0000".toList 0x80000000 :=
      ⟨_, [], rfl, .hexadecimal (.inl rfl) hdigits, .int, by decide⟩
    obtain ⟨hiff, hvalue⟩ := readsSingly_integer_iff "0x8000_0000" {} .int
    obtain ⟨t, ht, hkind⟩ := hiff.mpr ⟨_, _, hliteral⟩
    exact ⟨t, ht, hkind, hvalue t ht hkind _ _ hliteral⟩
  · intro h
    obtain ⟨radix, m, hliteral⟩ :=
      (readsSingly_integer_iff "9223372036854775809L" {} .long).1.mp h
    have hdecode := hliteral.decode_eq
    cases hdecode

end JavaSyntax
