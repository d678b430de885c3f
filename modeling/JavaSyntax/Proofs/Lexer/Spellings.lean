import JavaSyntax.Proofs.Lexer.Integers
import JavaSyntax.Proofs.Lexer.Quotation

/-!
# Spellings of strings and characters

A character has several spellings between quotation marks: it may stand for itself, and there are
escapes with a letter, with octal digits, and with the hexadecimal digits of its UTF-16 units.
However a string is spelt, character by character, it is read as one literal whose value is that
string. The automaton passes over a backslash and one more character only and does not know how
long an escape is; it is enough that no character of an escape after these two means anything to
it.
-/

namespace JavaSyntax

/-! ### Spellings -/

/-- A character that means nothing between quotation marks but itself. -/
structure StandsForItself (mark c : Char) : Prop where
  ne_mark : c ≠ mark
  ne_backslash : c ≠ '\\'
  ne_lineFeed : c ≠ '\n'
  ne_carriageReturn : c ≠ '\r'

/-- The escapes with a letter or a sign, and what they stand for. -/
def letterEscapes : List (Char × Char) :=
  [('b', '\x08'), ('t', '\t'), ('n', '\n'), ('f', '\x0c'), ('r', '\r'), ('s', ' '),
    ('"', '"'), ('\'', '\''), ('\\', '\\')]

/-- The first of the two UTF-16 units of a character beyond U+FFFF. -/
def leadingUnit (c : Char) : Nat := 0xd800 + (c.toNat - 0x10000) / 0x400

/-- The second of the two UTF-16 units of a character beyond U+FFFF. -/
def trailingUnit (c : Char) : Nat := 0xdc00 + (c.toNat - 0x10000) % 0x400

/-- An escape for a UTF-16 unit: one `u` or more, and four digits of either case. -/
inductive UnitEscape : Nat → List Char → Prop
  | digits {w x y z : Char} {i j k l : Nat} (more : Nat) (hw : IsDigit 16 i w)
      (hx : IsDigit 16 j x) (hy : IsDigit 16 k y) (hz : IsDigit 16 l z) :
      UnitEscape (16 * (16 * (16 * i + j) + k) + l)
        ('\\' :: 'u' :: (List.replicate more 'u' ++ [w, x, y, z]))

/-- The spellings of a character between quotation marks. -/
inductive Spells (mark c : Char) : List Char → Prop
  | itself (h : StandsForItself mark c) : Spells mark c [c]
  | letter {l : Char} (h : (l, c) ∈ letterEscapes) : Spells mark c ['\\', l]
  | octal {x y z : Char} {i j k : Nat} (hx : IsDigit 8 i x) (hy : IsDigit 8 j y)
      (hz : IsDigit 8 k z) (hcode : c.toNat = 8 * (8 * i + j) + k) (hle : c.toNat ≤ 0xff) :
      Spells mark c ['\\', x, y, z]
  | unit {escape : List Char} (h : UnitEscape c.toNat escape) : Spells mark c escape
  | pair {leading trailing : List Char} (hleading : UnitEscape (leadingUnit c) leading)
      (htrailing : UnitEscape (trailingUnit c) trailing) (hbeyond : 0xffff < c.toNat) :
      Spells mark c (leading ++ trailing)

/-- The spellings of a list of characters, each spelt in one of its ways. -/
inductive SpellsAll (mark : Char) : List Char → List Char → Prop
  | nil : SpellsAll mark [] []
  | cons {c : Char} {cs spelling body : List Char} (h : Spells mark c spelling)
      (hall : SpellsAll mark cs body) : SpellsAll mark (c :: cs) (spelling ++ body)

/-- A text between quotation marks. -/
def quoted (mark : Char) (body : List Char) : String := String.ofList (mark :: body ++ [mark])

/-! ### Decoding -/

namespace Escape

variable {escape rest : List Char} {d : Decoded} {piece : Piece}

/-- An escape is decoded to what it is read as. -/
theorem decodeRest_escape (h : read? false (escape ++ rest) = some (piece, rest)) :
    decodeRest false d ('\\' :: escape ++ rest) = decodeRest false (d.add piece) rest := by
  rw [List.cons_append, decodeRest, if_pos rfl]
  split
  · rename_i hnone
    cases h.symm.trans hnone
  · rename_i hsome
    cases h.symm.trans hsome
    rfl

/-- An escape with a letter is read as what is listed. -/
theorem read?_letter {l c : Char} (h : (l, c) ∈ letterEscapes) :
    read? false ([l] ++ rest) = some (.scalar c, rest) := by
  have hnamed : named? l = some c := by
    simp only [letterEscapes, List.mem_cons, List.not_mem_nil, or_false, Prod.mk.injEq] at h
    rcases h with h | h | h | h | h | h | h | h | h <;> obtain ⟨rfl, rfl⟩ := h <;> rfl
  simp only [List.singleton_append, read?, hnamed]

/-- A first digit up to `3` may have two more after it. -/
theorem read?_octal {x y z : Char} {i j k : Nat} (hx : IsDigit 8 i x) (hy : IsDigit 8 j y)
    (hz : IsDigit 8 k z) (hle : i ≤ 3) :
    read? false ([x, y, z] ++ rest) =
      some (.scalar (Char.ofNat (8 * (8 * i + j) + k)), rest) := by
  have hnamed : named? x = none := hx.elim (P := fun c => named? c = none) (by decide)
  have hbase : 8 ≤ 16 := by decide
  simp only [List.cons_append, List.nil_append, read?, hnamed,
    (digitValue?_eq_some_iff hbase).mpr hx, if_pos hle, octal,
    (digitValue?_eq_some_iff hbase).mpr hy, (digitValue?_eq_some_iff hbase).mpr hz]

/-- An escape with hexadecimal digits is read as its unit. -/
theorem read?_unit {code : Nat} (h : UnitEscape code ('\\' :: escape)) :
    read? false (escape ++ rest) = some (.unit code, rest) := by
  cases h with
  | @digits w x y z i j k l more hw hx hy hz =>
    have hu : w ≠ 'u' := hw.elim (P := fun c => c ≠ 'u') (by decide)
    have hskip : (List.replicate more 'u' ++ [w, x, y, z] ++ rest).dropWhile (· == 'u') =
        w :: x :: y :: z :: rest := by
      rw [List.append_assoc, List.dropWhile_append_of_pos (by simp)]
      exact List.dropWhile_cons_of_neg (by simpa using hu)
    have hhex : hex? 4 0 (w :: x :: y :: z :: rest) =
        some (16 * (16 * (16 * i + j) + k) + l, rest) := by
      have hbase : 16 ≤ 16 := Nat.le_refl 16
      simp only [hex?, (digitValue?_eq_some_iff hbase).mpr hw,
        (digitValue?_eq_some_iff hbase).mpr hx, (digitValue?_eq_some_iff hbase).mpr hy,
        (digitValue?_eq_some_iff hbase).mpr hz, Nat.mul_zero, Nat.zero_add]
    rw [List.cons_append]
    change (hex? 4 0 ((List.replicate more 'u' ++ [w, x, y, z] ++ rest).dropWhile (· == 'u'))).map
      _ = _
    rw [hskip, hhex]
    rfl

/-- An escape with hexadecimal digits is decoded to its unit. -/
theorem decodeRest_unit {code : Nat} (h : UnitEscape code escape) :
    decodeRest false d (escape ++ rest) = decodeRest false (d.add (.unit code)) rest := by
  obtain ⟨more, hescape⟩ : ∃ more, escape = '\\' :: more := by
    cases h
    exact ⟨_, rfl⟩
  rw [hescape]
  exact decodeRest_escape (read?_unit (hescape ▸ h))

/-- The two units of a character beyond U+FFFF are put together to it again. -/
theorem joinSurrogates_units {c : Char} (h : 0xffff < c.toNat) :
    joinSurrogates (leadingUnit c) (trailingUnit c) = c := by
  have hcode : 0x10000 + 0x400 * (leadingUnit c - 0xd800) + (trailingUnit c - 0xdc00) =
      c.toNat := by
    unfold leadingUnit trailingUnit
    omega
  rw [joinSurrogates, hcode, Char.ofNat_toNat]

/-- The first units of characters beyond U+FFFF lie in these bounds. -/
theorem isHighSurrogate_iff {code : Nat} :
    isHighSurrogate code = true ↔ 0xd800 ≤ code ∧ code < 0xdc00 := by
  simp only [isHighSurrogate, Bool.and_eq_true, decide_eq_true_eq]

/-- The second units of characters beyond U+FFFF lie in these bounds. -/
theorem isLowSurrogate_iff {code : Nat} :
    isLowSurrogate code = true ↔ 0xdc00 ≤ code ∧ code < 0xe000 := by
  simp only [isLowSurrogate, Bool.and_eq_true, decide_eq_true_eq]

/-- Two units that belong together are decoded to one character. -/
theorem add_pair {high low : Nat} (hhigh : isHighSurrogate high = true)
    (hlow : isLowSurrogate low = true) (done : List Char) :
    (Decoded.add ⟨done, none⟩ (.unit high)).add (.unit low) =
      ⟨joinSurrogates high low :: done, none⟩ := by
  simp only [Decoded.add, Decoded.startUnit, hhigh, hlow, if_true]

/-- The two units of a character beyond U+FFFF are put together to it. -/
theorem add_units {c : Char} (h : 0xffff < c.toNat) (done : List Char) :
    (Decoded.add ⟨done, none⟩ (.unit (leadingUnit c))).add (.unit (trailingUnit c)) =
      ⟨c :: done, none⟩ := by
  have hvalid : c.toNat < 0xd800 ∨ 0xdfff < c.toNat ∧ c.toNat < 0x110000 := c.valid
  have hhigh : isHighSurrogate (leadingUnit c) = true := by
    rw [isHighSurrogate_iff, leadingUnit]
    omega
  have hlow : isLowSurrogate (trailingUnit c) = true := by
    rw [isLowSurrogate_iff, trailingUnit]
    omega
  rw [add_pair hhigh hlow, joinSurrogates_units h]

/-- The code of a character is that of no half. -/
theorem add_unit (c : Char) (done : List Char) :
    Decoded.add ⟨done, none⟩ (.unit c.toNat) = ⟨c :: done, none⟩ := by
  have hvalid : c.toNat < 0xd800 ∨ 0xdfff < c.toNat ∧ c.toNat < 0x110000 := c.valid
  have hhigh : ¬ isHighSurrogate c.toNat = true := by
    rw [isHighSurrogate_iff]
    omega
  have hlow : ¬ isLowSurrogate c.toNat = true := by
    rw [isLowSurrogate_iff]
    omega
  simp only [Decoded.add, Decoded.startUnit, if_neg hhigh, if_neg hlow, Char.ofNat_toNat]

/-- A spelling of a character is decoded to it, whatever comes before and after it. -/
theorem decodeRest_spelling {mark c : Char} {spelling : List Char} (h : Spells mark c spelling)
    (done rest : List Char) :
    decodeRest false ⟨done, none⟩ (spelling ++ rest) =
      decodeRest false ⟨c :: done, none⟩ rest := by
  cases h with
  | itself h =>
    rw [List.singleton_append, decodeRest, if_neg h.ne_backslash]
    rfl
  | letter h => exact decodeRest_escape (read?_letter h)
  | @octal x y z i j k hx hy hz hcode hle =>
    rw [← Char.ofNat_toNat c, hcode]
    exact decodeRest_escape (read?_octal hx hy hz (by omega))
  | unit h => rw [decodeRest_unit h, add_unit]
  | pair hleading htrailing hbeyond =>
    rw [List.append_assoc, decodeRest_unit hleading, decodeRest_unit htrailing,
      add_units hbeyond]

/-- Whatever spellings are chosen, they are decoded to the characters that they spell. -/
theorem decodeRest_spellings {mark : Char} {cs body : List Char} (h : SpellsAll mark cs body)
    (done : List Char) : decodeRest false ⟨done, none⟩ body = .ok (done.reverse ++ cs) := by
  induction h generalizing done with
  | nil =>
    rw [decodeRest, List.append_nil]
    rfl
  | cons h _ ih =>
    rw [decodeRest_spelling h, ih]
    simp

end Escape

namespace Literal

variable {mark : Char} {body : List Char}

/-- What is spelt between quotation marks is decoded to what was spelt. -/
theorem decodeString_spellings {cs : List Char} (h : SpellsAll mark cs body)
    (hmark : mark.utf8Size = 1) : decodeString (mark :: body ++ [mark]) = .ok cs := by
  have hone : byteLength [mark] = 1 := by simp [hmark]
  have hbody : undelimited 1 (mark :: body ++ [mark]) = .ok body := by
    rw [← hone]
    exact undelimited_append rfl
  rw [decodeString, hbody]
  change (Escape.decode false body).mapError _ = _
  rw [Escape.decode, Escape.Decoded.empty, Escape.decodeRest_spellings h]
  rfl

/-- The spelling of one character is decoded to it, if it is no pair of units. -/
theorem decodeChar_spelling {c : Char} (h : Spells mark c body) (hmark : mark.utf8Size = 1) :
    decodeChar (mark :: body ++ [mark]) =
      if c.toNat ≤ 0xffff then .ok c else .error .invalidCharLiteral := by
  have hall : SpellsAll mark [c] body := by
    rw [← List.append_nil body]
    exact .cons h .nil
  rw [decodeChar, decodeString_spellings hall hmark]
  rfl

end Literal

/-! ### Scanning -/

/-- The three states between quotation marks of a sort, and the kind of the literal: after the
first mark, further inside, and after a backslash. -/
inductive Quotation : Char → LexState → LexState → LexState → TokenKind → Prop
  | string : Quotation '"' .stringOpen .string .stringEscape .stringLiteral
  | char : Quotation '\'' .charOpen .char .charEscape .charLiteral

namespace CharClass

/-- The backslash has a class of its own. -/
theorem eq_of_ofChar_eq_backslash {c : Char} (h : ofChar c = .backslash) : c = '\\' := by
  unfold ofChar at h
  split at h
  · unfold ofUnicode at h
    split at h
    · cases h
    split at h <;> cases h
  split at h
  · unfold ofAsciiLetter at h
    split at h <;> cases h
  · unfold ofAsciiSymbol at h
    split at h <;> first | rfl | cases h

end CharClass

namespace Quotation

variable {mark c : Char} {opening inside escape s : LexState} {kind : TokenKind}
  {cs rest spelling body : List Char}

/-- What stands for itself leads further inside. -/
theorem next_itself (q : Quotation mark opening inside escape kind)
    (hs : s = opening ∨ s = inside) (h : StandsForItself mark c) :
    s.next (.ofChar c) = .shift inside := by
  have hend := CharClass.ofChar_ne_endOfText c
  have hbackslash : CharClass.ofChar c ≠ .backslash := fun hclass =>
    h.ne_backslash (CharClass.eq_of_ofChar_eq_backslash hclass)
  have hlineFeed : CharClass.ofChar c ≠ .newline := fun hclass =>
    h.ne_lineFeed (CharClass.eq_of_mark? (by rw [hclass]; rfl))
  have hreturn : CharClass.ofChar c ≠ .carriageReturn := fun hclass =>
    h.ne_carriageReturn (CharClass.eq_of_mark? (by rw [hclass]; rfl))
  cases q with
  | string =>
    have hmark : CharClass.ofChar c ≠ .quote := fun hclass =>
      h.ne_mark (CharClass.eq_of_mark? (by rw [hclass]; rfl))
    generalize CharClass.ofChar c = k at *
    rcases hs with rfl | rfl <;> cases k <;> first | rfl | contradiction
  | char =>
    have hmark : CharClass.ofChar c ≠ .apostrophe := fun hclass =>
      h.ne_mark (CharClass.eq_of_mark? (by rw [hclass]; rfl))
    generalize CharClass.ofChar c = k at *
    rcases hs with rfl | rfl <;> cases k <;> first | rfl | contradiction

/-- A backslash is the start of an escape. -/
theorem next_backslash (q : Quotation mark opening inside escape kind)
    (hs : s = opening ∨ s = inside) : s.next (.ofChar '\\') = .shift escape := by
  cases q <;> rcases hs with rfl | rfl <;> rfl

/-- After a backslash any character of the same line leads further inside. -/
theorem next_escaped (q : Quotation mark opening inside escape kind) (hlineFeed : c ≠ '\n')
    (hreturn : c ≠ '\r') : escape.next (.ofChar c) = .shift inside := by
  have hend := CharClass.ofChar_ne_endOfText c
  have hlineFeed : CharClass.ofChar c ≠ .newline := fun hclass =>
    hlineFeed (CharClass.eq_of_mark? (by rw [hclass]; rfl))
  have hreturn : CharClass.ofChar c ≠ .carriageReturn := fun hclass =>
    hreturn (CharClass.eq_of_mark? (by rw [hclass]; rfl))
  generalize CharClass.ofChar c = k at *
  cases q <;> cases k <;> first | rfl | contradiction

/-- An escape is passed over if only its first two characters mean something. -/
theorem kindFrom_escape (q : Quotation mark opening inside escape kind)
    (hs : s = opening ∨ s = inside) (hlineFeed : c ≠ '\n') (hreturn : c ≠ '\r')
    (hcs : ∀ d ∈ cs, StandsForItself mark d) (rest : List Char) :
    Scan.kindFrom s ('\\' :: c :: cs ++ rest) .endOfText =
      Scan.kindFrom inside rest .endOfText := by
  rw [List.cons_append, Scan.kindFrom, q.next_backslash hs]
  change Scan.kindFrom escape (c :: (cs ++ rest)) _ = _
  rw [Scan.kindFrom, q.next_escaped hlineFeed hreturn]
  exact Scan.kindFrom_append fun d hd => q.next_itself (.inr rfl) (hcs d hd)

/-- No digit means anything between quotation marks. -/
theorem itself_of_isDigit (q : Quotation mark opening inside escape kind) {base d : Nat}
    (h : IsDigit base d c) (hbase : base ≤ 16) : StandsForItself mark c := by
  have hdigit : IsDigit 16 d c := ⟨Nat.lt_of_lt_of_le h.1 hbase, h.2⟩
  have hall : ∀ k < 16, (Nat.digitChar k).isAlphanum = true ∧
    (Nat.digitChar k).toUpper.isAlphanum = true := by decide
  have halnum : c.isAlphanum = true := hdigit.elim (P := fun c => c.isAlphanum = true) hall
  cases q <;> refine ⟨?_, ?_, ?_, ?_⟩ <;> rintro rfl <;> cases halnum

/-- The automaton passes an escape with hexadecimal digits, although it does not know where that
ends. -/
theorem kindFrom_unit (q : Quotation mark opening inside escape kind)
    (hs : s = opening ∨ s = inside) {code : Nat} (h : UnitEscape code spelling)
    (rest : List Char) :
    Scan.kindFrom s (spelling ++ rest) .endOfText = Scan.kindFrom inside rest .endOfText := by
  cases h with
  | digits more hw hx hy hz =>
    refine q.kindFrom_escape hs (by decide) (by decide) ?_ rest
    have hbase : 16 ≤ 16 := Nat.le_refl 16
    have hu : StandsForItself mark 'u' := by
      cases q <;> exact ⟨by decide, by decide, by decide, by decide⟩
    intro d hd
    rcases List.mem_append.mp hd with hd | hd
    · rwa [List.eq_of_mem_replicate hd]
    · simp only [List.mem_cons, List.not_mem_nil, or_false] at hd
      rcases hd with rfl | rfl | rfl | rfl
      · exact q.itself_of_isDigit hw hbase
      · exact q.itself_of_isDigit hx hbase
      · exact q.itself_of_isDigit hy hbase
      · exact q.itself_of_isDigit hz hbase

/-- The automaton passes over a spelling of a character. -/
theorem kindFrom_spelling (q : Quotation mark opening inside escape kind)
    (hs : s = opening ∨ s = inside) (h : Spells mark c spelling) (rest : List Char) :
    Scan.kindFrom s (spelling ++ rest) .endOfText = Scan.kindFrom inside rest .endOfText := by
  cases h with
  | itself h => rw [List.singleton_append, Scan.kindFrom, q.next_itself hs h]
  | @letter l h =>
    have hl : ∀ entry ∈ letterEscapes, entry.1 ≠ '\n' ∧ entry.1 ≠ '\r' := by decide
    exact q.kindFrom_escape hs (hl _ h).1 (hl _ h).2 (by simp) rest
  | @octal x y z i j k hx hy hz hcode hle =>
    have hbase : 8 ≤ 16 := by decide
    have hfirst := q.itself_of_isDigit hx hbase
    refine q.kindFrom_escape hs hfirst.ne_lineFeed hfirst.ne_carriageReturn ?_ rest
    intro d hd
    simp only [List.mem_cons, List.not_mem_nil, or_false] at hd
    rcases hd with rfl | rfl
    · exact q.itself_of_isDigit hy hbase
    · exact q.itself_of_isDigit hz hbase
  | unit h => exact q.kindFrom_unit hs h rest
  | pair hleading htrailing _ =>
    rw [List.append_assoc, q.kindFrom_unit hs hleading, q.kindFrom_unit (.inr rfl) htrailing]

/-- The automaton passes spellings, whichever are chosen. -/
theorem kindFrom_spellings (q : Quotation mark opening inside escape kind)
    (h : SpellsAll mark cs body) (rest : List Char) :
    Scan.kindFrom inside (body ++ rest) .endOfText = Scan.kindFrom inside rest .endOfText := by
  induction h with
  | nil => rfl
  | cons h _ ih => rw [List.append_assoc, q.kindFrom_spelling (.inr rfl) h, ih]

/-- A spelling of one character or more between quotation marks is a lexeme. -/
theorem kindOf_quoted (q : Quotation mark opening inside escape kind) (h : Spells mark c spelling)
    (hall : SpellsAll mark cs body) :
    Scan.kindOf (mark :: (spelling ++ body) ++ [mark]) .endOfText = some (.token kind) := by
  have hbody : Scan.kindFrom opening (spelling ++ body ++ [mark]) .endOfText =
      some (.token kind) := by
    rw [List.append_assoc, q.kindFrom_spelling (.inl rfl) h, q.kindFrom_spellings hall]
    cases q <;> rfl
  cases q <;> exact hbody

end Quotation

/-- Spellings between double quotes are read as a string. -/
theorem Scan.kindOf_string {cs body : List Char} (h : SpellsAll '"' cs body) :
    kindOf ('"' :: body ++ ['"']) .endOfText = some (.token .stringLiteral) := by
  cases h with
  | nil => rfl
  | cons h hall => exact Quotation.string.kindOf_quoted h hall

/-- A spelling between single quotes is read as a character. -/
theorem Scan.kindOf_char {c : Char} {body : List Char} (h : Spells '\'' c body) :
    kindOf ('\'' :: body ++ ['\'']) .endOfText = some (.token .charLiteral) := by
  rw [← List.append_nil body]
  exact Quotation.char.kindOf_quoted h .nil

/-! ### Reading back -/

/-- The first lexeme of a text is only decoded if it is no word and not too large. -/
theorem Lexer.classify_first {l : Lexer} {kind : TokenKind} {chars : List Char}
    (hl : l.metrics.totalTokens = 0) (hword : kind ≠ .identifier)
    (hsize : kind = .stringLiteral ∨ kind = .textBlock → byteLength chars ≤ Limits.maxStringSize) :
    l.classify kind chars = match Literal.decode kind chars with
      | .ok value => .ok (kind, value)
      | .error fault => .error (.ofLiteralFault chars l.position.offset fault) := by
  have hcount : ¬ Limits.maxTokenCount ≤ 0 := by decide
  have hclassify := l.classify_eq kind chars
  rw [hl, if_neg hcount, if_neg fun h => hword h.1,
    if_neg fun h => Nat.not_lt.mpr (hsize h.1) h.2, refineKind, if_neg hword] at hclassify
  exact hclassify

/-- A text that is a lexeme to its end is read as a single token, if it can be decoded. -/
theorem readsSingly_of_decode {text : String} {preferences : LexicalPreferences}
    {kind : TokenKind} {value : Option LiteralValue}
    (hscan : Scan.kindOf text.toList .endOfText = some (.token kind))
    (hword : kind ≠ .identifier) (hend : kind ≠ .endOfInput)
    (hsize : kind = .stringLiteral ∨ kind = .textBlock →
      byteLength text.toList ≤ Limits.maxStringSize)
    (hdecode : Literal.decode kind text.toList = .ok value) :
    ∃ t, ReadsSingly text preferences t ∧ t.kind = kind ∧ t.value = value := by
  have hclassify : ∀ l : Lexer, l.metrics.totalTokens = 0 →
      l.classify kind text.toList = .ok (kind, value) := by
    intro l hl
    rw [Lexer.classify_first hl hword hsize, hdecode]
  have hsingle : ∃ t, ReadsSingly text preferences t ∧ t.kind = kind :=
    exists_readsSingly hscan hend hclassify
  obtain ⟨t, ht, hkind⟩ := hsingle
  have hvalue := ht.decode_eq
  rw [hkind, hdecode] at hvalue
  exact ⟨t, ht, hkind, (Except.ok.inj hvalue).symm⟩

/-- A text that is a lexeme to its end is not read, if the lexeme is refused. -/
theorem tokenize_refused {text : String} {preferences : LexicalPreferences} {kind : TokenKind}
    {e : LexError} (hkind : Scan.kindOf text.toList .endOfText = some (.token kind))
    (hclassify : (Lexer.ofText text preferences).classify kind text.toList = .error e) :
    (tokenize text preferences).toExcept = .error e := by
  cases hchars : text.toList with
  | nil =>
    rw [hchars] at hkind
    cases hkind
  | cons c cs =>
    rw [hchars] at hkind hclassify
    have hrest : (Lexer.ofText text preferences).rest = c :: cs := hchars
    have hscan : Scan.start c cs = .lexeme (.token kind) (c :: cs).reverse [] := by
      have happend := @Scan.start_append c cs [] _ hkind
      rwa [List.append_nil] at happend
    have hlex : (Lexer.ofText text preferences).lex.result = .error e := by
      rw [Lexer.lex_of_token hrest hscan, List.reverse_reverse, Lexer.deliver, hclassify]
      rfl
    exact LexRun.toExcept_eq_error.mpr (Lexer.failure_runFrom_of_error hlex)

/-- A string is read back if its spelling is not too large. -/
theorem SpellsAll.exists_readsSingly {s : String} {body : List Char}
    (h : SpellsAll '"' s.toList body)
    (hsize : (quoted '"' body).utf8ByteSize ≤ Limits.maxStringSize)
    (preferences : LexicalPreferences) :
    ∃ t, ReadsSingly (quoted '"' body) preferences t ∧ t.kind = .stringLiteral ∧
      t.value = some (.string s) := by
  have htext : (quoted '"' body).toList = '"' :: body ++ ['"'] := String.toList_ofList
  have hbytes : byteLength (quoted '"' body).toList ≤ Limits.maxStringSize := by
    rwa [← utf8ByteSize_ofList, String.ofList_toList]
  have hdecode : Literal.decode .stringLiteral (quoted '"' body).toList =
      .ok (some (.string s)) := by
    rw [htext, Literal.decode, Literal.decodeString_spellings h (by decide)]
    change Except.ok (some (LiteralValue.string (String.ofList s.toList))) = _
    rw [String.ofList_toList]
  have hscan : Scan.kindOf (quoted '"' body).toList .endOfText = some (.token .stringLiteral) := by
    rw [htext]
    exact Scan.kindOf_string h
  exact readsSingly_of_decode hscan nofun nofun (fun _ => hbytes) hdecode

/-- A character has a value as a literal if it is one UTF-16 unit. -/
theorem Spells.decode_char {c : Char} {body : List Char} (h : Spells '\'' c body) :
    Literal.decode .charLiteral (quoted '\'' body).toList =
      if c.toNat ≤ 0xffff then .ok (some (.char c)) else .error .invalidCharLiteral := by
  have htext : (quoted '\'' body).toList = '\'' :: body ++ ['\''] := String.toList_ofList
  rw [htext, Literal.decode, Literal.decodeChar_spelling h (by decide)]
  split <;> rfl

/-- A quoted spelling of a character is read as one lexeme. -/
theorem Spells.kindOf_quoted {c : Char} {body : List Char} (h : Spells '\'' c body) :
    Scan.kindOf (quoted '\'' body).toList .endOfText = some (.token .charLiteral) := by
  have htext : (quoted '\'' body).toList = '\'' :: body ++ ['\''] := String.toList_ofList
  rw [htext]
  exact Scan.kindOf_char h

/-- A character of one UTF-16 unit is read back. -/
theorem Spells.exists_readsSingly {c : Char} {body : List Char} (h : Spells '\'' c body)
    (hle : c.toNat ≤ 0xffff) (preferences : LexicalPreferences) :
    ∃ t, ReadsSingly (quoted '\'' body) preferences t ∧ t.kind = .charLiteral ∧
      t.value = some (.char c) := by
  have hdecode := h.decode_char
  rw [if_pos hle] at hdecode
  exact readsSingly_of_decode h.kindOf_quoted nofun nofun nofun hdecode

/-- A character of two UTF-16 units is refused. -/
theorem Spells.tokenize_eq_error {c : Char} {body : List Char} (h : Spells '\'' c body)
    (hbeyond : 0xffff < c.toNat) (preferences : LexicalPreferences) :
    ∃ e, (tokenize (quoted '\'' body) preferences).toExcept = .error e ∧
      e.kind = .invalidCharLiteral := by
  have hdecode := h.decode_char
  rw [if_neg (Nat.not_le.mpr hbeyond)] at hdecode
  let l := Lexer.ofText (quoted '\'' body) preferences
  have hclassify : l.classify .charLiteral (quoted '\'' body).toList =
      .error (.ofLiteralFault (quoted '\'' body).toList l.position.offset .invalidCharLiteral) := by
    have hfirst := @Lexer.classify_first l .charLiteral (quoted '\'' body).toList rfl nofun nofun
    rwa [hdecode] at hfirst
  exact ⟨_, tokenize_refused h.kindOf_quoted hclassify, rfl⟩

/-- However a string is spelt, character by character, it is read between quotation marks as one
string literal with itself as the value. A character up to U+FFFF is read between apostrophes as
one character literal, and a character beyond is refused. -/
theorem spellings_read_back (preferences : LexicalPreferences) :
    (∀ s body, SpellsAll '"' s.toList body →
      (quoted '"' body).utf8ByteSize ≤ Limits.maxStringSize →
        ∃ t, ReadsSingly (quoted '"' body) preferences t ∧ t.kind = .stringLiteral ∧
          t.value = some (.string s)) ∧
    (∀ c body, Spells '\'' c body → c.toNat ≤ 0xffff →
      ∃ t, ReadsSingly (quoted '\'' body) preferences t ∧ t.kind = .charLiteral ∧
        t.value = some (.char c)) ∧
    ∀ c body, Spells '\'' c body → 0xffff < c.toNat →
      ∃ e, (tokenize (quoted '\'' body) preferences).toExcept = .error e ∧
        e.kind = .invalidCharLiteral := by
  refine ⟨?_, ?_, ?_⟩
  · intro s body h hsize
    exact h.exists_readsSingly hsize preferences
  · intro c body h hle
    exact h.exists_readsSingly hle preferences
  · intro c body h hbeyond
    exact h.tokenize_eq_error hbeyond preferences

/-- A letter as itself, a quotation mark, a character in octal digits, and one beyond U+FFFF with
two `u` in its second half. -/
theorem spellings_read_back_samples :
    (∃ t, ReadsSingly "\"a\\\"\\351\\uD83d\\uuDE00\"" {} t ∧ t.kind = .stringLiteral ∧
      t.value = some (.string "a\"é😀")) ∧
    (∃ t, ReadsSingly "'\"'" {} t ∧ t.kind = .charLiteral ∧ t.value = some (.char '"')) ∧
    ∃ e, (tokenize "'😀'").toExcept = .error e ∧ e.kind = .invalidCharLiteral := by
  obtain ⟨hstring, hchar, hbeyond⟩ := spellings_read_back {}
  refine ⟨?_, ?_, ?_⟩
  · have hleading : UnitEscape (leadingUnit '😀') ['\\', 'u', 'D', '8', '3', 'd'] :=
      @UnitEscape.digits 'D' '8' '3' 'd' 13 8 3 13 0 ⟨by decide, .inr (by decide)⟩
        ⟨by decide, .inl rfl⟩ ⟨by decide, .inl rfl⟩ ⟨by decide, .inl rfl⟩
    have htrailing : UnitEscape (trailingUnit '😀') ['\\', 'u', 'u', 'D', 'E', '0', '0'] :=
      @UnitEscape.digits 'D' 'E' '0' '0' 13 14 0 0 1 ⟨by decide, .inr (by decide)⟩
        ⟨by decide, .inr (by decide)⟩ ⟨by decide, .inl rfl⟩ ⟨by decide, .inl rfl⟩
    have hoctal : Spells '"' 'é' ['\\', '3', '5', '1'] :=
      @Spells.octal '"' 'é' '3' '5' '1' 3 5 1 ⟨by decide, .inl rfl⟩ ⟨by decide, .inl rfl⟩
        ⟨by decide, .inl rfl⟩ rfl (by decide)
    have hitself : StandsForItself '"' 'a' := ⟨by decide, by decide, by decide, by decide⟩
    have hall := SpellsAll.cons (.itself hitself) (.cons (@Spells.letter '"' '"' '"' (by decide))
      (.cons hoctal (.cons (.pair hleading htrailing (by decide)) .nil)))
    exact hstring "a\"é😀" _ hall (by decide +kernel)
  · have hitself : StandsForItself '\'' '"' := ⟨by decide, by decide, by decide, by decide⟩
    exact hchar '"' ['"'] (.itself hitself) (by decide)
  · have hitself : StandsForItself '\'' '😀' := ⟨by decide, by decide, by decide, by decide⟩
    exact hbeyond '😀' ['😀'] (.itself hitself) (by decide)

end JavaSyntax
