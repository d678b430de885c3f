import JavaSyntax.Proofs.Lexer.Quotation
import JavaSyntax.Proofs.Lexer.Series

/-!
# Errors and the text that they quote

The text of a lexical error stands in the input where the error points, as far as the error keeps
it. Only a bad escape is different: the whole literal is quoted, and the error points into it.
-/

namespace JavaSyntax

/-! ### Excerpts -/

/-- An excerpt of what a text starts with is the start of that text, whole or with dots. -/
theorem LexError.excerpt_eq {cs text : List Char} (h : cs <+: text) :
    LexError.excerpt cs =
      if cs.length ≤ 64 then String.ofList cs else String.ofList (text.take 64) ++ "..." := by
  change String.ofList (truncate 64 cs) = _
  unfold truncate
  by_cases hshort : cs.length ≤ 64
  · rw [if_pos hshort, List.drop_eq_nil_of_le hshort]
    rfl
  · have hdrop : (cs.drop 64).isEmpty = false := by simpa using hshort
    have htake : text.take 64 = cs.take 64 := by
      obtain ⟨more, rfl⟩ := h
      exact List.take_append_of_le_length (Nat.le_of_not_le hshort)
    rw [if_neg hshort, hdrop, htake]
    exact String.ofList_append

/-- The automaton looks at nothing but the characters that it is given, from the first one on. -/
theorem Scan.isPrefix_characters_start (c : Char) (cs : List Char) :
    (start c cs).characters <+: c :: cs := by
  unfold start
  split
  · rename_i s _
    obtain ⟨more, hmore, hprefix⟩ := characters_run s [c] cs
    rw [hmore]
    simpa using hprefix
  · simp [characters]
  · simp [characters]
  · simp [characters]

/-! ### Bad escapes -/

/-- Where a bad escape is reported for a quotation that starts at a byte offset: at a backslash
with nothing but good characters and escapes before it, or below the opening line of a text
block. -/
inductive EscapeAt (start : Nat) : TokenKind → List Char → Nat → Prop
  | string {before after chars : List Char} (h : Escape.decode false before = .ok chars) :
      EscapeAt start .stringLiteral ('"' :: (before ++ '\\' :: after) ++ ['"'])
        (start + byteLength ('"' :: before))
  | char {before after chars : List Char} (h : Escape.decode false before = .ok chars) :
      EscapeAt start .charLiteral ('\'' :: (before ++ '\\' :: after) ++ ['\''])
        (start + byteLength ('\'' :: before))
  | textBlock {opening terminator content : List Char}
      (hopening : ∀ c ∈ opening, isLineTerminator c = false) (h : EndsLine terminator content) :
      EscapeAt start .textBlock
        (TextBlock.marks ++ (opening ++ terminator ++ content) ++ TextBlock.marks)
        (start + byteLength (TextBlock.marks ++ (opening ++ terminator)))

/-- Only quotations have bad escapes. -/
theorem Literal.quoted_of_decode {kind : TokenKind} {text : List Char} {within : Nat}
    (h : decode kind text = .error (.invalidEscape within)) : kind.quoted = true := by
  rcases decode_eq_invalidEscape h with ⟨rfl | rfl, -⟩ | ⟨rfl, -⟩ <;> rfl

/-- Where a bad escape is reported in what the automaton took for a quotation. -/
theorem escapeAt_of_decode {start within : Nat} {kind : TokenKind} {text : List Char}
    (htext : kind.Encloses text) (h : Literal.decode kind text = .error (.invalidEscape within)) :
    EscapeAt start kind text (start + within) := by
  rcases Literal.decode_eq_invalidEscape h with ⟨rfl | rfl, hstring⟩ | ⟨rfl, hblock⟩
  · obtain ⟨body, rfl⟩ := htext
    obtain ⟨before, after, rfl, rfl, chars, hchars⟩ := Literal.decodeString_eq_error rfl hstring
    exact .string hchars
  · obtain ⟨body, rfl⟩ := htext
    obtain ⟨before, after, rfl, rfl, chars, hchars⟩ := Literal.decodeString_eq_error rfl hstring
    exact .char hchars
  · obtain ⟨read, ⟨opening, c, more, rfl, hopening, hc⟩, rfl⟩ := htext
    obtain ⟨terminator, content, hsplit, hends, hlength⟩ :=
      TextBlock.openingLength_eq hopening hc more
    rw [Literal.decodeTextBlock_eq_error rfl hblock, hlength, hsplit, ← byteLength_append]
    exact .textBlock hopening hends

/-- The place that is reported lies between two parts of the quotation. -/
theorem EscapeAt.exists_split {start offset : Nat} {kind : TokenKind} {text : List Char}
    (h : EscapeAt start kind text offset) :
    ∃ before after, text = before ++ after ∧ offset = start + byteLength before := by
  cases h with
  | @string before after => exact ⟨'"' :: before, '\\' :: after ++ ['"'], by simp, rfl⟩
  | @char before after => exact ⟨'\'' :: before, '\\' :: after ++ ['\''], by simp, rfl⟩
  | @textBlock opening terminator content =>
    exact ⟨TextBlock.marks ++ (opening ++ terminator), content ++ TextBlock.marks, by simp, rfl⟩

/-! ### Errors of one call -/

/-- Where an error points: at a part of the text that it quotes as far as an excerpt goes, or
into a quotation with a bad escape. -/
inductive LexError.PointsAt (text : String) (e : LexError) : Prop
  | excerpt {before : String} {c : Char} {cs : List Char}
      (htext : text = before ++ String.ofList (c :: cs)) (hkind : e.kind ≠ .invalidEscape)
      (hoffset : e.offset = before.utf8ByteSize)
      (hquotes : e.text = LexError.excerpt (Scan.start c cs).characters) : PointsAt text e
  | escape {before : String} {c : Char} {cs taken rest : List Char} {kind : TokenKind}
      (htext : text = before ++ String.ofList (c :: cs)) (hkind : e.kind = .invalidEscape)
      (hscan : Scan.start c cs = .lexeme (.token kind) taken rest)
      (hplace : EscapeAt before.utf8ByteSize kind taken.reverse e.offset) : PointsAt text e

namespace Lexer

variable {text : String} {fs : List Fragment} {l : Lexer} {kind : TokenKind} {chars : List Char}
  {e : LexError}

/-- A word is no quotation, so the kind of a quotation is the one that the automaton found. -/
theorem refineKind_of_quoted (h : (refineKind kind chars).quoted = true) :
    refineKind kind chars = kind := by
  unfold refineKind at h ⊢
  split
  · rename_i hword
    rw [if_pos hword] at h
    exfalso
    rcases classifyWord_cases (String.ofList chars) with hliteral | ⟨keyword, hkeyword⟩
    · simp only [List.mem_cons, List.not_mem_nil, or_false] at hliteral
      rcases hliteral with hliteral | hliteral | hliteral | hliteral <;>
        (rw [hliteral] at h; cases h)
    · rw [hkeyword] at h
      cases h
  · rfl

/-- An error of a call points at what it quotes, or into a quotation. -/
theorem Ends.pointsAt {outcome : LexOutcome} (hends : Ends l outcome) (h : l.HasCovered text fs)
    (herror : outcome.result = .error e) : e.PointsAt text := by
  have htext := h.text_eq
  have hoffset := h.offset_eq
  cases hends with
  | finished | delivered => cases herror
  | @stuck c cs taken fault next hrest hscan =>
    cases herror
    rw [hrest] at htext
    refine .excerpt htext ?_ hoffset ?_
    · cases fault <;> exact nofun
    · rw [hscan]
      rfl
  | @refused c cs taken rest kind e hrest hscan hclassify =>
    cases herror
    rw [hrest] at htext
    rcases classify_eq_error hclassify with ⟨hkind, he⟩ | ⟨within, hdecode, rfl⟩
    · refine .excerpt htext hkind ?_ ?_
      · rw [he]
        exact hoffset
      · rw [he, hscan]
        rfl
    · rw [refineKind_of_quoted (Literal.quoted_of_decode hdecode)] at hdecode
      refine .escape htext rfl hscan ?_
      rw [hoffset]
      exact escapeAt_of_decode (Scan.encloses_of_start hscan) hdecode
  | @tooLong c cs taken rest style hrest hscan hlong =>
    cases herror
    rw [hrest] at htext
    refine .excerpt htext nofun hoffset ?_
    rw [hscan]
    rfl

/-- An error that stops a run is the answer to one of the calls. -/
theorem exists_after_of_runFrom {tokens : List Token} {events : List LogEvent}
    (h : (runFrom tokens events l).failure = some e) :
    ∃ n, (l.after n).lex.result = .error e := by
  fun_induction runFrom tokens events l with
  | case1 tokens events l outcome events' e' hresult =>
    cases h
    exact ⟨0, hresult⟩
  | case2 => cases h
  | case3 tokens events l outcome events' t hresult hend _ ih =>
    obtain ⟨n, hn⟩ := ih h
    refine ⟨n + 1, ?_⟩
    rwa [after_succ]

/-- Every call that ends in an error points at the text. -/
theorem pointsAt_of_after {preferences : LexicalPreferences} {n : Nat}
    (h : ((ofText text preferences).after n).lex.result = .error e) : e.PointsAt text := by
  obtain ⟨fs, hperm, hcovered⟩ := hasCovered_after text preferences n
  obtain ⟨gs, -, hskip⟩ := (skips_skip _).hasCovered hcovered hperm
  exact (ends_skip _).pointsAt hskip h

end Lexer

/-- Every error that stops the lexer points at the text that it quotes. Its offset lies between
two characters or at an end of the text. Unless the error is about an escape, the text goes on
from there with what the error quotes; of more than 64 characters it quotes the first 64 and
adds three dots. A bad escape in a string or a character is reported at a backslash with nothing
bad before it, and one in a text block below the opening line. -/
theorem error_points_at_text {text : String} {preferences : LexicalPreferences} {e : LexError}
    (h : (tokenize text preferences).toExcept = .error e) :
    (∃ before after, text = before ++ after ∧ e.offset = before.utf8ByteSize) ∧
    (e.kind ≠ .invalidEscape → ∃ before c cs, text = before ++ String.ofList (c :: cs) ∧
      e.offset = before.utf8ByteSize ∧ (Scan.start c cs).characters <+: c :: cs ∧
      e.text =
        if (Scan.start c cs).characters.length ≤ 64 then
          String.ofList (Scan.start c cs).characters
        else String.ofList ((c :: cs).take 64) ++ "...") ∧
    (e.kind = .invalidEscape → ∃ before c cs kind taken rest,
      text = before ++ String.ofList (c :: cs) ∧
      Scan.start c cs = .lexeme (.token kind) taken rest ∧
      EscapeAt before.utf8ByteSize kind taken.reverse e.offset) := by
  obtain ⟨n, hn⟩ := Lexer.exists_after_of_runFrom (LexRun.toExcept_eq_error.mp h)
  cases Lexer.pointsAt_of_after hn with
  | @excerpt before c cs htext hkind hoffset hquotes =>
    have hprefix := Scan.isPrefix_characters_start c cs
    refine ⟨⟨before, _, htext, hoffset⟩, fun _ => ?_, fun h => absurd h hkind⟩
    exact ⟨before, c, cs, htext, hoffset, hprefix, hquotes.trans (LexError.excerpt_eq hprefix)⟩
  | @escape before c cs taken rest kind htext hkind hscan hplace =>
    refine ⟨?_, fun h => absurd hkind h, fun _ => ?_⟩
    · obtain ⟨front, back, hsplit, hoffset⟩ := hplace.exists_split
      have hall : c :: cs = front ++ (back ++ rest) := by
        rw [← Scan.append_rest_of_start hscan, hsplit, List.append_assoc]
      refine ⟨before ++ String.ofList front, String.ofList (back ++ rest), ?_, ?_⟩
      · rw [htext, hall, String.ofList_append, String.append_assoc]
      · rw [hoffset, String.utf8ByteSize_append, utf8ByteSize_ofList]
    · exact ⟨before, c, cs, kind, taken, rest, htext, hscan, hplace⟩

/-- A bad escape after a character of two bytes, one in a text block, and a number of seventy
digits that is no octal number. -/
theorem error_points_at_text_samples :
    (∃ before c cs kind taken rest, "é \"a\\q\"" = before ++ String.ofList (c :: cs) ∧
      Scan.start c cs = .lexeme (.token kind) taken rest ∧
      EscapeAt before.utf8ByteSize kind taken.reverse 5) ∧
    (∃ before after, "\"\"\"\r\n\\q\"\"\"" = before ++ after ∧ 5 = before.utf8ByteSize) ∧
    ∃ before c cs, "x 0" ++ String.ofList (List.replicate 69 '9') =
        before ++ String.ofList (c :: cs) ∧ 2 = before.utf8ByteSize ∧
      "0" ++ String.ofList (List.replicate 63 '9') ++ "..." =
        if (Scan.start c cs).characters.length ≤ 64 then
          String.ofList (Scan.start c cs).characters
        else String.ofList ((c :: cs).take 64) ++ "..." := by
  have hstring : (tokenize "é \"a\\q\"" {}).failure = some ⟨.invalidEscape, "\"a\\q\"", 5⟩ := by
    decide +kernel
  have hblock : (tokenize "\"\"\"\r\n\\q\"\"\"" {}).failure =
      some ⟨.invalidEscape, "\"\"\"\r\n\\q\"\"\"", 5⟩ := by decide +kernel
  have hlong : (tokenize ("x 0" ++ String.ofList (List.replicate 69 '9')) {}).failure =
      some ⟨.invalidNumber .octalDigit,
        "0" ++ String.ofList (List.replicate 63 '9') ++ "...", 2⟩ := by decide +kernel
  refine ⟨?_, ?_, ?_⟩
  · exact (error_points_at_text (LexRun.toExcept_eq_error.mpr hstring)).2.2 rfl
  · exact (error_points_at_text (LexRun.toExcept_eq_error.mpr hblock)).1
  · obtain ⟨before, c, cs, htext, hoffset, -, hquotes⟩ :=
      (error_points_at_text (LexRun.toExcept_eq_error.mpr hlong)).2.1 nofun
    exact ⟨before, c, cs, htext, hoffset, hquotes⟩

end JavaSyntax
