import JavaSyntax.Proofs.Lexer.BoundedLiterals
import JavaSyntax.Proofs.Lexer.Excerpts
import JavaSyntax.Proofs.Lexer.Integers

/-!
# Calls of the lexer with bounds

The lexer hands a lexeme to the decoders as the automaton took it out of the text. Where it was
taken for a quotation, it stands between its delimiters, which do not overlap, and where it was
taken for a `long`, its suffix is there. So no call of the lexer breaks off inside a decoder, and
all calls end as they do without bounds.
-/

namespace JavaSyntax

/-! ### Literals that are complete -/

namespace Literal

variable {kind : TokenKind} {chars body : List Char}

/-- A fault of another sort is not about delimiters. -/
theorem mapError_ne_missingDelimiters {α ε : Type} {f : ε → LiteralFault}
    (hf : ∀ e, f e ≠ .missingDelimiters) (r : Except ε α) :
    r.mapError f ≠ .error .missingDelimiters := by
  cases r with
  | ok a =>
    intro h
    cases h
  | error e => exact fun h => hf e (Except.error.inj h)

/-- Delimiters that are there do not get lost when something is made of the result. -/
theorem map_ne_missingDelimiters {α β : Type} {r : Except LiteralFault α}
    (h : r ≠ .error .missingDelimiters) (f : α → β) : f <$> r ≠ .error .missingDelimiters := by
  cases r with
  | ok a =>
    intro h
    cases h
  | error fault => exact fun heq => h (congrArg Except.error (Except.error.inj heq))

/-- The delimiters of a string are found where it has them. -/
theorem decodeString_ne_missingDelimiters {mark : Char} (hmark : mark.utf8Size = 1) :
    decodeString (mark :: body ++ [mark]) ≠ .error .missingDelimiters := by
  have hone : byteLength [mark] = 1 := by simp [hmark]
  have hbody : undelimited 1 (mark :: body ++ [mark]) = .ok body := by
    rw [← hone]
    exact undelimited_append rfl
  rw [decodeString, hbody]
  refine mapError_ne_missingDelimiters (fun offset h => ?_) (Escape.decode false body)
  cases h

/-- The delimiters of a character are found where those of a string would be. -/
theorem decodeChar_ne_missingDelimiters {text : List Char}
    (h : decodeString text ≠ .error .missingDelimiters) :
    decodeChar text ≠ .error .missingDelimiters := by
  intro hchar
  rw [decodeChar] at hchar
  cases hstring : decodeString text with
  | error fault =>
    rw [hstring] at hchar h
    exact h (congrArg Except.error (Except.error.inj hchar))
  | ok cs =>
    rw [hstring] at hchar
    dsimp only [bind, Except.bind] at hchar
    split at hchar
    · split at hchar <;> cases hchar
    · cases hchar

/-- A literal with its delimiters and its suffix is decoded, or it is refused for another reason. -/
theorem decode_ne_missingDelimiters (hencloses : kind.Encloses chars)
    (hsuffix : kind = .longLiteral → ∃ body c, chars = body ++ [c] ∧ c.utf8Size = 1) :
    decode kind chars ≠ .error .missingDelimiters := by
  have hnumber (fault : NumberFault) : LiteralFault.invalidNumber fault ≠ .missingDelimiters := by
    intro h
    cases h
  have hfloating (width : FloatWidth) :
      decodeFloating width chars ≠ .error .missingDelimiters := by
    rw [decodeFloating]
    cases Floating.decode width chars with
    | ok value =>
      intro h
      cases h
    | error fault => exact fun h => hnumber fault (Except.error.inj h)
  intro h
  cases kind with
  | intLiteral =>
    exact map_ne_missingDelimiters (mapError_ne_missingDelimiters hnumber _) _ h
  | longLiteral =>
    obtain ⟨body, c, rfl, hc⟩ := hsuffix rfl
    have hlong : decodeInteger .long (body ++ [c]) =
        (decodeIntegerBody .long body).mapError .invalidNumber := by
      rw [decodeInteger, withoutSuffix_append body hc]
      rfl
    rw [decode, hlong] at h
    exact map_ne_missingDelimiters (mapError_ne_missingDelimiters hnumber _) _ h
  | floatLiteral => exact map_ne_missingDelimiters (hfloating .single) _ h
  | doubleLiteral => exact map_ne_missingDelimiters (hfloating .double) _ h
  | charLiteral =>
    obtain ⟨body, rfl⟩ := hencloses
    have hstring := @decodeString_ne_missingDelimiters body '\'' (by decide)
    exact map_ne_missingDelimiters (decodeChar_ne_missingDelimiters hstring)
      (some ∘ LiteralValue.char) h
  | stringLiteral =>
    obtain ⟨body, rfl⟩ := hencloses
    have hstring := @decodeString_ne_missingDelimiters body '"' (by decide)
    exact map_ne_missingDelimiters hstring (some ∘ LiteralValue.string ∘ String.ofList) h
  | textBlock =>
    obtain ⟨before, ⟨opening, c, more, rfl, -⟩, rfl⟩ := hencloses
    rw [decode_textBlock] at h
    cases hdecode : TextBlock.decode (opening ++ c :: more) with
    | ok cs =>
      rw [hdecode] at h
      cases h
    | error offset =>
      rw [hdecode] at h
      cases h
  | _ => cases h

/-- What the automaton takes for a literal is complete. -/
theorem decode_ne_missingDelimiters_of_start {c : Char} {cs taken rest : List Char}
    (h : Scan.start c cs = .lexeme (.token kind) taken rest) :
    decode (Lexer.refineKind kind taken.reverse) taken.reverse ≠ .error .missingDelimiters := by
  rw [Lexer.refineKind]
  split
  · -- a word has no delimiters and no suffix
    intro hdecode
    rcases classifyWord_cases (String.ofList taken.reverse) with hword | ⟨keyword, hword⟩
    · simp only [List.mem_cons, List.not_mem_nil, or_false] at hword
      rcases hword with hword | hword | hword | hword <;> (rw [hword] at hdecode; cases hdecode)
    · rw [hword] at hdecode
      cases hdecode
  · refine decode_ne_missingDelimiters (Scan.encloses_of_start h) ?_
    rintro rfl
    have hkind := @Scan.kindOf_of_start _ _ _ _ _ .space h rfl
    obtain ⟨body, d, hbody, hd⟩ := Scan.exists_suffix_of_kindOf hkind
    exact ⟨body, d, hbody, by rcases hd with rfl | rfl <;> decide⟩

end Literal

/-! ### Calls -/

namespace Bounded

open Lexer

/-- The kind and value of a lexeme, decoded with bounds. -/
def classify? (l : Lexer) (kind : TokenKind) (chars : List Char) :
    Steps LexError (TokenKind × Option LiteralValue) :=
  let fail (kind : LexErrorKind) : Steps LexError (TokenKind × Option LiteralValue) :=
    total (.error ⟨kind, LexError.excerpt chars, l.position.offset⟩)
  if Limits.maxTokenCount ≤ l.metrics.totalTokens then
    fail (.tooManyTokens (l.metrics.totalTokens + 1))
  else if kind = .identifier ∧ Limits.maxIdentifierLength < chars.length then
    fail (.identifierTooLong chars.length)
  else if (kind = .stringLiteral ∨ kind = .textBlock) ∧ Limits.maxStringSize < byteLength chars then
    fail (.stringTooLarge (byteLength chars))
  else
    let kind := if kind = .identifier then classifyWord (String.ofList chars) else kind
    (fun value => (kind, value)) <$>
      (decode? kind chars).adapt (.ofLiteralFault chars l.position.offset)

/-- Makes a token of a lexeme, decoded with bounds. -/
def deliver? (l : Lexer) (kind : TokenKind) (chars rest : List Char) : Option LexOutcome :=
  (classify? l kind chars).run.map fun
    | .error e => (l.pass chars rest).refuse e (l.spanOf chars)
    | .ok (kind, value) =>
      let token := l.tokenOf kind chars value
      ⟨.ok token, l.afterToken token chars rest, []⟩

/-- Reads the next token, with bounds in the decoders. -/
def lex? (l : Lexer) : Option LexOutcome :=
  match hrest : l.rest with
  | [] => some l.finish
  | c :: cs =>
    match hscan : Scan.start c cs with
    | .fault fault taken next =>
      some (l.refuse ⟨.ofLexFault fault, LexError.excerpt (taken.reverse ++ next.toList),
        l.position.offset⟩ (l.spanOf taken.reverse))
    | .lexeme (.token kind) taken rest => deliver? l kind taken.reverse rest
    | .lexeme (.affiliation style) taken rest =>
      match hkeep : l.keep style taken.reverse rest with
      | .error outcome => some outcome
      | .ok next =>
        have : next.rest.length < l.rest.length := by
          have := Scan.length_rest_le_of_start hscan
          rw [rest_keep hkeep, hrest, List.length_cons]
          omega
        lex? next
termination_by l.rest.length

/-- A lexeme whose delimiters are there is classified as without bounds. -/
theorem classify?_eq {l : Lexer} {kind : TokenKind} {chars : List Char}
    (h : Literal.decode (refineKind kind chars) chars ≠ .error .missingDelimiters) :
    classify? l kind chars = total (l.classify kind chars) := by
  rw [classify_eq, classify?]
  dsimp only
  split
  · rfl
  split
  · rfl
  split
  · rfl
  change (fun value => (refineKind kind chars, value)) <$>
    (decode? (refineKind kind chars) chars).adapt _ = _
  rw [decode?_eq, unlessCut_of_ne _ h]
  cases Literal.decode (refineKind kind chars) chars <;> rfl

/-- A lexeme whose delimiters are there is delivered as without bounds. -/
theorem deliver?_eq {l : Lexer} {kind : TokenKind} {chars : List Char} (rest : List Char)
    (h : Literal.decode (refineKind kind chars) chars ≠ .error .missingDelimiters) :
    deliver? l kind chars rest = some (l.deliver kind chars rest) := by
  rw [deliver?, classify?_eq h, deliver]
  cases l.classify kind chars <;> rfl

/-- No call of the lexer breaks off in a decoder: every slice of a literal is in bounds and cuts
between characters, every difference of lengths is a length, and every index is there. Every call
ends as it does without bounds. -/
theorem calls_in_bounds (l : Lexer) : lex? l = some l.lex := by
  fun_induction lex? l with
  | case1 l hrest => rw [lex_of_nil hrest]
  | case2 l c cs hrest fault taken next hscan =>
    rw [lex]
    split <;> grind
  | case3 l c cs hrest kind taken rest hscan =>
    rw [lex_of_token hrest hscan]
    exact deliver?_eq rest (Literal.decode_ne_missingDelimiters_of_start hscan)
  | case4 l c cs hrest style taken rest hscan outcome hkeep =>
    rw [lex]
    split <;> grind
  | case5 l c cs hrest style taken rest hscan next hkeep _ ih =>
    rw [ih, (Skips.keep hrest hscan hkeep (.refl next)).lex_eq]

end Bounded

end JavaSyntax
