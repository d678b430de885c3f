import JavaSyntax.Lexer.Run

/-!
# What one call of the lexer does

A call first passes what stands between tokens, one lexeme after the other, and then
comes to an end in one of five ways. Everything about calls of the lexer follows from
these two relations, and no later proof opens the lexer's loop again.
-/

namespace JavaSyntax

/-! ### Characters that the automaton looked at -/

namespace Scan

/-- The characters of the lexeme that was read, or those that could not become one. -/
def characters : Scan → List Char
  | .lexeme _ taken _ => taken.reverse
  | .fault _ taken next => taken.reverse ++ next.toList

/-- Reading on inside a lexeme keeps what was taken and looks only at what comes next. -/
theorem characters_run (s : LexState) (taken cs : List Char) :
    ∃ more, (run s taken cs).characters = taken.reverse ++ more ∧ more <+: cs := by
  fun_induction run s taken cs with
  | case1 | case2 | case3 | case4 => exact ⟨[], by simp [characters], List.nil_prefix⟩
  | case5 s taken c rest next hnext ih =>
    obtain ⟨more, hmore, hprefix⟩ := ih
    exact ⟨c :: more, by simp [hmore], by simpa using hprefix⟩
  | case6 s taken c | case8 s taken c => exact ⟨[c], by simp [characters], by simp⟩
  | case7 => exact ⟨[], by simp [characters], List.nil_prefix⟩

/-- The automaton looks at one character at least. -/
theorem characters_start_ne_nil (c : Char) (cs : List Char) : (start c cs).characters ≠ [] := by
  unfold start
  split
  · rename_i s _
    obtain ⟨more, hmore, _⟩ := characters_run s [c] cs
    simp [hmore]
  · simp [characters]
  · simp [characters]
  · simp [characters]

/-- A run takes what it passes, and leaves the rest. -/
private theorem append_rest_of_run {s : LexState} {taken cs taken' rest : List Char}
    {kind : LexemeKind} (h : run s taken cs = .lexeme kind taken' rest) :
    taken'.reverse ++ rest = taken.reverse ++ cs := by
  fun_induction run s taken cs with
  | case5 s taken c cs next hnext ih => simpa using ih h
  | _ =>
    cases h
    try simp

/-- A lexeme and what follows it are the characters that were there. -/
theorem append_rest_of_start {c : Char} {cs taken rest : List Char} {kind : LexemeKind}
    (h : start c cs = .lexeme kind taken rest) : taken.reverse ++ rest = c :: cs := by
  unfold start at h
  split at h
  · simpa using append_rest_of_run h
  · cases h
    simp
  · cases h
  · cases h

/-- No lexeme is empty. -/
theorem reverse_ne_nil_of_start {c : Char} {cs taken rest : List Char} {kind : LexemeKind}
    (h : start c cs = .lexeme kind taken rest) : taken.reverse ≠ [] := by
  have hne := characters_start_ne_nil c cs
  rwa [h, characters] at hne

end Scan

/-! ### Kinds that the automaton yields -/

/-- Whether an action ends a lexeme as a token of a kind. -/
def LexAction.yields (kind : TokenKind) : LexAction → Bool
  | .stop (.token k) | .take (.token k) => k == kind
  | _ => false

/-- Inside a lexeme the automaton never comes to the token for the end of the text. -/
theorem LexState.yields_endOfInput_next (s : LexState) (c : CharClass) :
    (s.next c).yields .endOfInput = false := by
  cases s <;> cases c <;> rfl

/-- No character makes the end of the text. -/
theorem LexState.yields_endOfInput_first (c : CharClass) :
    (LexState.first c).yields .endOfInput = false := by
  cases c <;> rfl

/-- No state makes the end of the text. -/
private theorem LexState.ne_endOfInput_of_next {s : LexState} {c : CharClass} {kind : TokenKind}
    (h : s.next c = .before kind ∨ s.next c = .after kind) : kind ≠ .endOfInput := by
  have hyields := s.yields_endOfInput_next c
  rcases h with h | h
  · simpa [h, LexAction.yields] using hyields
  · simpa [h, LexAction.yields] using hyields

/-- No lexeme is the end of the text. -/
private theorem Scan.ne_endOfInput_of_run {s : LexState} {taken cs taken' rest : List Char}
    {kind : TokenKind} (h : run s taken cs = .lexeme (.token kind) taken' rest) :
    kind ≠ .endOfInput := by
  fun_induction run s taken cs with
  | case1 s taken k hnext | case7 s taken c cs k hnext =>
    cases h
    exact LexState.ne_endOfInput_of_next (.inl hnext)
  | case5 s taken c cs next hnext ih => exact ih h
  | case6 s taken c cs k hnext =>
    cases h
    exact LexState.ne_endOfInput_of_next (.inr hnext)
  | _ => cases h

/-- No lexeme is the end of the text. -/
theorem Scan.ne_endOfInput_of_start {c : Char} {cs taken rest : List Char} {kind : TokenKind}
    (h : start c cs = .lexeme (.token kind) taken rest) : kind ≠ .endOfInput := by
  have hyields := LexState.yields_endOfInput_first (CharClass.ofChar c)
  unfold start at h
  split at h
  · exact ne_endOfInput_of_run h
  · rename_i k hfirst
    rw [hfirst] at hyields
    cases h
    simpa [LexAction.yields] using hyields
  · cases h
  · cases h

/-- A word is a keyword, one of three literals or an identifier. -/
theorem classifyWord_cases (word : String) :
    classifyWord word ∈ [.trueLiteral, .falseLiteral, .nullLiteral, .identifier] ∨
      ∃ keyword, classifyWord word = .keyword keyword := by
  unfold classifyWord
  split
  · exact .inl (by simp)
  split
  · exact .inl (by simp)
  split
  · exact .inl (by simp)
  cases Keyword.all.find? (·.text == word) with
  | none => exact .inl (by simp)
  | some keyword => exact .inr ⟨keyword, rfl⟩

/-- A word is never the end of the text. -/
theorem classifyWord_ne_endOfInput (word : String) : classifyWord word ≠ .endOfInput := by
  intro h
  simpa [h] using classifyWord_cases word

namespace Lexer

/-- The kind of a lexeme once words are told apart. -/
def refineKind (kind : TokenKind) (chars : List Char) : TokenKind :=
  if kind = .identifier then classifyWord (String.ofList chars) else kind

/-- A lexeme is checked against the limits in a fixed order, and only then decoded. -/
theorem classify_eq (l : Lexer) (kind : TokenKind) (chars : List Char) :
    l.classify kind chars =
      if Limits.maxTokenCount ≤ l.metrics.totalTokens then
        .error ⟨.tooManyTokens (l.metrics.totalTokens + 1), LexError.excerpt chars,
          l.position.offset⟩
      else if kind = .identifier ∧ Limits.maxIdentifierLength < chars.length then
        .error ⟨.identifierTooLong chars.length, LexError.excerpt chars, l.position.offset⟩
      else if (kind = .stringLiteral ∨ kind = .textBlock) ∧
          Limits.maxStringSize < byteLength chars then
        .error ⟨.stringTooLarge (byteLength chars), LexError.excerpt chars, l.position.offset⟩
      else
        match Literal.decode (refineKind kind chars) chars with
        | .ok value => .ok (refineKind kind chars, value)
        | .error fault => .error (.ofLiteralFault chars l.position.offset fault) := by
  unfold classify
  by_cases hcount : Limits.maxTokenCount ≤ l.metrics.totalTokens
  · simp only [if_pos hcount]
    rfl
  by_cases hword : kind = .identifier ∧ Limits.maxIdentifierLength < chars.length
  · simp only [if_neg hcount, if_pos hword]
    rfl
  by_cases hstring : (kind = .stringLiteral ∨ kind = .textBlock) ∧
      Limits.maxStringSize < byteLength chars
  · simp only [if_neg hcount, if_neg hword, if_pos hstring]
    rfl
  simp only [if_neg hcount, if_neg hword, if_neg hstring]
  rfl

/-- An accepted lexeme has its refined kind and the value that its text decodes to. -/
theorem classify_eq_ok {l : Lexer} {kind kind' : TokenKind} {chars : List Char}
    {value : Option LiteralValue} (h : l.classify kind chars = .ok (kind', value)) :
    kind' = refineKind kind chars ∧ Literal.decode kind' chars = .ok value := by
  rw [classify_eq] at h
  split at h
  · cases h
  split at h
  · cases h
  split at h
  · cases h
  split at h
  · rename_i value' hdecode
    cases h
    exact ⟨rfl, hdecode⟩
  · cases h

/-- A lexeme that is not accepted is refused at its start, or at a bad escape inside it. -/
theorem classify_eq_error {l : Lexer} {kind : TokenKind} {chars : List Char} {e : LexError}
    (h : l.classify kind chars = .error e) :
    (e.kind ≠ .invalidEscape ∧ e = ⟨e.kind, LexError.excerpt chars, l.position.offset⟩) ∨
      ∃ within, Literal.decode (refineKind kind chars) chars = .error (.invalidEscape within) ∧
        e = ⟨.invalidEscape, LexError.excerpt chars, l.position.offset + within⟩ := by
  rw [classify_eq] at h
  split at h
  · cases h
    exact .inl ⟨nofun, rfl⟩
  split at h
  · cases h
    exact .inl ⟨nofun, rfl⟩
  split at h
  · cases h
    exact .inl ⟨nofun, rfl⟩
  split at h
  · cases h
  · rename_i fault hdecode
    cases h
    cases fault with
    | invalidEscape within => exact .inr ⟨within, hdecode, rfl⟩
    | invalidNumber | invalidCharLiteral | missingDelimiters => exact .inl ⟨nofun, rfl⟩

/-- An accepted lexeme does not become the end of the text. -/
theorem ne_endOfInput_of_classify {l : Lexer} {kind kind' : TokenKind} {chars : List Char}
    {value : Option LiteralValue} (hkind : kind ≠ .endOfInput)
    (h : l.classify kind chars = .ok (kind', value)) : kind' ≠ .endOfInput := by
  rw [(classify_eq_ok h).1, refineKind]
  split
  · exact classifyWord_ne_endOfInput _
  · exact hkind

/-- The lexer that has kept a lexeme for the next token. -/
theorem keep_eq_ok {l m : Lexer} {style : AffiliationStyle} {chars rest : List Char}
    (h : l.keep style chars rest = .ok m) :
    m.rest = rest ∧ m.position = l.position.advanceChars chars ∧
      m.pending =
        l.pending.push ⟨refineStyle style chars, String.ofList chars, l.spanOf chars⟩ := by
  simp only [keep] at h
  split at h
  · cases h
  · cases h
    exact ⟨rfl, rfl, rfl⟩

/-- Only a comment that is too long is not kept. -/
theorem keep_eq_error {l : Lexer} {style : AffiliationStyle} {chars rest : List Char}
    {outcome : LexOutcome} (h : l.keep style chars rest = .error outcome) :
    Limits.maxCommentLength < byteLength chars ∧
      outcome = (l.pass chars rest).refuse
        ⟨.commentTooLong (byteLength chars), LexError.excerpt chars, l.position.offset⟩
        (l.spanOf chars) := by
  simp only [keep] at h
  split at h
  · rename_i hlong
    cases h
    exact ⟨hlong.2, rfl⟩
  · cases h

/-! ### The course of a call -/

/-- Reading what stands between tokens: each lexeme is kept for the next token. -/
inductive Skips : Lexer → Lexer → Prop
  | refl (l : Lexer) : Skips l l
  | keep {l m n : Lexer} {c : Char} {cs taken rest : List Char} {style : AffiliationStyle}
      (hrest : l.rest = c :: cs)
      (hscan : Scan.start c cs = .lexeme (.affiliation style) taken rest)
      (hkeep : l.keep style taken.reverse rest = .ok m) (hskips : Skips m n) : Skips l n

/-- The token that an accepted lexeme becomes. -/
def tokenOf (l : Lexer) (kind : TokenKind) (chars : List Char) (value : Option LiteralValue) :
    Token :=
  ⟨kind, l.spanOf chars, l.pending.toList, String.ofList chars, value⟩

/-- The lexer after it has delivered a token. -/
def afterToken (l : Lexer) (token : Token) (chars rest : List Char) : Lexer :=
  { l.pass chars rest with
    pending := #[], metrics := l.metrics.addToken l.preferences token }

/-- How a call ends at the first lexeme that is not kept. -/
inductive Ends (l : Lexer) : LexOutcome → Prop
  /-- Nothing is left to read. -/
  | finished (hrest : l.rest = []) : Ends l l.finish
  /-- The automaton cannot go on. The lexer stays before the lexeme. -/
  | stuck {c : Char} {cs taken : List Char} {fault : LexFault} {next : Option Char}
      (hrest : l.rest = c :: cs) (hscan : Scan.start c cs = .fault fault taken next) :
      Ends l (l.refuse ⟨.ofLexFault fault, LexError.excerpt (taken.reverse ++ next.toList),
        l.position.offset⟩ (l.spanOf taken.reverse))
  /-- A whole lexeme is not accepted as a token. The lexer has passed it. -/
  | refused {c : Char} {cs taken rest : List Char} {kind : TokenKind} {e : LexError}
      (hrest : l.rest = c :: cs) (hscan : Scan.start c cs = .lexeme (.token kind) taken rest)
      (hclassify : l.classify kind taken.reverse = .error e) :
      Ends l ((l.pass taken.reverse rest).refuse e (l.spanOf taken.reverse))
  /-- A comment is too long. The lexer has passed it. -/
  | tooLong {c : Char} {cs taken rest : List Char} {style : AffiliationStyle}
      (hrest : l.rest = c :: cs)
      (hscan : Scan.start c cs = .lexeme (.affiliation style) taken rest)
      (hlong : Limits.maxCommentLength < byteLength taken.reverse) :
      Ends l ((l.pass taken.reverse rest).refuse
        ⟨.commentTooLong (byteLength taken.reverse), LexError.excerpt taken.reverse,
          l.position.offset⟩ (l.spanOf taken.reverse))
  /-- A token is delivered with everything that was kept. -/
  | delivered {c : Char} {cs taken rest : List Char} {kind kind' : TokenKind}
      {value : Option LiteralValue} (hrest : l.rest = c :: cs)
      (hscan : Scan.start c cs = .lexeme (.token kind) taken rest)
      (hclassify : l.classify kind taken.reverse = .ok (kind', value)) :
      Ends l ⟨.ok (l.tokenOf kind' taken.reverse value),
        l.afterToken (l.tokenOf kind' taken.reverse value) taken.reverse rest, []⟩

/-- Only where nothing is left is the end of the text delivered. -/
theorem Ends.eq_finish {l : Lexer} {outcome : LexOutcome} {t : Token} (h : Ends l outcome)
    (hresult : outcome.result = .ok t) (hend : t.isEnd = true) :
    l.rest = [] ∧ outcome = l.finish := by
  cases h with
  | finished hrest => exact ⟨hrest, rfl⟩
  | stuck | refused | tooLong => cases hresult
  | delivered hrest hscan hclassify =>
    cases hresult
    have hkind := ne_endOfInput_of_classify (Scan.ne_endOfInput_of_start hscan) hclassify
    exact absurd (eq_of_beq hend) hkind

/-- Every call skips what stands between tokens and then ends in one of these ways. -/
theorem exists_skips_ends_lex (l : Lexer) : ∃ m, Skips l m ∧ Ends m l.lex := by
  fun_induction lex l with
  | case1 l hrest => exact ⟨l, .refl l, .finished hrest⟩
  | case2 l c cs hrest fault taken next hscan => exact ⟨l, .refl l, .stuck hrest hscan⟩
  | case3 l c cs hrest kind taken rest hscan =>
    refine ⟨l, .refl l, ?_⟩
    cases hclassify : l.classify kind taken.reverse with
    | ok accepted =>
      simp only [deliver, hclassify]
      exact .delivered hrest hscan hclassify
    | error e =>
      simp only [deliver, hclassify]
      exact .refused hrest hscan hclassify
  | case4 l c cs hrest style taken rest hscan outcome hkeep =>
    obtain ⟨hlong, rfl⟩ := keep_eq_error hkeep
    exact ⟨l, .refl l, .tooLong hrest hscan hlong⟩
  | case5 l c cs hrest style taken rest hscan next hkeep _ ih =>
    obtain ⟨m, hskips, hends⟩ := ih
    exact ⟨m, .keep hrest hscan hkeep hskips, hends⟩

/-- Where nothing is left, the end of the text is delivered. -/
theorem lex_of_nil {l : Lexer} (hrest : l.rest = []) : l.lex = l.finish := by
  rw [lex]
  split
  · rfl
  · rename_i hrest'
    cases hrest.symm.trans hrest'

/-- A lexeme that is a token is delivered. -/
theorem lex_of_token {l : Lexer} {c : Char} {cs taken rest : List Char} {kind : TokenKind}
    (hrest : l.rest = c :: cs) (hscan : Scan.start c cs = .lexeme (.token kind) taken rest) :
    l.lex = l.deliver kind taken.reverse rest := by
  rw [lex]
  split
  · rename_i hrest'
    cases hrest.symm.trans hrest'
  · rename_i hrest'
    cases hrest.symm.trans hrest'
    split
    · rename_i hscan'
      cases hscan.symm.trans hscan'
    · rename_i hscan'
      cases hscan.symm.trans hscan'
      rfl
    · rename_i hscan'
      cases hscan.symm.trans hscan'

/-- Where the automaton cannot go on, the call is refused. -/
theorem lex_of_fault {l : Lexer} {c : Char} {cs taken : List Char} {fault : LexFault}
    {next : Option Char} (hrest : l.rest = c :: cs)
    (hscan : Scan.start c cs = .fault fault taken next) :
    l.lex = l.refuse ⟨.ofLexFault fault, LexError.excerpt (taken.reverse ++ next.toList),
      l.position.offset⟩ (l.spanOf taken.reverse) := by
  rw [lex]
  split
  · rename_i hrest'
    cases hrest.symm.trans hrest'
  · rename_i hrest'
    cases hrest.symm.trans hrest'
    split
    · rename_i hscan'
      cases hscan.symm.trans hscan'
      rfl
    · rename_i hscan'
      cases hscan.symm.trans hscan'
    · rename_i hscan'
      cases hscan.symm.trans hscan'

/-- A call is refused with what is not kept. -/
theorem lex_of_keep_error {l : Lexer} {c : Char} {cs taken rest : List Char}
    {style : AffiliationStyle} {outcome : LexOutcome} (hrest : l.rest = c :: cs)
    (hscan : Scan.start c cs = .lexeme (.affiliation style) taken rest)
    (hkeep : l.keep style taken.reverse rest = .error outcome) : l.lex = outcome := by
  rw [lex]
  split
  · rename_i hrest'
    cases hrest.symm.trans hrest'
  · rename_i hrest'
    cases hrest.symm.trans hrest'
    split
    · rename_i hscan'
      cases hscan.symm.trans hscan'
    · rename_i hscan'
      cases hscan.symm.trans hscan'
    · rename_i hscan'
      cases hscan.symm.trans hscan'
      split
      · rename_i hkeep'
        cases hkeep.symm.trans hkeep'
        rfl
      · rename_i hkeep'
        cases hkeep.symm.trans hkeep'

/-- A lexeme that is kept leaves the call to what comes behind it. -/
private theorem lex_of_keep {l m : Lexer} {c : Char} {cs taken rest : List Char}
    {style : AffiliationStyle} (hrest : l.rest = c :: cs)
    (hscan : Scan.start c cs = .lexeme (.affiliation style) taken rest)
    (hkeep : l.keep style taken.reverse rest = .ok m) : l.lex = m.lex := by
  rw [lex]
  split
  · rename_i hrest'
    cases hrest.symm.trans hrest'
  · rename_i hrest'
    cases hrest.symm.trans hrest'
    split
    · rename_i hscan'
      cases hscan.symm.trans hscan'
    · rename_i hscan'
      cases hscan.symm.trans hscan'
    · rename_i hscan'
      cases hscan.symm.trans hscan'
      split
      · rename_i hkeep'
        cases hkeep.symm.trans hkeep'
      · rename_i hkeep'
        cases hkeep.symm.trans hkeep'
        rfl

/-- Skipping ahead makes no difference to the call. -/
theorem Skips.lex_eq {l m : Lexer} (h : Skips l m) : l.lex = m.lex := by
  induction h with
  | refl l => rfl
  | keep hrest hscan hkeep _ ih => rw [lex_of_keep hrest hscan hkeep, ih]

/-- To keep a lexeme leaves the text as it is. -/
theorem text_keep {l m : Lexer} {style : AffiliationStyle} {chars rest : List Char}
    (h : l.keep style chars rest = .ok m) : m.text = l.text := by
  simp only [keep] at h
  split at h
  · cases h
  · cases h
    rfl

/-- To skip what stands between tokens leaves the text as it is. -/
theorem Skips.text_eq {l m : Lexer} (h : Skips l m) : m.text = l.text := by
  induction h with
  | refl l => rfl
  | keep _ _ hkeep _ ih => rw [ih, text_keep hkeep]

/-- A call does not change the text that is read. -/
theorem text_lex (l : Lexer) : l.lex.lexer.text = l.text := by
  obtain ⟨m, hskips, hends⟩ := exists_skips_ends_lex l
  rw [← hskips.text_eq]
  generalize l.lex = outcome at hends
  cases hends <;> rfl

end Lexer

end JavaSyntax
