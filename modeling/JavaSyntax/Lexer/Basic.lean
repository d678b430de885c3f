import JavaSyntax.Lexer.Error
import JavaSyntax.Lexer.Literal
import JavaSyntax.Lexer.Metrics
import JavaSyntax.Token.Kind

/-!
# The lexer

Between two calls the lexer stands at the start of a lexeme. A call reads white
space and comments, which it keeps for the next token, and then one token. When
the automaton cannot go on, the lexer stays where it is, so it refuses the same
text again; when a whole lexeme is refused, it has passed that lexeme.
-/

namespace JavaSyntax

/-- What the automaton makes of the next characters. Characters are listed last
first. -/
inductive Scan where
  /-- A whole lexeme, and what follows it. -/
  | lexeme (kind : LexemeKind) (taken rest : List Char)
  /-- No lexeme: what was taken, and the character that cannot follow, if any. -/
  | fault (fault : LexFault) (taken : List Char) (next : Option Char)
deriving DecidableEq, Repr

namespace Scan

/-- Runs the automaton from inside a lexeme to its end. -/
def run (s : LexState) (taken : List Char) : List Char → Scan
  | [] =>
    match s.next .endOfText with
    | .stop kind => .lexeme kind taken []
    | .fail f => .fault f taken none
    | .shift _ | .take _ => .fault .unexpectedEnd taken none
  | c :: rest =>
    match s.next (CharClass.ofChar c) with
    | .shift s => run s (c :: taken) rest
    | .take kind => .lexeme kind (c :: taken) rest
    | .stop kind => .lexeme kind taken (c :: rest)
    | .fail f => .fault f taken (some c)

/-- Runs the automaton on a lexeme that starts with a character. -/
def start (c : Char) (rest : List Char) : Scan :=
  match LexState.first (CharClass.ofChar c) with
  | .shift s => run s [c] rest
  | .take kind => .lexeme kind [c] rest
  | .fail f => .fault f [] (some c)
  | .stop _ => .fault .invalidCharacter [] (some c)

theorem length_rest_le_of_run {s : LexState} {taken cs taken' rest : List Char}
    {kind : LexemeKind} (h : run s taken cs = .lexeme kind taken' rest) :
    rest.length ≤ cs.length := by
  fun_induction run s taken cs with
  | case5 _ _ _ _ _ _ ih => exact Nat.le_succ_of_le (ih h)
  | case1 | case7 =>
    cases h
    exact Nat.le_refl _
  | case6 =>
    cases h
    exact Nat.le_succ _
  | _ => cases h

/-- A lexeme takes at least the character that it starts with. -/
theorem length_rest_le_of_start {c : Char} {cs taken rest : List Char} {kind : LexemeKind}
    (h : start c cs = .lexeme kind taken rest) : rest.length ≤ cs.length := by
  unfold start at h
  split at h
  · exact length_rest_le_of_run h
  · simp_all
  · simp at h
  · simp at h

end Scan

/-- A lexer at the start of a lexeme. -/
structure Lexer where
  text : String
  rest : List Char
  position : Position
  /-- What was read since the last token and belongs to the next one. -/
  pending : Array Affiliation
  /-- Whether the end of the text has been delivered. -/
  finished : Bool
  metrics : LexicalMetrics
  preferences : LexicalPreferences
deriving Repr

/-- The answer to one call: a token or an error, the lexer afterwards, and what was
noted down. -/
structure LexOutcome where
  result : Except LexError Token
  lexer : Lexer
  events : List LogEvent

namespace Lexer

/-- A lexer at the start of a text. -/
def ofText (text : String) (preferences : LexicalPreferences) : Lexer where
  text := text
  rest := text.toList
  position := .start
  pending := #[]
  finished := false
  metrics := {}
  preferences := preferences

/-- The span of characters that start at the lexer's position. -/
def spanOf (l : Lexer) (chars : List Char) : Span := ⟨l.position, l.position.advanceChars chars⟩

/-- Refuses to go on, with an error about a span. -/
def refuse (l : Lexer) (e : LexError) (span : Span) : LexOutcome :=
  ⟨.error e, l, [e.event span l.preferences.includePositions]⟩

/-- The lexer after a lexeme. -/
def pass (l : Lexer) (chars rest : List Char) : Lexer :=
  { l with position := l.position.advanceChars chars, rest := rest }

/-- The kind and value of a lexeme that the automaton took for a token of a kind. -/
def classify (l : Lexer) (kind : TokenKind) (chars : List Char) :
    Except LexError (TokenKind × Option LiteralValue) := do
  let offset := l.position.offset
  let fail (kind : LexErrorKind) : Except LexError Unit :=
    throw ⟨kind, LexError.excerpt chars, offset⟩
  if Limits.maxTokenCount ≤ l.metrics.totalTokens then
    fail (.tooManyTokens (l.metrics.totalTokens + 1))
  if kind = .identifier ∧ Limits.maxIdentifierLength < chars.length then
    fail (.identifierTooLong chars.length)
  if (kind = .stringLiteral ∨ kind = .textBlock) ∧ Limits.maxStringSize < byteLength chars then
    fail (.stringTooLarge (byteLength chars))
  let kind := if kind = .identifier then classifyWord (String.ofList chars) else kind
  match Literal.decode kind chars with
  | .ok value => return (kind, value)
  | .error fault => throw (.ofLiteralFault chars offset fault)

/-- Makes a token of a lexeme. It carries everything that is pending. -/
def deliver (l : Lexer) (kind : TokenKind) (chars rest : List Char) : LexOutcome :=
  match l.classify kind chars with
  | .error e => (l.pass chars rest).refuse e (l.spanOf chars)
  | .ok (kind, value) =>
    let token : Token := ⟨kind, l.spanOf chars, l.pending.toList, String.ofList chars, value⟩
    let l := l.pass chars rest
    let metrics := l.metrics.addToken l.preferences token
    ⟨.ok token, { l with pending := #[], metrics := metrics }, []⟩

/-- The style of a lexeme that stands between tokens. A block comment with two
stars at its start is a documentation comment, unless it is empty. -/
def refineStyle (style : AffiliationStyle) (chars : List Char) : AffiliationStyle :=
  match style, chars with
  | .blockComment, '/' :: '*' :: '*' :: _ :: _ :: _ => .docComment
  | _, _ => style

/-- Keeps a lexeme that stands between tokens for the next token. -/
def keep (l : Lexer) (style : AffiliationStyle) (chars rest : List Char) :
    Except LexOutcome Lexer :=
  let style := refineStyle style chars
  let next := l.pass chars rest
  let length := byteLength chars
  if style.isComment ∧ Limits.maxCommentLength < length then
    let error : LexError := ⟨.commentTooLong length, LexError.excerpt chars, l.position.offset⟩
    .error (next.refuse error (l.spanOf chars))
  else
    let affiliation : Affiliation := ⟨style, String.ofList chars, l.spanOf chars⟩
    let metrics := next.metrics.addAffiliation next.preferences affiliation
    .ok { next with pending := next.pending.push affiliation, metrics := metrics }

/-- The event that notes that the end of the text was reached. -/
def endEvent (l : Lexer) : LogEvent :=
  (((LogEvent.debug "Lexical analysis reached end of input").withContext
    "tokens" (toString l.metrics.totalTokens)).withContext
    "affiliations" (toString l.metrics.affiliationCount)).withContext
    "bytes" (toString l.text.utf8ByteSize)

/-- Delivers the end of the text. Only the first such token carries anything. -/
def finish (l : Lexer) : LexOutcome :=
  let token : Token := ⟨.endOfInput, .point l.position, l.pending.toList, "", none⟩
  ⟨.ok token, { l with pending := #[], finished := true },
    if l.finished then [] else [l.endEvent]⟩

theorem rest_keep {l l' : Lexer} {style : AffiliationStyle} {chars rest : List Char}
    (h : l.keep style chars rest = .ok l') : l'.rest = rest := by
  simp only [keep] at h
  split at h
  · simp at h
  · simp only [Except.ok.injEq] at h
    simp [← h, pass]

/-- Reads the next token. -/
def lex (l : Lexer) : LexOutcome :=
  match hrest : l.rest with
  | [] => l.finish
  | c :: cs =>
    match hscan : Scan.start c cs with
    | .fault fault taken next =>
      let chars := taken.reverse
      let text := LexError.excerpt (chars ++ next.toList)
      l.refuse ⟨.ofLexFault fault, text, l.position.offset⟩ (l.spanOf chars)
    | .lexeme (.token kind) taken rest => l.deliver kind taken.reverse rest
    | .lexeme (.affiliation style) taken rest =>
      match hkeep : l.keep style taken.reverse rest with
      | .error outcome => outcome
      | .ok next =>
        have : next.rest.length < l.rest.length := by
          have := Scan.length_rest_le_of_start hscan
          rw [rest_keep hkeep, hrest]
          simp only [List.length_cons]
          omega
        next.lex
termination_by l.rest.length

theorem rest_deliver (l : Lexer) (kind : TokenKind) (chars rest : List Char) :
    (l.deliver kind chars rest).lexer.rest = rest := by
  unfold deliver
  split <;> rfl

theorem isEnd_finish {l : Lexer} {t : Token} (h : l.finish.result = .ok t) : t.isEnd := by
  simp only [finish, Except.ok.injEq] at h
  subst h
  rfl

theorem result_keep {l : Lexer} {style : AffiliationStyle} {chars rest : List Char}
    {outcome : LexOutcome} (h : l.keep style chars rest = .error outcome) (t : Token) :
    outcome.result ≠ .ok t := by
  simp only [keep] at h
  split at h
  · simp only [Except.error.injEq] at h
    subst h
    nofun
  · simp at h

/-- A token that is not the end of the text uses up characters. -/
theorem length_rest_lex_lt {l : Lexer} {t : Token} (h : l.lex.result = .ok t)
    (hend : t.isEnd = false) : l.lex.lexer.rest.length < l.rest.length := by
  fun_induction lex l with
  | case1 l hrest => simp [isEnd_finish h] at hend
  | case2 l c cs hrest fault taken next hscan => cases h
  | case3 l c cs hrest kind taken rest hscan =>
    have := Scan.length_rest_le_of_start hscan
    rw [rest_deliver, hrest]
    simp only [List.length_cons]
    omega
  | case4 l c cs hrest style taken rest hscan outcome hkeep => exact absurd h (result_keep hkeep t)
  | case5 l c cs hrest style taken rest hscan next hkeep _ ih =>
    have := Scan.length_rest_le_of_start hscan
    have := ih h
    rw [rest_keep hkeep] at this
    rw [hrest]
    simp only [List.length_cons]
    omega

end Lexer

end JavaSyntax
