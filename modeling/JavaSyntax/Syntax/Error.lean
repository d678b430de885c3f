import JavaSyntax.Lexer.Error
import JavaSyntax.Token.Basic

/-!
# Syntax errors

Why tokens do not form a tree: the token that does not fit, with its place, or the
error of the lexer that was met on the way.
-/

namespace JavaSyntax

/-- The rules that are checked on tokens which the grammar itself lets pass. -/
inductive GrammarRule where
  | literalRange | receiverFirst | tryNeedsPart
deriving DecidableEq, Repr

namespace GrammarRule

/-- What the rule demands. -/
def message : GrammarRule → String
  | literalRange => "integer literal is too large unless negated"
  | receiverFirst => "receiver parameter must come first"
  | tryNeedsPart => "'try' requires a catch clause, a finally block or resources"

end GrammarRule

/-- Why parsing failed. -/
inductive SyntaxError where
  /-- A token stands where something else was expected. -/
  | unexpectedToken (expected found : String) (span : Span)
  /-- A word that may not name a type stands where a type is named. -/
  | restrictedWord (word : String) (span : Span)
  /-- The text ends where something was expected. -/
  | unexpectedEnd (expected : String) (offset : Nat)
  /-- A rule is broken at a token. -/
  | violation (rule : GrammarRule) (found : String) (span : Span)
  /-- Productions are nested too deep at a token. -/
  | tooDeep (found : String) (span : Span)
  /-- The lexer refused to go on. -/
  | lexical (error : LexError)
deriving DecidableEq, Repr

namespace SyntaxError

/-- The error of a token that stands where something else was expected. -/
def unexpected (expected : String) (token : Token) : SyntaxError :=
  if token.isEnd then .unexpectedEnd expected token.offset
  else .unexpectedToken expected token.source token.span

/-- The error of a token that may not name a type. -/
def restricted (token : Token) : SyntaxError := .restrictedWord token.source token.span

/-- The error of a rule that is broken at a token. -/
def broken (rule : GrammarRule) (token : Token) : SyntaxError :=
  .violation rule token.display token.span

def code : SyntaxError → Code
  | unexpectedToken .. => .unexpectedToken
  | restrictedWord .. => .contextualKeyword
  | unexpectedEnd .. => .unexpectedEof
  | violation .. => .grammarViolation
  | tooDeep .. => .maxRecursionDepth
  | lexical error => error.code

/-- The text of the offending token, nothing at the end of the text. -/
def found : SyntaxError → String
  | unexpectedToken _ found _ => found
  | restrictedWord word _ => word
  | unexpectedEnd .. => ""
  | violation _ found _ => found
  | tooDeep found _ => found
  | lexical error => error.text

/-- The span of the offending token. The end of the text has none. -/
def span? : SyntaxError → Option Span
  | unexpectedToken _ _ span => some span
  | restrictedWord _ span => some span
  | violation _ _ span => some span
  | tooDeep _ span => some span
  | _ => none

/-- The byte offset of the failure. -/
def offset : SyntaxError → Nat
  | unexpectedToken _ _ span => span.start.offset
  | restrictedWord _ span => span.start.offset
  | unexpectedEnd _ offset => offset
  | violation _ _ span => span.start.offset
  | tooDeep _ span => span.start.offset
  | lexical error => error.offset

def isLexical : SyntaxError → Bool
  | lexical _ => true
  | _ => false

def message (e : SyntaxError) : String :=
  match e with
  | unexpectedToken expected found _ =>
    s!"Unexpected token: expected {expected}, found '{found}' at offset {e.offset}"
  | restrictedWord word _ =>
    s!"'{word}' is a restricted identifier and cannot name a type (offset {e.offset})"
  | unexpectedEnd expected _ => s!"Unexpected end of input: expected {expected}"
  | violation rule found _ =>
    s!"Grammar violation: {rule.message} at '{found}' (offset {e.offset})"
  | tooDeep found _ => s!"Maximum parse depth exceeded at '{found}' (offset {e.offset})"
  | lexical error => error.message

/-- What the registry advises. -/
def action (e : SyntaxError) : String := Code.actionOf e.code.text

/-- The message with the advice. -/
def enhancedMessage (e : SyntaxError) : String :=
  match e with
  | unexpectedToken expected found _ => s!"Expected {expected} but found '{found}'. {e.action}"
  | unexpectedEnd expected _ =>
    s!"Unexpected end of input while expecting {expected}. {e.action}"
  | _ => s!"{e.message}. {e.action}"

end SyntaxError

end JavaSyntax
