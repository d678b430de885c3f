import JavaSyntax.Journal.Event
import JavaSyntax.Lexer.Automaton
import JavaSyntax.Lexer.Literal.Digits

/-!
# Lexical errors

Why a text cannot be split into tokens, with the offending text and the byte
offset at which it starts.
-/

namespace JavaSyntax

/-- What is wrong with a lexeme. -/
inductive LexErrorKind where
  | invalidCharacter | unterminatedString | unterminatedChar | unterminatedTextBlock
  | unterminatedComment
  | invalidNumber (fault : NumberFault)
  | invalidEscape | invalidCharLiteral | invalidTextBlockOpening | unexpectedEndOfInput
  | identifierTooLong (length : Nat)
  | stringTooLarge (size : Nat)
  | commentTooLong (length : Nat)
  | tooManyTokens (count : Nat)
deriving DecidableEq, Repr

namespace LexErrorKind

def name : LexErrorKind → String
  | invalidCharacter => "InvalidCharacter"
  | unterminatedString => "UnterminatedString"
  | unterminatedChar => "UnterminatedChar"
  | unterminatedTextBlock => "UnterminatedTextBlock"
  | unterminatedComment => "UnterminatedComment"
  | invalidNumber _ => "InvalidNumber"
  | invalidEscape => "InvalidEscape"
  | invalidCharLiteral => "InvalidCharLiteral"
  | invalidTextBlockOpening => "InvalidTextBlockOpening"
  | unexpectedEndOfInput => "UnexpectedEndOfInput"
  | identifierTooLong _ => "IdentifierTooLong"
  | stringTooLarge _ => "StringTooLarge"
  | commentTooLong _ => "CommentTooLong"
  | tooManyTokens _ => "TooManyTokens"

def code : LexErrorKind → Code
  | invalidCharacter => .invalidCharacter
  | unterminatedString => .unterminatedString
  | unterminatedChar => .unterminatedChar
  | unterminatedTextBlock => .unterminatedTextBlock
  | unterminatedComment => .unterminatedComment
  | invalidNumber _ => .invalidNumber
  | invalidEscape => .invalidEscape
  | invalidCharLiteral => .invalidCharLiteral
  | invalidTextBlockOpening => .invalidTextBlockOpening
  | unexpectedEndOfInput => .unexpectedEndOfInput
  | identifierTooLong _ => .identifierTooLong
  | stringTooLarge _ => .stringTooLarge
  | commentTooLong _ => .commentTooLong
  | tooManyTokens _ => .tooManyTokens

/-- The error that a fault of the automaton means. -/
def ofLexFault : LexFault → LexErrorKind
  | .invalidCharacter => invalidCharacter
  | .invalidNumber => invalidNumber .malformed
  | .unterminatedString => unterminatedString
  | .unterminatedChar => unterminatedChar
  | .unterminatedTextBlock => unterminatedTextBlock
  | .unterminatedComment => unterminatedComment
  | .invalidCharLiteral => invalidCharLiteral
  | .invalidTextBlockOpening => invalidTextBlockOpening
  | .unexpectedEnd => unexpectedEndOfInput

end LexErrorKind

/-- An error of the lexer: its kind, an excerpt of the offending text, and where
that text starts. -/
structure LexError where
  kind : LexErrorKind
  text : String
  offset : Nat
deriving DecidableEq, Repr

namespace LexError

/-- The most characters of an excerpt. -/
def excerptLength : Nat := 64

/-- The excerpt of a text that an error keeps. -/
def excerpt (cs : List Char) : String := String.ofList (truncate excerptLength cs)

/-- The error that a fault in a literal means; a bad escape has an offset of its own. -/
def ofLiteralFault (chars : List Char) (offset : Nat) : LiteralFault → LexError
  | .invalidNumber fault => ⟨.invalidNumber fault, excerpt chars, offset⟩
  | .invalidEscape within => ⟨.invalidEscape, excerpt chars, offset + within⟩
  | .invalidCharLiteral => ⟨.invalidCharLiteral, excerpt chars, offset⟩
  | .missingDelimiters => ⟨.unexpectedEndOfInput, excerpt chars, offset⟩

def code (e : LexError) : Code := e.kind.code

def message (e : LexError) : String :=
  match e.kind with
  | .invalidCharacter => s!"Invalid character '{e.text}' at offset {e.offset}"
  | .unterminatedString => s!"Unterminated string literal {e.text} at offset {e.offset}"
  | .unterminatedChar => s!"Unterminated character literal {e.text} at offset {e.offset}"
  | .unterminatedTextBlock => s!"Unterminated text block at offset {e.offset}"
  | .unterminatedComment => s!"Unterminated block comment at offset {e.offset}"
  | .invalidNumber fault => s!"Invalid number '{e.text}' at offset {e.offset}: {fault.reason}"
  | .invalidEscape => s!"Invalid escape sequence in {e.text} at offset {e.offset}"
  | .invalidCharLiteral => s!"Invalid character literal {e.text} at offset {e.offset}"
  | .invalidTextBlockOpening =>
    s!"Text block opening {e.text} at offset {e.offset} must end its line"
  | .unexpectedEndOfInput => s!"Input ended inside '{e.text}' at offset {e.offset}"
  | .identifierTooLong length =>
    s!"Identifier too long: {length} characters (max {Limits.maxIdentifierLength}) " ++
      s!"at offset {e.offset}"
  | .stringTooLarge size =>
    s!"String too large: {size} bytes (max {Limits.maxStringSize}) at offset {e.offset}"
  | .commentTooLong length =>
    s!"Comment too long: {length} bytes (max {Limits.maxCommentLength}) at offset {e.offset}"
  | .tooManyTokens count =>
    s!"Too many tokens: {count} (max {Limits.maxTokenCount}) at offset {e.offset}"

/-- The event that reports an error about a span, with its place if that is wanted. -/
def event (e : LexError) (span : Span) (withPlace : Bool) : LogEvent :=
  let event := LogEvent.error e.code e.message
  if withPlace then
    ((event.withSpan span).withContext "line" (toString span.start.line)).withContext
      "column" (toString span.start.column)
  else event

end LexError

end JavaSyntax
