import JavaSyntax.FrontEnd.Basic
import JavaSyntax.Json.Token

/-!
# Errors as JSON

What a tool is told about an error: its name, its message, its code with what the
registry says about the code, and its place.
-/

namespace JavaSyntax

/-- What the registry says about a code: its severity, its category, a description and
an advice. -/
def Code.metadata (code : Code) : Json :=
  .ofList .string [(Code.severityOf code.text).name, Code.categoryOf code.text,
    Code.descriptionOf code.text, Code.actionOf code.text]

namespace LexError

/-- The name of an error in dumps, where the end of the text inside a token has another
name than the end of the text between tokens. -/
def name (e : LexError) : String :=
  match e.kind with
  | .unexpectedEndOfInput => "LexUnexpectedEndOfInput"
  | kind => kind.name

def toJson (e : LexError) : Json :=
  .object [("error", .string e.name), ("message", .string e.message),
    ("code", .string e.code.text), ("text", .string e.text), ("offset", .int e.offset),
    ("meta", e.code.metadata)]

end LexError

namespace SyntaxError

def name : SyntaxError → String
  | unexpectedToken .. => "UnexpectedToken"
  | restrictedWord .. => "ContextualKeyword"
  | unexpectedEnd .. => "UnexpectedEndOfInput"
  | violation .. => "GrammarViolation"
  | tooDeep .. => "MaxRecursionDepth"
  | lexical e => e.name

def toJson (e : SyntaxError) : Json :=
  .object [("error", .string e.name), ("message", .string e.message),
    ("code", .string e.code.text), ("found", .string e.found), ("offset", .int e.offset),
    ("span", .ofOption Span.toJson e.span?), ("lexical", .bool e.isLexical),
    ("enhanced", .string e.enhancedMessage), ("meta", e.code.metadata)]

end SyntaxError

namespace SourceError

def name : SourceError → String
  | notFound _ => "FileNotFound"
  | notFile _ => "InvalidPath"
  | wrongExtension _ => "InvalidExtension"
  | tooLarge _ => "FileTooLarge"
  | notPermitted _ => "PermissionDenied"
  | notText _ => "InvalidEncoding"
  | unreadable _ => "IoError"

def toJson (e : SourceError) : Json :=
  let code := e.code.text
  .object [("error", .string e.name), ("message", .string e.message), ("code", .string code),
    ("halt", .bool (Code.requiresHalt code)),
    ("meta", .ofList .string [(Code.severityOf code).name, Code.categoryOf code]),
    ("recoverable", .bool (Code.isRecoverable code))]

end SourceError

namespace FrontEndError

def name : FrontEndError → String
  | source e => e.name
  | lexical e => e.name
  | grammar e => e.name

/-- The stage that failed. -/
def stage : FrontEndError → String
  | source _ => "FileProcessing"
  | lexical _ => "Lexical"
  | grammar _ => "Syntax"

def toJson (e : FrontEndError) : Json :=
  .object [("error", .string e.name), ("stage", .string e.stage), ("message", .string e.message),
    ("code", .string e.code.text), ("offset", .ofOption (fun n => .int n) e.offset?),
    ("lexical", .bool e.isLexical), ("action", .string e.action)]

end FrontEndError

end JavaSyntax
