import JavaSyntax.Source.File
import JavaSyntax.Syntax.Error
import JavaSyntax.Syntax.Session
import JavaSyntax.Text.LetterCase
import JavaSyntax.Tree.Printer

/-!
# The front end

From a text to its tree, to the sort of its leading parenthesis, or to a report on whether its
tokens and its tree give the text back. All work notes down events, whether it succeeds or fails.

A text is parsed as a whole file, or as one statement, expression or type, and in every mode all
of it has to belong to that. Work fails on a file that cannot be read, a text that cannot be split
into tokens, or tokens that make no tree. What the lexer refuses while a parser reads counts as a
failure of the lexer.
-/

namespace JavaSyntax

/-! ### Failures -/

/-- Why the front end has no answer. -/
inductive FrontEndError where
  | source (error : SourceError)
  | lexical (error : LexError)
  | grammar (error : SyntaxError)
deriving DecidableEq, Repr

namespace FrontEndError

/-- The failure that a parser met. -/
def ofSyntax : SyntaxError → FrontEndError
  | .lexical error => .lexical error
  | error => .grammar error

def code : FrontEndError → Code
  | source error => error.code
  | lexical error => error.code
  | grammar error => error.code

/-- The byte offset of the failure. A file that cannot be read has none. -/
def offset? : FrontEndError → Option Nat
  | source _ => none
  | lexical error => some error.offset
  | grammar error => some error.offset

def isLexical : FrontEndError → Bool
  | lexical _ => true
  | _ => false

def message : FrontEndError → String
  | source error => s!"File processing failed: {error.message}"
  | lexical error => s!"Lexical analysis failed: {error.message}"
  | grammar error => s!"Syntax analysis failed: {error.message}"

/-- What the registry advises. -/
def action (e : FrontEndError) : String := Code.actionOf e.code.text

end FrontEndError

/-! ### What a text is parsed as -/

/-- What a text is parsed as. -/
inductive ParseMode where
  | compilationUnit | statement | expression | type
deriving DecidableEq, Repr

/-- The complaint about a name that no mode has, in small letters. -/
structure UnknownMode where
  name : String
deriving DecidableEq, Repr

def UnknownMode.message (e : UnknownMode) : String := s!"unknown parse mode '{e.name}'"

namespace ParseMode

/-- How a mode is written for a reader. -/
def text : ParseMode → String
  | compilationUnit => "compilation-unit"
  | statement => "statement"
  | expression => "expression"
  | type => "type"

/-- How a mode is written in dumps. -/
def name : ParseMode → String
  | compilationUnit => "CompilationUnit"
  | statement => "Statement"
  | expression => "Expression"
  | type => "Type"

/-- The mode that a name stands for, in capital or small letters. -/
def ofText (text : String) : Except UnknownMode ParseMode :=
  match LetterCase.lower text with
  | "compilation-unit" | "unit" | "file" => .ok compilationUnit
  | "statement" | "stmt" => .ok statement
  | "expression" | "expr" => .ok expression
  | "type" => .ok type
  | other => .error ⟨other⟩

/-- The form of the trees that a mode yields. -/
def form : ParseMode → Form
  | compilationUnit => .compilationUnit
  | statement => .statement
  | expression => .expression
  | type => .type

/-- The parser of a mode. -/
def parser : (mode : ParseMode) → Parser (Node mode.form)
  | compilationUnit => Parser.compilationUnit
  | statement => Parser.statement
  | expression => Parser.expression
  | type => Parser.type

end ParseMode

/-! ### Work on a text -/

/-- Work on a text, which may fail and notes down events in order. -/
abbrev FrontEnd := ExceptT FrontEndError (StateM (Array LogEvent))

/-- What a check of a text found. -/
structure RoundTrip where
  /-- How many tokens the text has, its end included. -/
  tokenCount : Nat
  /-- Whether the tokens give the text back. -/
  lossless : Bool
  /-- Whether the tree is printed as the tree of its printed form is. -/
  idempotent : Bool
deriving DecidableEq, Repr

def RoundTrip.passed (r : RoundTrip) : Bool := r.lossless && r.idempotent

/-- The event that notes what a check found. -/
def RoundTrip.event (r : RoundTrip) (mode : ParseMode) : LogEvent :=
  if r.passed then
    ((LogEvent.success .roundTripVerified "Round trip verified").withContext
      "mode" mode.text).withContext "tokens" (toString r.tokenCount)
  else
    ((LogEvent.warning "Round trip mismatch").withContext
      "lossless" (toString r.lossless)).withContext "idempotent" (toString r.idempotent)

namespace FrontEnd

variable {α : Type}

def note (event : LogEvent) : FrontEnd Unit := modify (·.push event)

/-- What work on nothing noted down before comes to. -/
def evaluate (work : FrontEnd α) : Except FrontEndError α := (work #[]).1

/-- Runs a parser on a text. -/
def withParser (text : String) (lexical : LexicalPreferences) (grammar : SyntaxPreferences)
    (parser : Parser α) : FrontEnd α := fun events =>
  let (result, state) := parser (.ofText text lexical grammar)
  (result.mapError .ofSyntax, events ++ state.cursor.journal)

/-- Splits a text into tokens. -/
def tokens (text : String) (lexical : LexicalPreferences := {}) : FrontEnd (List Token) :=
  fun events =>
    let run := tokenize text lexical
    (run.toExcept.mapError .lexical, events ++ run.loggedEvents.toArray)

/-- Parses a text. -/
def parse (text : String) (mode : ParseMode) (lexical : LexicalPreferences := {})
    (grammar : SyntaxPreferences := {}) : FrontEnd (Node mode.form) :=
  withParser text lexical grammar mode.parser

/-- Says what the parenthesis at the start of a text opens. -/
def classify (text : String) : FrontEnd ParenKind :=
  withParser text {} {} do
    if ← Parser.check .leftParen then Parser.classifyParen else Parser.unexpected "'('"

/-- Checks that the tokens of a text give it back, and that its tree is printed as the
tree of its printed form is. -/
def checkRoundTrip (text : String) (mode : ParseMode) : FrontEnd RoundTrip := do
  let tokens ← tokens text
  let printed := (← parse text mode).canonical
  let reprinted := (← parse printed mode).canonical
  let report : RoundTrip := ⟨tokens.length, reconstruct tokens == text, printed == reprinted⟩
  note (report.event mode)
  return report

end FrontEnd

end JavaSyntax
