import JavaSyntax.Settings.Basic
import JavaSyntax.Syntax.Error
import JavaSyntax.Token.Cursor
import JavaSyntax.Tree.Basic

/-!
# The parser's state and its elementary steps

A parser is work on a state that may fail: the cursor, the stack of contexts, the
depth of nesting, and whether an arrow may start a lambda. A failure keeps the state
that it was met in, so that what was read and noted down is not lost; whoever wants
to go back does so explicitly.
-/

namespace JavaSyntax

/-- Where a parse stands. -/
structure ParserState where
  cursor : Cursor
  /-- The names of the productions around, innermost first. -/
  contexts : List String
  /-- The errors of failed entry points, oldest first. -/
  history : List SyntaxError
  /-- How many guarded productions are open. -/
  depth : Nat
  /-- Whether an arrow after a name or a parenthesis starts a lambda. It does not in
  the labels of a `case`. -/
  lambdas : Bool
  preferences : SyntaxPreferences

/-- Work on the state of a parse, which may fail. -/
abbrev Parser := ExceptT SyntaxError (StateM ParserState)

namespace ParserState

/-- A parse at the start of a text. -/
def ofText (text : String) (lexical : LexicalPreferences := {})
    (preferences : SyntaxPreferences := {}) : ParserState where
  cursor := (Cursor.ofText text lexical).note
    ((LogEvent.debug "Creating Java parser").withContext "bytes" (toString text.utf8ByteSize))
  contexts := []
  history := []
  depth := 0
  lambdas := true
  preferences := preferences

def note (s : ParserState) (event : LogEvent) : ParserState :=
  { s with cursor := s.cursor.note event }

/-- The names of the productions around, outermost first. -/
def contextText (contexts : List String) : String := " -> ".intercalate contexts.reverse

def currentContext (s : ParserState) : String := contextText s.contexts

/-- The event that notes that the stack of contexts is full. -/
def overflowEvent : LogEvent :=
  .warning "Context stack depth limit reached, dropping oldest context"

/-- Puts a context on the stack. A full stack loses its oldest one. -/
def pushContext (context : String) (s : ParserState) : ParserState :=
  let s := if Limits.maxContextStackDepth ≤ s.contexts.length then s.note overflowEvent else s
  { s with contexts := (context :: s.contexts).take Limits.maxContextStackDepth }

def popContext (s : ParserState) : ParserState := { s with contexts := s.contexts.tail }

/-- Leaves a guarded production. -/
def leave (s : ParserState) : ParserState := { s with depth := s.depth - 1 }.popContext

/-- Goes to a saved position of the cursor. -/
def restorePosition (position : Nat) (s : ParserState) : ParserState :=
  { s with cursor := s.cursor.restore position }

end ParserState

namespace Parser

variable {α β : Type}

/-- Work on the cursor as part of a parse. -/
def read (action : Reading α) : Parser α := fun s =>
  let ⟨cursor, contexts, history, depth, lambdas, preferences⟩ := s
  let (result, cursor) := action cursor
  (result.mapError .lexical, ⟨cursor, contexts, history, depth, lambdas, preferences⟩)

def note (event : LogEvent) : Parser Unit := modify (·.note event)

/-! ### Looking and taking -/

/-- The token so many places ahead. -/
def peek (n : Nat) : Parser Token := read (Cursor.peekAhead n)

def peekKind (n : Nat) : Parser TokenKind := return (← peek n).kind

def currentKind : Parser TokenKind := peekKind 0

/-- Whether the current token is of a kind. -/
def check (kind : TokenKind) : Parser Bool := return (← currentKind) == kind

def checkKeyword (keyword : Keyword) : Parser Bool := check (.keyword keyword)

/-- Whether a token ahead is an identifier spelt like this. -/
def peekIsWord (n : Nat) (word : String) : Parser Bool := return (← peek n).isWord word

def checkWord (word : String) : Parser Bool := peekIsWord 0 word

/-- Takes the current token. The end of the text stays. -/
def advance : Parser Token := read Cursor.advance

/-- Takes the current token if it is of a kind, and says whether it did. -/
def eat (kind : TokenKind) : Parser Bool := do
  if ← check kind then
    let _ ← advance
    return true
  else return false

def eatKeyword (keyword : Keyword) : Parser Bool := eat (.keyword keyword)

/-- Takes a word if it is spelt like this, and says whether it did. -/
def eatWord (word : String) : Parser Bool := do
  if ← checkWord word then
    let _ ← advance
    return true
  else return false

/-- Makes the current token a single `>` if it starts with one. -/
def splitGreater : Parser Bool := read Cursor.splitGreater

/-! ### Demands -/

/-- Fails at the current token, where something else was expected. -/
def unexpected (expected : String) : Parser α := do
  throw (.unexpected expected (← peek 0))

def expect (kind : TokenKind) : Parser Token := do
  if ← check kind then advance else unexpected kind.describe

def expectKeyword (keyword : Keyword) : Parser Token := expect (.keyword keyword)

/-- Takes an identifier, which may be a contextual keyword. -/
def expectIdentifier : Parser String := do
  if ← check .identifier then return (← advance).source else unexpected "identifier"

/-- Takes an identifier that may name a type. -/
def expectTypeIdentifier : Parser String := do
  let token ← peek 0
  if token.kind = .identifier ∧ isRestrictedTypeName token.source then throw (.restricted token)
  expectIdentifier

/-- Takes an identifier spelt like this. -/
def expectWord (word : String) : Parser Token := do
  if ← checkWord word then advance else unexpected ("'" ++ word ++ "'")

/-- Fails unless only the end of the text remains. -/
def expectEnd : Parser Unit := do
  unless (← peek 0).isEnd do unexpected "end of input"

/-! ### Positions and nodes -/

def position : Parser Nat := return (← get).cursor.position

def restore (position : Nat) : Parser Unit := modify (·.restorePosition position)

/-- Makes a node of a tree that was read from a position on. -/
def node {f : Form} (start : Nat) (tree : Tree f) : Parser (Node f) := do
  let cursor := (← get).cursor
  let span := cursor.spanFrom start
  return .located tree span (cursor.sourceText span)

/-! ### State around productions -/

/-- Changes the state when a parser has ended, in success or failure. -/
def andThen (change : ParserState → ParserState) (p : Parser α) : Parser α := fun s =>
  let (result, s) := p s
  (result, change s)

/-- The event that notes that productions are nested too deep. -/
def depthEvent (depth : Nat) (context : String) : LogEvent :=
  ((LogEvent.debug "Parse depth limit reached").withContext "depth" (toString depth)).withContext
    "context" context

/-- Enters a guarded production, unless too many are open. -/
def enter (context : String) : Parser Unit := do
  let depth := (← get).depth
  if Limits.maxParseDepth ≤ depth then
    let token ← peek 0
    note (depthEvent depth context)
    throw (.tooDeep token.display token.span)
  modify fun s => { s with depth := s.depth + 1 }.pushContext context

/-- Runs a production one step deeper. -/
def guarded (context : String) (p : Parser α) : Parser α := do
  enter context
  andThen ParserState.leave p

/-- Says whether arrows start lambdas from now on, and what held before. -/
def setLambdas (allowed : Bool) : Parser Bool :=
  modifyGet fun s => (s.lambdas, { s with lambdas := allowed })

/-- Runs a production in which arrows start lambdas or do not. -/
def withLambdas (allowed : Bool) (p : Parser α) : Parser α := do
  let previous ← setLambdas allowed
  andThen (fun s => { s with lambdas := previous }) p

/-! ### Repetition -/

/-- What a step of a loop comes to. -/
inductive Step (α β : Type) where
  /-- The loop goes on from here. -/
  | again (next : α)
  /-- The loop ends with this result. -/
  | done (result : β)

/-- Repeats a step at most so many times. -/
def loopFor (step : α → Parser (Step α β)) : Nat → α → Parser β
  | 0, _ => unexpected "end of input"
  | n + 1, a => do
    match ← step a with
    | .again a => loopFor step n a
    | .done b => return b

/-- More steps than any loop needs in which each step uses up text. -/
def loopBound (s : ParserState) : Nat := s.cursor.text.utf8ByteSize + 1

/-- Repeats a step until it is done. Every step but the last uses up text. -/
def loop (step : α → Parser (Step α β)) (a : α) : Parser β := do
  loopFor step (loopBound (← get)) a

/-- Reads items as long as a condition holds. -/
def manyWhile (condition : Parser Bool) (item : Parser α) : Parser (List α) :=
  loop (fun items => do
    if ← condition then return .again ((← item) :: items) else return .done items.reverse) []

/-- Reads items up to a token of a kind, which stays. -/
def manyUntil (kind : TokenKind) (item : Parser α) : Parser (List α) :=
  manyWhile (return !(← check kind)) item

/-- Reads items until there is none. -/
def many (item : Parser (Option α)) : Parser (List α) :=
  loop (fun items => do
    match ← item with
    | some x => return .again (x :: items)
    | none => return .done items.reverse) []

/-- Reads one or more items with a token of a kind between them. -/
def separatedBy (kind : TokenKind) (item : Parser α) : Parser (List α) :=
  loop (fun items => do
    let items := (← item) :: items
    if ← eat kind then return .again items else return .done items.reverse) []

/-- Reads items with commas between them up to a token of a kind, which stays. A comma
may stand after the last item. -/
def trailingCommas (kind : TokenKind) (item : Parser α) : Parser (List α) :=
  loop (fun items => do
    if ← check kind then return .done items.reverse
    let items := (← item) :: items
    if ← eat .comma then return .again items else return .done items.reverse) []

/-- Reads an item after a token of a kind, if that token comes next. -/
def after? (kind : TokenKind) (item : Parser α) : Parser (Option α) := do
  if ← eat kind then return some (← item) else return none

/-- Reads an item if a token of a kind comes next, which belongs to the item. -/
def at? (kind : TokenKind) (item : Parser α) : Parser (Option α) := do
  if ← check kind then return some (← item) else return none

end Parser

end JavaSyntax
