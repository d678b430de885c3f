import JavaSyntax.Grammar.Levels
import JavaSyntax.Journal.Recent

/-!
# Parsing sessions

What one does with a parser from outside: run a production on the whole text, try
one and go back if it fails, and ask about the state.
-/

namespace JavaSyntax

/-! ### Going back -/

/-- A state of a parse to which it can go back. -/
structure Checkpoint where
  position : Nat
  contexts : List String
  depth : Nat
  lambdas : Bool
deriving DecidableEq, Repr

namespace Checkpoint

/-- The event that notes that a parse goes back. -/
def event (c : Checkpoint) : LogEvent :=
  ((LogEvent.debug "Restoring parser checkpoint").withContext
    "position" (toString c.position)).withContext
    "context" (ParserState.contextText c.contexts)

end Checkpoint

namespace ParserState

def checkpoint (s : ParserState) : Checkpoint := ⟨s.cursor.position, s.contexts, s.depth, s.lambdas⟩

/-- Goes back to a checkpoint. What was read from the lexer stays read. -/
def rollback (c : Checkpoint) (s : ParserState) : ParserState :=
  let s := s.note c.event
  { s with
    cursor := s.cursor.restore c.position
    contexts := c.contexts
    depth := c.depth
    lambdas := c.lambdas }

/-! ### Outcomes -/

/-- Remembers an error. A full history forgets its oldest one. -/
def record (e : SyntaxError) (s : ParserState) : ParserState :=
  if s.preferences.recordErrorHistory then
    { s with history := pushDroppingOldest Limits.maxErrorHistory s.history e }
  else s

/-- The event that notes a completed production. -/
def completedEvent (production : String) (s : ParserState) : LogEvent :=
  ((LogEvent.success .treeBuilt "Parse completed").withContext
    "production" production).withContext "tokens" (toString s.cursor.buffer.size)

/-- The event that notes a failed production. -/
def failedEvent (production : String) (e : SyntaxError) (s : ParserState) : LogEvent :=
  let event := LogEvent.error e.code "Parse failed"
  let event := e.span?.elim event event.withSpan
  ((event.withContext "production" production).withContext
    "context" s.currentContext).withContext "error" e.message

/-- Notes down what a production came to. -/
def conclude {α : Type} (production : String) (result : Except SyntaxError α)
    (s : ParserState) : ParserState :=
  match result with
  | .ok _ =>
    if s.preferences.logParseSummary then s.note (s.completedEvent production) else s
  | .error e => (s.record e).note (s.failedEvent production e)

/-- Leaves no production open. -/
def settle (s : ParserState) : ParserState := { s with contexts := [], depth := 0, lambdas := true }

/-! ### Questions -/

/-- A text about the whole state. -/
def diagnosticInfo (s : ParserState) : String :=
  s!"Parser State:\n{s.cursor.diagnostic}\nContext: {s.currentContext}\n" ++
    s!"Error History: {s.history.length}\nParse Depth: {s.depth}/{Limits.maxParseDepth}"

/-- An error drawn under its place in the text, if its span can be marked. -/
def formatError? (s : ParserState) (e : SyntaxError) : Option String :=
  let map := s.cursor.sourceMap
  map.formatError? (e.span?.getD (.point (map.positionAt e.offset))) e.message

/-- The limit that a state breaks, if it breaks one. -/
def violation? (s : ParserState) : Option String :=
  if Limits.maxContextStackDepth < s.contexts.length then
    some s!"Context stack depth {s.contexts.length} exceeds maximum {Limits.maxContextStackDepth}"
  else if Limits.maxParseDepth < s.depth then
    some s!"Parse depth {s.depth} exceeds maximum {Limits.maxParseDepth}"
  else if Limits.maxErrorHistory < s.history.length then
    some s!"Error history {s.history.length} exceeds maximum {Limits.maxErrorHistory}"
  else none

end ParserState

namespace Parser

variable {α : Type}

/-- The event that notes that a trial failed. -/
def trialEvent (e : SyntaxError) : LogEvent :=
  (LogEvent.debug "Speculative parse failed, restoring checkpoint").withContext "error" e.message

/-- Tries a production. If it fails, the parse goes back to where it was. -/
def attempt (p : Parser α) : Parser (Option α) := fun s =>
  let checkpoint := s.checkpoint
  match p s with
  | (.ok a, s) => (.ok (some a), s)
  | (.error e, s) => (.ok none, (s.note (trialEvent e)).rollback checkpoint)

/-- Runs a production that must take the whole text, and notes down what it came to.
No production is open afterwards. -/
def entry (production : String) (p : Parser α) : Parser α := fun s =>
  let whole : Parser α := do
    let a ← p
    expectEnd
    return a
  let (result, s) := whole (s.pushContext production)
  (result, (s.conclude production result).settle)

def compilationUnit : Parser (Node .compilationUnit) :=
  entry "compilation unit" grammar.compilationUnit

def statement : Parser (Node .statement) := entry "statement" grammar.statement

def expression : Parser (Node .expression) := entry "expression" grammar.expression

def type : Parser (Node .type) := entry "type" grammar.type

end Parser

end JavaSyntax
