import JavaSyntax.Lexer.Run
import JavaSyntax.Text.SourceMap

/-!
# A rewindable cursor over the tokens of a text

The cursor reads tokens from the lexer only when they are asked for and keeps them,
so a place to return to is an index into what was read. A `>>` or a similar token
can be split, so that its first `>` closes a list of type arguments; going back to
a place before a split undoes it.
-/

namespace JavaSyntax

/-- What was read of a text, and where the reader stands in it. -/
structure Cursor where
  lexer : Lexer
  /-- The tokens read so far, with split tokens in two parts. -/
  buffer : Array Token
  /-- The index of the current token. -/
  position : Nat
  /-- The indices and whole tokens of the splits in force, latest first. -/
  splits : List (Nat × Token)
  /-- What was noted down, in order. -/
  journal : Array LogEvent

/-- Work on a cursor, which the lexer may refuse. -/
abbrev Reading := ExceptT LexError (StateM Cursor)

/-- What remains of a token after a `>` was split off, or nothing if there is no `>` to
split off. -/
def TokenKind.afterGreater? : TokenKind → Option TokenKind
  | .shiftRight => some .greater
  | .unsignedShiftRight => some .shiftRight
  | .greaterEqual => some .assign
  | .shiftRightAssign => some .greaterEqual
  | .unsignedShiftRightAssign => some .shiftRightAssign
  | _ => none

namespace Token

/-- The place one byte into a token. -/
def secondPosition (t : Token) : Position :=
  ⟨t.span.start.offset + 1, t.span.start.line, t.span.start.column + 1⟩

/-- The `>` at the start of a token. It keeps what stands before the token. -/
def greaterHead (t : Token) : Token :=
  ⟨.greater, ⟨t.span.start, t.secondPosition⟩, t.affiliations, ">", none⟩

/-- What follows the `>` at the start of a token. -/
def greaterTail (t : Token) (kind : TokenKind) : Token :=
  ⟨kind, ⟨t.secondPosition, t.span.stop⟩, [], String.ofList t.source.toList.tail, none⟩

end Token

namespace Cursor

/-- A cursor at the start of a text. -/
def ofText (text : String) (preferences : LexicalPreferences := {}) : Cursor where
  lexer := .ofText text preferences
  buffer := #[]
  position := 0
  splits := []
  journal := #[]

def text (c : Cursor) : String := c.lexer.text

/-- Notes an event down. -/
def note (c : Cursor) (event : LogEvent) : Cursor := { c with journal := c.journal.push event }

/-- Whether the end of the text has been read. -/
def reachedEnd (c : Cursor) : Bool := c.buffer.back?.any Token.isEnd

/-- Reads one more token. -/
def readToken : Reading Unit := do
  let c ← get
  let outcome := c.lexer.lex
  set { c with lexer := outcome.lexer, journal := c.journal ++ outcome.events }
  let token ← outcome.result
  modify fun c => { c with buffer := c.buffer.push token }

/-- Reads so many more tokens, or fewer if the text ends before. -/
def readTokens : Nat → Reading Unit
  | 0 => pure ()
  | n + 1 => do
    unless (← get).reachedEnd do
      readToken
      readTokens n

/-- The end of the text, for a cursor that has read nothing. -/
def noToken : Token := ⟨.endOfInput, .nowhere, [], "", none⟩

/-- The token at an index, or the last one that was read. -/
def tokenAt (c : Cursor) (index : Nat) : Token :=
  c.buffer[index]?.getD (c.buffer.back?.getD noToken)

/-- The token so many places ahead. Past the end of the text it is its end. -/
def peekAhead (n : Nat) : Reading Token := do
  let c ← get
  let index := c.position + n
  readTokens (index + 1 - c.buffer.size)
  return (← get).tokenAt index

def current : Reading Token := peekAhead 0

/-- The kind of the token so many places ahead. -/
def peekKind (n : Nat) : Reading TokenKind := return (← peekAhead n).kind

def currentKind : Reading TokenKind := peekKind 0

/-- Consumes the current token. The end of the text is never consumed. -/
def advance : Reading Token := do
  let token ← current
  unless token.isEnd do modify fun c => { c with position := c.position + 1 }
  return token

def isAtEnd : Reading Bool := return (← current).isEnd

/-- The token that was consumed last. -/
def previous (c : Cursor) : Option Token :=
  if c.position = 0 then none else c.buffer[c.position - 1]?

/-- Puts the two parts of a split token back together. -/
def undoSplit (buffer : Array Token) (index : Nat) (whole : Token) : Array Token :=
  (buffer.eraseIdxIfInBounds (index + 1)).setIfInBounds index whole

/-- Undoes the splits at an index or after it, latest first. -/
def undoSplits (buffer : Array Token) (saved : Nat) :
    List (Nat × Token) → Array Token × List (Nat × Token)
  | [] => (buffer, [])
  | (index, whole) :: splits =>
    if index < saved then (buffer, (index, whole) :: splits)
    else undoSplits (undoSplit buffer index whole) saved splits

/-- Goes to a saved position, with the splits undone that were made after it. -/
def restore (c : Cursor) (saved : Nat) : Cursor :=
  let (buffer, splits) := undoSplits c.buffer saved c.splits
  { c with buffer := buffer, splits := splits, position := saved }

/-- Replaces a token by its two parts. -/
def replaceByParts (buffer : Array Token) (index : Nat) (head tail : Token) : Array Token :=
  (buffer.setIfInBounds index head).insertIdxIfInBounds (index + 1) tail

/-- Makes the current token a single `>`, if it starts with one. Says whether it
does. -/
def splitGreater : Reading Bool := do
  let token ← current
  if token.kind = .greater then return true
  match token.kind.afterGreater? with
  | none => return false
  | some kind =>
    modify fun c => { c with
      buffer := replaceByParts c.buffer c.position token.greaterHead (token.greaterTail kind)
      splits := (c.position, token) :: c.splits }
    return true

/-- The span from the token at an index to the last one that was consumed. -/
def spanFrom (c : Cursor) (start : Nat) : Span :=
  let first : Position := c.buffer[start]?.elim ⟨0, 0, 0⟩ (·.span.start)
  match c.previous with
  | some last => if start < c.position then ⟨first, last.span.stop⟩ else .point first
  | none => .point first

/-- The tokens between two indices that were read. -/
def tokensBetween (c : Cursor) (start stop : Nat) : List Token :=
  (c.buffer.extract start stop).toList

/-- The text under a span. -/
def sourceText (c : Cursor) (span : Span) : String := span.slice c.text

def sourceMap (c : Cursor) : SourceMap := .ofText c.text

/-- How the diagnostics name a kind. -/
def kindName : TokenKind → String
  | .keyword word => s!"Keyword({word.name})"
  | kind => kind.name

/-- A line about the state of the cursor. -/
def diagnostic (c : Cursor) : String :=
  let current :=
    match c.buffer[c.position]? with
    | some t => s!"{kindName t.kind} '{t.display}' at {t.span.start.toText}"
    | none => "<not yet lexed>"
  s!"TokenStream: position {c.position}/{c.buffer.size} buffered, " ++
    s!"{c.splits.length} active splits, current {current}"

end Cursor

end JavaSyntax
