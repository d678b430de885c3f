/-!
# Positions and spans of source text

A position is a byte offset together with the line and column that a reader
would name. Offsets count the bytes of the UTF-8 form, columns count code
points, and a line ends at a line feed, a carriage return, or the pair of both.

Lines and columns are 32-bit words in the program, and natural numbers here. This makes no
difference below `2 ^ 32`, where all lines and columns are of a text that is not larger than files
may be (`Limits.maxFileSize`).

A span runs from a start position up to, and not including, a stop position.
Only the byte offsets decide what it covers.
-/

namespace JavaSyntax

/-! ### Positions -/

/-- How many bytes a run of characters has. -/
def byteLength (cs : List Char) : Nat := cs.foldl (· + ·.utf8Size) 0

/-- Whether a character ends a line by itself. -/
def isLineTerminator (c : Char) : Bool := c == '\n' || c == '\r'

/-- A place in a text: the bytes before it, and the one-based line and column. The program has
32-bit words for the line and the column. -/
structure Position where
  offset : Nat
  line : Nat
  column : Nat
deriving DecidableEq, Repr

namespace Position

/-- The place before the first character. -/
def start : Position := ⟨0, 1, 1⟩

/-- The place after one character. Either line terminator opens a new line. -/
def advance (p : Position) (c : Char) : Position :=
  if isLineTerminator c then ⟨p.offset + 1, p.line + 1, 1⟩
  else ⟨p.offset + c.utf8Size, p.line, p.column + 1⟩

/-- The place after a run of characters, where a carriage return with its line
feed ends one line only. -/
def advanceChars (p : Position) : List Char → Position
  | [] => p
  | '\r' :: '\n' :: rest => advanceChars ⟨p.offset + 2, p.line + 1, 1⟩ rest
  | c :: rest => advanceChars (p.advance c) rest

/-- The place after a whole text. -/
def advanceText (p : Position) (text : String) : Position :=
  p.advanceChars text.toList

/-- The place after the characters taken one at a time: every terminator counts. -/
def advanceEach (p : Position) (cs : List Char) : Position :=
  cs.foldl advance p

/-- Columns are 32-bit words, so a byte count is added to one modulo `2 ^ 32`. -/
def columnModulus : Nat := 4294967296

/-- The place `n` bytes further on the same line, for text known to be ASCII. -/
def advanceBytes (p : Position) (n : Nat) : Position :=
  ⟨p.offset + n, p.line, p.column + n % columnModulus⟩

/-- The order of positions: by offset, then line, then column. -/
def before (p q : Position) : Bool :=
  p.offset < q.offset ||
    p.offset == q.offset && (p.line < q.line || p.line == q.line && p.column < q.column)

/-- The reader's name of a place, `line:column`. -/
def toText (p : Position) : String := s!"{p.line}:{p.column}"

@[simp] theorem advanceChars_nil (p : Position) : p.advanceChars [] = p := rfl

end Position

/-! ### Spans -/

/-- The text between two byte offsets. Offsets that leave the text, cut a
character or come in the wrong order have no text between them. -/
def textBetween (text : String) (start stop : Nat) : String :=
  match text.pos? ⟨start⟩, text.pos? ⟨stop⟩ with
  | some first, some last => if start ≤ stop then String.extract first last else ""
  | _, _ => ""

/-- The part of a text between two positions. -/
structure Span where
  start : Position
  stop : Position
deriving DecidableEq, Repr

namespace Span

/-- The empty span at a position. -/
def point (p : Position) : Span := ⟨p, p⟩

/-- The span of something that stands nowhere in the text. -/
def nowhere : Span := .point .start

/-- The smallest span that covers both; of two equal ends the first one's is kept. -/
def merge (a b : Span) : Span where
  start := if a.start.offset ≤ b.start.offset then a.start else b.start
  stop := if b.stop.offset ≤ a.stop.offset then a.stop else b.stop

/-- How many bytes the span covers. -/
def size (s : Span) : Nat := s.stop.offset - s.start.offset

def isEmpty (s : Span) : Bool := s.start.offset == s.stop.offset

/-- Whether the byte at a position is covered. -/
def contains (s : Span) (p : Position) : Bool :=
  s.start.offset ≤ p.offset && p.offset < s.stop.offset

/-- Whether all of another span is covered. -/
def containsSpan (s t : Span) : Bool :=
  s.start.offset ≤ t.start.offset && t.stop.offset ≤ s.stop.offset

/-- The covered text. -/
def slice (s : Span) (text : String) : String :=
  textBetween text s.start.offset s.stop.offset

/-- The reader's name of a span, with the line written once if it has only one. -/
def toText (s : Span) : String :=
  if s.start.line = s.stop.line then s!"{s.start.line}:{s.start.column}-{s.stop.column}"
  else s.start.toText ++ "-" ++ s.stop.toText

end Span

/-- A value together with the span that it was read from. -/
structure Spanned (α : Type) where
  value : α
  span : Span
deriving Repr

/-- Changes the value and keeps its place. -/
def Spanned.map {α β : Type} (f : α → β) (x : Spanned α) : Spanned β := ⟨f x.value, x.span⟩

end JavaSyntax
