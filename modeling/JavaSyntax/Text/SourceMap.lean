import JavaSyntax.Text.Span

/-!
# Lines of a source text

A source map knows where the lines of a text start. It turns byte offsets into
positions, shows single lines, and draws an error message under the place that
it is about.
-/

namespace JavaSyntax

/-- A text and the byte offsets at which its lines start, in order. -/
structure SourceMap where
  text : String
  lineStarts : Array Nat
deriving Repr

namespace SourceMap

/-- Adds the starts of the lines that follow in a text whose first character
stands at `offset`. -/
def addLineStarts (offset : Nat) (starts : Array Nat) : List Char → Array Nat
  | [] => starts
  | '\r' :: '\n' :: rest => addLineStarts (offset + 2) (starts.push (offset + 2)) rest
  | c :: rest =>
    let next := offset + c.utf8Size
    addLineStarts next (if isLineTerminator c then starts.push next else starts) rest

/-- The map of a text. The first line starts at offset zero even if it is empty. -/
def ofText (text : String) : SourceMap := ⟨text, addLineStarts 0 #[0] text.toList⟩

def lineCount (m : SourceMap) : Nat := m.lineStarts.size

/-- The last character boundary at or before an offset. -/
def boundaryAtOrBefore (text : String) : Nat → Nat
  | 0 => 0
  | n + 1 => if (text.pos? ⟨n + 1⟩).isSome then n + 1 else boundaryAtOrBefore text n

/-- The position of a byte offset. An offset past the end means the end, and one
inside a character means the start of that character. Line and column are cut to 32 bits in the
program, which changes neither in a text of less than `2 ^ 32` lines and columns. -/
def positionAt (m : SourceMap) (offset : Nat) : Position :=
  let offset := boundaryAtOrBefore m.text (min offset m.text.utf8ByteSize)
  let line := m.lineStarts.foldl (fun n start => if start ≤ offset then n + 1 else n) 0
  let lineStart := m.lineStarts[line - 1]?.getD 0
  ⟨offset, line, (textBetween m.text lineStart offset).length + 1⟩

/-- The text of a line, counted from one, without its terminator. -/
def line? (m : SourceMap) (number : Nat) : Option String :=
  if number = 0 then none
  else do
    let start ← m.lineStarts[number - 1]?
    let stop := m.lineStarts[number]?.getD m.text.utf8ByteSize
    let chars := (textBetween m.text start stop).toList
    return String.ofList (chars.reverse.dropWhile isLineTerminator).reverse

/-- How many columns lie between two of them, if they are in order. -/
def columnsBetween? (first last : Nat) : Option Nat :=
  if first ≤ last then some (last - first) else none

/-- How many carets mark a span that starts on a line: to the end of the span, or
to the end of the line if the span goes on below it, and at least one. A span that
starts past the end of its line, between the two characters of a terminator, and goes
on below cannot be marked. -/
def caretCount? (line : String) (start stop : Position) : Option Nat :=
  let last := if start.line = stop.line then stop.column else line.length + 1
  (columnsBetween? start.column last).map (max 1)

/-- `n` copies of a character. -/
def fill (n : Nat) (c : Char) : String := String.ofList (List.replicate n c)

/-- A message with its place, the line of the place, and carets under the place. -/
def draw (m : SourceMap) (place : Position) (carets : Nat) (message : String) : String :=
  let heading := s!"Error: {message}\n  --> {place.toText}\n"
  match m.line? place.line with
  | none => heading
  | some line =>
    let number := toString place.line
    let padding := fill number.length ' '
    heading ++ s!"   {padding} |\n" ++ s!"{number} | {line}\n" ++
      s!"   {padding} | " ++ fill (place.column - 1) ' ' ++ fill carets '^' ++ "\n"

/-- A message with its place and carets under a span, if the span can be marked. -/
def formatError? (m : SourceMap) (span : Span) (message : String) : Option String :=
  let start := m.positionAt span.start.offset
  let stop := m.positionAt span.stop.offset
  let line := (m.line? start.line).getD ""
  (caretCount? line start stop).map fun carets => m.draw start carets message

/-- A message with its place and one caret under it. -/
def formatErrorAt (m : SourceMap) (place : Position) (message : String) : String :=
  m.draw (m.positionAt place.offset) 1 message

/-- A span of no width can always be marked. -/
theorem formatError?_point (m : SourceMap) (place : Position) (message : String) :
    m.formatError? (.point place) message = some (m.formatErrorAt place message) := by
  simp [formatError?, formatErrorAt, caretCount?, columnsBetween?, Span.point]

end SourceMap

end JavaSyntax
