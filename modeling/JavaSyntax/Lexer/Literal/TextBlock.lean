import JavaSyntax.Lexer.Literal.Escape

/-!
# Layout of text blocks

The lines of a text block start below its opening quotes. The indentation that all
of them share, the line of the closing quotes included, is no part of the value,
nor are the blanks at their ends; only then are escapes decoded. Blanks are the characters
that Unicode calls white space (`White_Space`).
-/

/-! ### White space beyond ASCII -/

namespace JavaSyntax

/-- Whether a character is white space by Unicode's property. -/
def isBlank (c : Char) : Bool :=
  let n := c.toNat
  (0x09 ≤ n && n ≤ 0x0d) || n == 0x20 || n == 0x85 || n == 0xa0 || n == 0x1680 ||
    (0x2000 ≤ n && n ≤ 0x200a) || n == 0x2028 || n == 0x2029 || n == 0x202f || n == 0x205f ||
    n == 0x3000

/-- Whether white space is all there is. -/
def isBlankLine (cs : List Char) : Bool := cs.all isBlank

/-- A line without the white space at its end. -/
def trimEnd (cs : List Char) : List Char := (cs.reverse.dropWhile isBlank).reverse

end JavaSyntax

/-! ### Lines and indentation -/

namespace JavaSyntax.TextBlock

/-- The lines of the rest of a text, where `current` holds the characters of the
line so far and `done` the lines before it, both last first. -/
def splitRest (done : List (List Char)) (current : List Char) : List Char → List (List Char)
  | [] => (current.reverse :: done).reverse
  | '\r' :: '\n' :: rest => splitRest (current.reverse :: done) [] rest
  | c :: rest =>
    if isLineTerminator c then splitRest (current.reverse :: done) [] rest
    else splitRest done (c :: current) rest

/-- The lines of a text without their terminators; there is always one. -/
def splitLines (cs : List Char) : List (List Char) := splitRest [] [] cs

/-- The lines below the opening line. A block without them has one empty line. -/
def contentLines (inner : List Char) : List (List Char) :=
  match splitLines inner with
  | _ :: line :: lines => line :: lines
  | _ => [[]]

/-- The bytes of the opening line, its terminator included. -/
def openingLength (inner : List Char) : Nat :=
  let terminator :=
    match inner.dropWhile (!isLineTerminator ·) with
    | '\r' :: '\n' :: _ => 2
    | _ :: _ => 1
    | [] => 0
  byteLength (inner.takeWhile (!isLineTerminator ·)) + terminator

/-- How many blanks a line starts with. -/
def indentation (line : List Char) : Nat := (line.takeWhile isBlank).length

/-- The indentation that the lines share. A blank line counts only if it is the
last, where the closing quotes stand. -/
def sharedIndentation (lines : List (List Char)) : Nat :=
  let counted := lines.dropLast.filter (!isBlankLine ·) ++ lines.getLast?.toList
  (counted.map indentation).min?.getD 0

/-- A line without the shared indentation and without blanks at its end. -/
def stripLine (shared : Nat) (line : List Char) : List Char :=
  if isBlankLine line then [] else trimEnd (line.drop shared)

/-- The content of a block with its layout removed. -/
def strip (lines : List (List Char)) : List Char :=
  List.intercalate ['\n'] (lines.map (stripLine (sharedIndentation lines)))

/-- Decodes what stands between the quotes of a text block. The error is the
offset of the first line below the opening line. -/
def decode (inner : List Char) : Except Nat (List Char) :=
  (Escape.decode true (strip (contentLines inner))).mapError fun _ => openingLength inner

end JavaSyntax.TextBlock
