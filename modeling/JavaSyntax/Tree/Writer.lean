/-!
# Writing source text

A writer collects text and indents the lines that it starts itself, so the lines
inside a text block keep their own indentation. Printing a tree is a change of the
writer, and the layouts of lists are built from such changes.
-/

namespace JavaSyntax

/-- Text under construction. -/
structure Writer where
  output : String
  /-- How many steps a new line is indented. -/
  depth : Nat
  /-- Whether a line was started on which nothing stands yet. -/
  atLineStart : Bool
deriving DecidableEq, Repr

namespace Writer

/-- A writer that has written nothing. -/
def empty : Writer := ⟨"", 0, false⟩

/-- The blanks of one step of indentation. -/
def indentation : String := "    "

/-- The blanks at the start of a line. -/
def margin (depth : Nat) : String := String.join (List.replicate depth indentation)

/-- Writes a text. The first text on a started line is indented. -/
def write (text : String) (w : Writer) : Writer :=
  if text.isEmpty then w
  else if w.atLineStart then ⟨w.output ++ margin w.depth ++ text, w.depth, false⟩
  else { w with output := w.output ++ text }

/-- Starts a new line. -/
def newline (w : Writer) : Writer := { w with output := w.output.push '\n', atLineStart := true }

/-- Indents the lines that follow by one more step. -/
def indent (w : Writer) : Writer := { w with depth := w.depth + 1 }

/-- Indents the lines that follow by one step less. -/
def dedent (w : Writer) : Writer := { w with depth := w.depth - 1 }

/-- Opens a block of indented lines. -/
def openBrace (w : Writer) : Writer := (w.write "\x7b").indent.newline

/-- Closes a block of indented lines. -/
def closeBrace (w : Writer) : Writer := w.dedent.write "\x7d"

/-- What was written, without line feeds at the end. -/
def finish (w : Writer) : String :=
  String.ofList (w.output.toList.reverse.dropWhile (· == '\n')).reverse

end Writer

/-- A way to print something: what it does to a writer. -/
abbrev Print := Writer → Writer

namespace Print

/-- Prints a text. -/
def text (s : String) : Print := Writer.write s

/-- Prints one thing after the other. -/
def all (ps : List Print) : Print := fun w => ps.foldl (fun w p => p w) w

/-- Prints something that may be missing. -/
def optional {α : Type} (p : α → Print) : Option α → Print
  | none => id
  | some x => p x

/-- Prints things with a separator between them. -/
def separated (separator : Print) : List Print → Print
  | [] => id
  | [p] => p
  | p :: ps => fun w => separated separator ps (separator (p w))

/-- Prints things with a text between them. -/
def join (separator : String) (ps : List Print) : Print := separated (text separator) ps

/-- Prints each thing in a way of its own. -/
def each (f : Print → Print) (ps : List Print) : Print := all (ps.map f)

/-- Prints each thing on a line of its own, or `{}` if there is none. -/
def bracedLines (ps : List Print) : Print :=
  if ps.isEmpty then text "\x7b\x7d"
  else all [Writer.openBrace, each (fun p => all [p, Writer.newline]) ps, Writer.closeBrace]

/-- Prints a list with what opens, separates and closes it, or nothing if it is
empty. -/
def list (opening separator closing : String) (ps : List Print) : Print :=
  if ps.isEmpty then id else all [text opening, join separator ps, text closing]

/-- Prints things between angle brackets, if there are any. -/
def angles (ps : List Print) : Print := list "<" ", " ">" ps

/-- Prints things between parentheses. -/
def parens (ps : List Print) : Print := all [text "(", join ", " ps, text ")"]

/-- Prints things with a blank after each. -/
def prefixes (ps : List Print) : Print := each (fun p => all [p, text " "]) ps

/-- Prints a keyword and the things that it introduces, if there are any. -/
def clause (keyword : String) (ps : List Print) : Print :=
  list (" " ++ keyword ++ " ") ", " "" ps

/-- Prints a text only under a condition. -/
def textIf (condition : Bool) (s : String) : Print := if condition then text s else id

/-- Prints the same thing so many times. -/
def times (n : Nat) (p : Print) : Print := all (List.replicate n p)

end Print

end JavaSyntax
