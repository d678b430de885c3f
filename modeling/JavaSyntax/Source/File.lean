import JavaSyntax.Diagnostics.Code
import JavaSyntax.Settings.Basic
import JavaSyntax.Text.LetterCase
import JavaSyntax.Text.Quoted

/-!
# Source files

Which files are read as source: what a path must lead to, how large a file may be,
how it may be named and encoded. A file is admitted by its name and size before a byte
of it is read.

A reader is told about a size in the greatest unit that it fills, with two decimals. Quotients of
natural numbers are rounded to the nearest number, and numbers to as many binary digits as a
double has. A tie goes to the even neighbour.
-/

namespace JavaSyntax

/-! ### Rounding -/

namespace Rounding

/-- The number nearest to a quotient. -/
def divide (numerator denominator : Nat) : Nat :=
  let quotient := numerator / denominator
  let twice := 2 * (numerator % denominator)
  if twice < denominator then quotient
  else if denominator < twice then quotient + 1
  else quotient + quotient % 2

/-- The number nearest to another one among those with so many binary digits before
the trailing zeros. -/
def toBinaryDigits (digits n : Nat) : Nat :=
  let unit := 1 <<< (n.log2 + 1 - digits)
  divide n unit * unit

end Rounding

/-! ### Sizes -/

namespace FileSize

/-- The units above the byte, each of which is 1024 times the one before. -/
def units : List String := ["KB", "MB", "GB"]

/-- Hundredths with a point before the last two digits. -/
def hundredthsText (n : Nat) : String :=
  let fraction := toString (n % 100)
  s!"{n / 100}." ++ (if n % 100 < 10 then "0" ++ fraction else fraction)

/-- Writes a size in the first of some units that it does not fill 1024 times, or in
the last of them. The first unit is worth `worth` bytes. -/
def writeIn (size worth : Nat) : List String → String
  | [] => ""
  | [unit] => hundredthsText (Rounding.divide (100 * size) worth) ++ " " ++ unit
  | unit :: units =>
    if size < 1024 * worth then hundredthsText (Rounding.divide (100 * size) worth) ++ " " ++ unit
    else writeIn size (1024 * worth) units

/-- The text of a size. Sizes are measured with the 53 binary digits of a double. -/
def toText (size : Nat) : String :=
  if size < 1024 then s!"{size} B" else writeIn (Rounding.toBinaryDigits 53 size) 1024 units

/-- Whether a file of this size counts as large. -/
def isLarge (size : Nat) : Bool := Limits.largeFileThreshold < size

end FileSize

/-! ### Files -/

/-- What a path leads to. -/
inductive PathTarget where
  | nothing | directory
  /-- A file of so many bytes. -/
  | file (size : Nat)
deriving DecidableEq, Repr

/-- Why a path gives no source text. -/
inductive SourceError where
  | notFound (path : String)
  | notFile (path : String)
  /-- The extension, in small letters, is not that of source files. -/
  | wrongExtension (extension : Option String)
  | tooLarge (size : Nat)
  | notPermitted (path : String)
  | notText (path : String)
  /-- The file system failed for another reason. -/
  | unreadable (reason : String)
deriving DecidableEq, Repr

namespace SourceError

def code : SourceError → Code
  | notFound _ => .fileNotFound
  | notFile _ => .fileNotFound
  | wrongExtension _ => .invalidExtension
  | tooLarge _ => .fileTooLarge
  | notPermitted _ => .permissionDenied
  | notText _ => .invalidEncoding
  | unreadable _ => .readFailure

/-- How messages show an extension that may be missing. -/
def extensionText : Option String → String
  | none => "None"
  | some extension => s!"Some({Quoted.string extension})"

def message : SourceError → String
  | notFound path => s!"File not found: {path}"
  | notFile path => s!"Not a file: {path}"
  | wrongExtension extension =>
    s!"Invalid file extension: expected .java, found {extensionText extension}"
  | tooLarge size => s!"File too large: {size} bytes (max: {Limits.maxFileSize})"
  | notPermitted path => s!"Permission denied: {path}"
  | notText path => s!"Invalid UTF-8 encoding in file: {path}"
  | unreadable reason => s!"I/O error reading file: {reason}"

end SourceError

/-- A file that was admitted. -/
structure FileInfo where
  path : String
  size : Nat
deriving DecidableEq, Repr

namespace FileInfo

/-- The name of a file, without the directories before it. -/
def fileName (path : List Char) : List Char := (path.reverse.takeWhile (· ≠ '/')).reverse

/-- The extension of a file name: what follows its last dot. A dot at the start does
not count. -/
def extensionOf? (name : List Char) : Option (List Char) :=
  let reversed := name.reverse
  match reversed.dropWhile (· ≠ '.') with
  | '.' :: _ :: _ =>
    if name = ['.', '.'] then none else some (reversed.takeWhile (· ≠ '.')).reverse
  | _ => none

/-- The extension of the file in small letters. -/
def extension? (f : FileInfo) : Option String :=
  (extensionOf? (fileName f.path.toList)).map fun cs => LetterCase.lower (String.ofList cs)

def isJava (f : FileInfo) : Bool := f.extension? == some "java"

/-- Admits the file at a path, or says why not. -/
def accept (requireJava : Bool) (path : String) : PathTarget → Except SourceError FileInfo
  | .nothing => .error (.notFound path)
  | .directory => .error (.notFile path)
  | .file size =>
    let file : FileInfo := ⟨path, size⟩
    if Limits.maxFileSize < size then .error (.tooLarge size)
    else if requireJava && !file.isJava then .error (.wrongExtension file.extension?)
    else .ok file

/-- The text of an admitted file. -/
def decode (f : FileInfo) (bytes : ByteArray) : Except SourceError String :=
  match String.fromUTF8? bytes with
  | some text => .ok text
  | none => .error (.notText f.path)

end FileInfo

/-- How many lines a text has. Only a line feed ends a line, and nothing follows the
last one. -/
def lineTotal (text : String) : Nat :=
  let cs := text.toList
  cs.count '\n' + (if cs.getLast?.any (· ≠ '\n') then 1 else 0)

end JavaSyntax
