import JavaSyntax.Text.HiddenTable

/-!
# Quoted text

Strings and characters in quotes, as listings show them: in one line, with every
character visible. What has no shape of its own is written by its number.
-/

namespace JavaSyntax.Quoted

/-- The hexadecimal number of a character in braces. -/
def numbered (c : Char) : List Char :=
  '\\' :: 'u' :: '\x7b' :: (Nat.toDigits 16 c.toNat ++ ['\x7d'])

/-- A character between quotes of one sort. -/
def escape (mark c : Char) : List Char :=
  match c with
  | '\x00' => ['\\', '0']
  | '\t' => ['\\', 't']
  | '\n' => ['\\', 'n']
  | '\r' => ['\\', 'r']
  | '\\' => ['\\', '\\']
  | _ =>
    if c = mark then ['\\', c]
    else if HiddenTable.ranges.holds c.toNat then numbered c
    else [c]

/-- A string in double quotes. -/
def string (s : String) : String :=
  "\"" ++ String.ofList (s.toList.flatMap (escape '"')) ++ "\""

/-- A character in single quotes. -/
def char (c : Char) : String := "'" ++ String.ofList (escape '\'' c) ++ "'"

end JavaSyntax.Quoted
