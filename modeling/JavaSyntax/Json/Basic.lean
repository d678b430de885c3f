import JavaSyntax.Number.FloatText

/-!
# JSON

Values of the data format that dumps and structured log lines are written in, and
the two ways of writing them: in one line, and spread over indented lines. The
fields of an object keep the order in which they are given.
-/

namespace JavaSyntax

/-- A JSON value. -/
inductive Json where
  | null
  | bool (value : Bool)
  | int (value : Int)
  | float (value : Float)
  | string (value : String)
  | array (items : List Json)
  | object (fields : List (String × Json))
deriving Inhabited

namespace Json

/-- How JSON writes doubles. What is no number is written as nothing. -/
def floatFormat : FloatFormat := ⟨-5, 15, "+", .even, "null", "null"⟩

/-- The hexadecimal digit of a number below sixteen. -/
def hexDigit (n : Nat) : Char := "0123456789abcdef".toList.getD n '0'

/-- How a character is written inside a string. Control characters and the two
characters with a meaning of their own are escaped. -/
def escapeChar (c : Char) : List Char :=
  match c with
  | '"' => ['\\', '"']
  | '\\' => ['\\', '\\']
  | '\n' => ['\\', 'n']
  | '\r' => ['\\', 'r']
  | '\t' => ['\\', 't']
  | '\x08' => ['\\', 'b']
  | '\x0c' => ['\\', 'f']
  | _ =>
    if c.toNat < 0x20 then
      ['\\', 'u', '0', '0', hexDigit (c.toNat / 16), hexDigit (c.toNat % 16)]
    else [c]

/-- A string with its quotes. -/
def quote (s : String) : String :=
  "\"" ++ String.ofList (s.toList.flatMap escapeChar) ++ "\""

/-- A value that has no parts, in the form that both ways of writing share. -/
def writeLeaf : Json → String
  | null => "null"
  | bool value => toString value
  | int value => toString value
  | float value => floatFormat.write value
  | string value => quote value
  | array _ => "[]"
  | object _ => "\x7b\x7d"

mutual

/-- Writes a value in one line without blanks. -/
def compact : Json → String
  | array items => "[" ++ ",".intercalate (compactItems items) ++ "]"
  | object fields => "\x7b" ++ ",".intercalate (compactFields fields) ++ "\x7d"
  | leaf => leaf.writeLeaf

def compactItems : List Json → List String
  | [] => []
  | item :: items => compact item :: compactItems items

def compactFields : List (String × Json) → List String
  | [] => []
  | (key, value) :: fields => (quote key ++ ":" ++ compact value) :: compactFields fields

end

/-- The line break before something that is indented. -/
def lineBreak (depth : Nat) : String := "\n" ++ String.ofList (List.replicate (2 * depth) ' ')

/-- Lines between two brackets, each one step deeper than the brackets. -/
def spread (depth : Nat) (opening closing : String) (lines : List String) : String :=
  opening ++ lineBreak (depth + 1) ++ ("," ++ lineBreak (depth + 1)).intercalate lines ++
    lineBreak depth ++ closing

mutual

/-- Writes a value over several lines, each step two blanks deeper. What is empty
stays in one line. -/
def prettyAt (depth : Nat) : Json → String
  | array (item :: items) =>
    spread depth "[" "]" (prettyAt (depth + 1) item :: prettyItems (depth + 1) items)
  | object ((key, value) :: fields) =>
    spread depth "\x7b" "\x7d"
      ((quote key ++ ": " ++ prettyAt (depth + 1) value) :: prettyFields (depth + 1) fields)
  | leaf => leaf.writeLeaf

def prettyItems (depth : Nat) : List Json → List String
  | [] => []
  | item :: items => prettyAt depth item :: prettyItems depth items

def prettyFields (depth : Nat) : List (String × Json) → List String
  | [] => []
  | (key, value) :: fields =>
    (quote key ++ ": " ++ prettyAt depth value) :: prettyFields depth fields

end

/-- Writes a value over several lines. -/
def pretty (j : Json) : String := prettyAt 0 j

/-- The object with one field, which marks a value with its case. -/
def tagged (tag : String) (value : Json) : Json := .object [(tag, value)]

/-- A value that may be missing. -/
def ofOption {α : Type} (f : α → Json) : Option α → Json
  | none => .null
  | some x => f x

/-- A list of values. -/
def ofList {α : Type} (f : α → Json) (xs : List α) : Json := .array (xs.map f)

end Json

end JavaSyntax
