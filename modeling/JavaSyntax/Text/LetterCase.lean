import JavaSyntax.Text.CaseTable

/-!
# Small and capital letters

Texts in small and in capital letters, by Unicode's full mappings. Only one mapping
looks at its surroundings: a capital sigma that ends a word is written small in its
final form.
-/

namespace JavaSyntax.LetterCase

/-- The distance to the other letter of a pair, by the range that a code point is in. -/
def distance? (ranges : Array (Nat × Nat × Nat × Int)) (code : Nat) : Option Int :=
  (ranges.find? fun (first, last, step, _) =>
    first ≤ code && code ≤ last && (code - first) % step == 0).map (·.2.2.2)

/-- Maps a character beyond ASCII. A character that the tables do not know stays. -/
def map (ranges : Array (Nat × Nat × Nat × Int)) (sequences : List (Nat × List Nat))
    (c : Char) : List Char :=
  match sequences.lookup c.toNat with
  | some codes => codes.map Char.ofNat
  | none =>
    match distance? ranges c.toNat with
    | some distance => [Char.ofNat (c.toNat + distance).toNat]
    | none => [c]

def isAscii (c : Char) : Bool := c.toNat < 0x80

/-- A character in small letters, wherever it stands. -/
def lowerChar (c : Char) : List Char :=
  if isAscii c then [c.toLower] else map CaseTable.lowerRanges CaseTable.lowerSequences c

/-- A character in capital letters. -/
def upperChar (c : Char) : List Char :=
  if isAscii c then [c.toUpper] else map CaseTable.upperRanges CaseTable.upperSequences c

def isCased (c : Char) : Bool := CaseTable.casedRanges.holds c.toNat

def isIgnorable (c : Char) : Bool := CaseTable.ignorableRanges.holds c.toNat

/-- Whether characters reach a letter with case before any other that counts. -/
def reachesCased (cs : List Char) : Bool := (cs.dropWhile isIgnorable).head?.any isCased

/-- Writes characters in small letters. The first list holds those before, nearest first. -/
def lowerAfter (before : List Char) : List Char → List Char
  | [] => []
  | c :: rest =>
    let small :=
      if c = 'Σ' then [if reachesCased before && !reachesCased rest then 'ς' else 'σ']
      else lowerChar c
    small ++ lowerAfter (c :: before) rest

/-- A text in small letters. -/
def lower (s : String) : String := .ofList (lowerAfter [] s.toList)

/-- A text in capital letters. -/
def upper (s : String) : String := .ofList (s.toList.flatMap upperChar)

end JavaSyntax.LetterCase
