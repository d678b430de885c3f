/-!
# Tables of ranges

A property of characters is a table of the ranges of code points that have it. A table
ascends and its ranges do not touch, so it is searched by halving.
-/

namespace JavaSyntax

/-- Ranges of code points, each with its first and its last one. -/
abbrev RangeTable := Array (Nat × Nat)

namespace RangeTable

/-- Looks for a code point between two indices of a table. Each round halves the part
that is left, so `rounds` need never exceed the size of the table. -/
def search (table : RangeTable) (code : Nat) : Nat → Nat → Nat → Bool
  | 0, _, _ => false
  | rounds + 1, low, high =>
    if high ≤ low then false
    else
      let middle := (low + high) / 2
      match table[middle]? with
      | none => false
      | some (first, last) =>
        if code < first then search table code rounds low middle
        else if last < code then search table code rounds (middle + 1) high
        else true

/-- Whether some range of a table holds a code point. -/
def holds (table : RangeTable) (code : Nat) : Bool :=
  search table code table.size 0 table.size

end RangeTable

end JavaSyntax
