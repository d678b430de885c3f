/-!
# Faults in literals, and digits

Why the text of a literal has no value. The lexer adds where the literal stands. A literal
is cut off its delimiters or its suffix by counting bytes, and the first fault that is
looked for is that the bytes that are cut are not whole characters.

The value of a digit in a base, and the rule for underscores in numbers: they may
only separate digits, any number of them at a time.
-/

namespace JavaSyntax

/-! ### Faults -/

/-- What is wrong with a number. -/
inductive NumberFault where
  /-- The automaton found no number at all. -/
  | malformed
  | misplacedUnderscore | missingDigits | octalDigit | binaryDigit | invalidDigit | outOfRange
  | malformedFloating | tooLarge | tooSmall | missingExponent | malformedExponent
deriving DecidableEq, Repr

namespace NumberFault

/-- The reason that a message gives. -/
def reason : NumberFault → String
  | malformed => "malformed numeric literal"
  | misplacedUnderscore => "underscore must separate digits"
  | missingDigits => "missing digits"
  | octalDigit => "digit out of range for octal"
  | binaryDigit => "digit out of range for binary"
  | invalidDigit => "invalid digit"
  | outOfRange => "literal out of range"
  | malformedFloating => "malformed floating-point literal"
  | tooLarge => "floating-point literal too large"
  | tooSmall => "floating-point literal too small"
  | missingExponent => "hex floating-point literal needs an exponent"
  | malformedExponent => "malformed exponent"

end NumberFault

/-- Why a literal has no value. -/
inductive LiteralFault where
  | invalidNumber (fault : NumberFault)
  /-- A bad escape at this byte offset within the literal. -/
  | invalidEscape (offset : Nat)
  | invalidCharLiteral
  /-- The text does not hold the bytes of its delimiters or suffix, or they cut a
  character. No lexeme is like that. -/
  | missingDelimiters
deriving DecidableEq, Repr

/-! ### The ends of literals -/

/-- What follows so many bytes, if a character starts or the text ends there. -/
def dropBytes? : Nat → List Char → Option (List Char)
  | 0, cs => some cs
  | _ + 1, [] => none
  | n + 1, c :: cs => if c.utf8Size ≤ n + 1 then dropBytes? (n + 1 - c.utf8Size) cs else none

/-- What stands before the last so many bytes, if a character starts or the text ends
after it. -/
def dropLastBytes? (n : Nat) (cs : List Char) : Option (List Char) :=
  (dropBytes? n cs.reverse).map List.reverse

namespace Literal

/-- What stands between `count` bytes of delimiters on either side. -/
def undelimited (count : Nat) (text : List Char) : Except LiteralFault (List Char) :=
  match (dropBytes? count text).bind (dropLastBytes? count) with
  | some body => .ok body
  | none => .error .missingDelimiters

/-- What stands before a suffix of one byte. -/
def withoutSuffix (text : List Char) : Except LiteralFault (List Char) :=
  match dropLastBytes? 1 text with
  | some body => .ok body
  | none => .error .missingDelimiters

end Literal

/-! ### Digits and the underscores between them -/

/-- The value of an ASCII digit in a base up to sixteen. -/
def digitValue? (base : Nat) (c : Char) : Option Nat :=
  let value? :=
    if '0' ≤ c ∧ c ≤ '9' then some (c.toNat - '0'.toNat)
    else if 'a' ≤ c ∧ c ≤ 'f' then some (c.toNat - 'a'.toNat + 10)
    else if 'A' ≤ c ∧ c ≤ 'F' then some (c.toNat - 'A'.toNat + 10)
    else none
  value?.filter (· < base)

/-- Whether a character is a digit of a base. -/
def isDigitOf (base : Nat) (c : Char) : Bool := (digitValue? base c).isSome

/-- Removes the underscores from the rest of a number. What is kept so far is `done`,
last first; `pending` says that underscores have been seen since, after a digit. -/
def removeUnderscores (isDigit : Char → Bool) (done : List Char) (pending : Bool) :
    List Char → Except NumberFault (List Char)
  | [] => if pending then .error .misplacedUnderscore else .ok done.reverse
  | c :: rest =>
    if c = '_' then
      if done.head?.any isDigit then removeUnderscores isDigit done true rest
      else .error .misplacedUnderscore
    else if pending && !isDigit c then .error .misplacedUnderscore
    else removeUnderscores isDigit (c :: done) false rest

/-- A number without its underscores, which must stand between digits. -/
def stripUnderscores (isDigit : Char → Bool) (cs : List Char) : Except NumberFault (List Char) :=
  removeUnderscores isDigit [] false cs

/-- The parts before and after the first character that passes a test, without it. -/
def splitAtFirst? (p : Char → Bool) (cs : List Char) : Option (List Char × List Char) :=
  match cs.dropWhile (!p ·) with
  | [] => none
  | _ :: rest => some (cs.takeWhile (!p ·), rest)

end JavaSyntax
