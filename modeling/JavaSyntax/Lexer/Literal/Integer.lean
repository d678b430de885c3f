import JavaSyntax.Lexer.Literal.Digits
import JavaSyntax.Token.Basic

/-!
# Integer literals

An integer literal has a radix, which its first characters choose, digits of that
radix, and a magnitude. Decimal literals reach up to the power of two that only a
minus sign makes legal; the other radixes write any bit pattern of the type. The
value is the signed number of those bits.
-/

namespace JavaSyntax

/-- The two integer types that literals have. -/
inductive IntegerWidth where
  | int | long
deriving DecidableEq, Repr

namespace IntegerWidth

/-- How many values a type has. -/
def count : IntegerWidth → Nat
  | int => UInt32.size
  | long => UInt64.size

/-- The number that the low bits of a magnitude mean. -/
def wrap (w : IntegerWidth) (magnitude : Nat) : Int := (magnitude : Int).bmod w.count

/-- Whether a literal of a radix may have a magnitude. -/
def admits (w : IntegerWidth) (radix : Radix) (magnitude : Nat) : Bool :=
  match radix with
  | .decimal => magnitude ≤ w.count / 2
  | _ => magnitude < w.count

end IntegerWidth

/-- The radix that the first characters of a literal choose, and the rest. -/
def splitRadix : List Char → Radix × List Char
  | '0' :: 'x' :: digits | '0' :: 'X' :: digits => (.hexadecimal, digits)
  | '0' :: 'b' :: digits | '0' :: 'B' :: digits => (.binary, digits)
  | '0' :: c :: digits => (.octal, '0' :: c :: digits)
  | digits => (.decimal, digits)

/-- What a character that is no digit of a radix means. -/
def digitFault : Radix → NumberFault
  | .octal => .octalDigit
  | .binary => .binaryDigit
  | _ => .invalidDigit

/-- Magnitudes are 64-bit words; a longer number is out of range in every radix. -/
def magnitudeBound : Nat := UInt64.size

/-- The magnitude of digits that follow a number. -/
def addDigits (radix : Radix) (magnitude : Nat) : List Char → Except NumberFault Nat
  | [] => .ok magnitude
  | c :: rest =>
    match digitValue? radix.base c with
    | none => .error (digitFault radix)
    | some digit =>
      let magnitude := magnitude * radix.base + digit
      if magnitude < magnitudeBound then addDigits radix magnitude rest else .error .outOfRange

/-- The value of an integer literal without its suffix. -/
def decodeIntegerBody (width : IntegerWidth) (body : List Char) :
    Except NumberFault LiteralValue := do
  let (radix, digits) := splitRadix body
  let digits ← stripUnderscores (isDigitOf radix.base) digits
  if digits.isEmpty then throw .missingDigits
  let magnitude ← addDigits radix 0 digits
  if width.admits radix magnitude then return .integer (width.wrap magnitude) radix
  else throw .outOfRange

/-- The value of an integer literal; that of a `long` has one letter at its end. -/
def decodeInteger (width : IntegerWidth) (text : List Char) :
    Except LiteralFault LiteralValue := do
  let body ←
    match width with
    | .int => pure text
    | .long => Literal.withoutSuffix text
  (decodeIntegerBody width body).mapError .invalidNumber

namespace LiteralValue

/-- Whether a value is the one decimal literal of its width that is legal only
after a minus sign. -/
def isNegationOnly (width : IntegerWidth) : LiteralValue → Bool
  | .integer value .decimal => value == -(width.count / 2 : Nat)
  | _ => false

end LiteralValue

end JavaSyntax
