import JavaSyntax.Lexer.Literal.Digits

/-!
# Floating-point literals

Decimal literals denote the nearest number of their type. Hexadecimal literals add
up their digits in double precision and are scaled by a power of two. A literal
that would be infinite, or zero without being written as zero, is refused.
-/

namespace JavaSyntax

/-- The two floating-point types that literals have. -/
inductive FloatWidth where
  | single | double
deriving DecidableEq, Repr

namespace Floating

def infinity : Float := 1.0 / 0.0

def notANumber : Float := 0.0 / 0.0

open Float.Model in
/-- Rounds what a number stands for to the nearest number of a format. -/
def convert (format : Format) : UnpackedFloat → UnpackedFloat
  | .finite sign mantissa exponent _ => .round format sign mantissa exponent
  | value => value

/-- The same number in double precision. -/
def widen (value : Float32) : Float :=
  .ofModel (.pack (convert .binary64 value.toModel.unpack))

/-- The nearest number in single precision. -/
def narrow (value : Float) : Float32 :=
  .ofModel (.pack (convert .binary32 value.toModel.unpack))

/-- A number written in decimal: digits with a power of ten. -/
structure Decimal where
  digits : Nat
  exponent : Int
deriving DecidableEq, Repr

/-- Where decimal numbers are beyond the reach of both types: the power of ten that
their first digit counts is at least this, or less than its opposite. -/
def reach : Int := 400

/-- How many digits of a number count one by one. The numbers half-way between two
neighbours of either type have fewer digits, so of all later digits it matters only
whether there is another than zero. -/
def significantDigits : Nat := 800

/-- The number that decimal digits write. -/
def ofDigits (cs : List Char) : Nat :=
  cs.foldl (fun n c => 10 * n + (c.toNat - '0'.toNat)) 0

/-- The number that digits write with a power of ten. Of a long number the later digits
give way to a single one, which is zero if they all are. -/
def Decimal.ofDigits (cs : List Char) (exponent : Int) : Decimal :=
  let cs := cs.dropWhile (· == '0')
  let later := cs.drop significantDigits
  if later.isEmpty then ⟨Floating.ofDigits cs, exponent⟩
  else
    let last := if later.all (· == '0') then '0' else '1'
    ⟨Floating.ofDigits (cs.take significantDigits ++ [last]), exponent + later.length - 1⟩

/-- The nearest number of a type. -/
def Decimal.toFloat (width : FloatWidth) (d : Decimal) : Float :=
  let magnitude := d.exponent + (Nat.toDigits 10 d.digits).length
  if d.digits = 0 ∨ magnitude < -reach then 0.0
  else if reach < magnitude then infinity
  else
    let negative := d.exponent < 0
    let exponent := d.exponent.natAbs
    match width with
    | .single => widen (.ofScientific d.digits negative exponent)
    | .double => Float.ofScientific d.digits negative exponent

/-- The number that decimal digits write, read up to the digit that takes it beyond a
limit. Later digits do not count. -/
def ofDigitsUpTo (limit : Nat) (cs : List Char) : Nat :=
  cs.foldl (fun n c => if n ≤ limit then 10 * n + (c.toNat - '0'.toNat) else n) 0

/-- A sign and what follows it. -/
def splitSign : List Char → Bool × List Char
  | '-' :: rest => (true, rest)
  | '+' :: rest => (false, rest)
  | rest => (false, rest)

/-- A whole number with an optional sign, read up to a limit of its magnitude. -/
def readInt? (limit : Nat) (cs : List Char) : Option Int :=
  let (negative, digits) := splitSign cs
  if digits.isEmpty || !digits.all Char.isDigit then none
  else
    let magnitude := ofDigitsUpTo limit digits
    some (if negative then -magnitude else magnitude)

/-- The limit of the exponents of decimal numbers. It lies beyond the reach of both
types, so it shows only where as many digits make up for the exponent. -/
def exponentLimit : Nat := 65535

/-- The exponent that ends a decimal number: nothing, or a mark and a whole number. -/
def readExponent? : List Char → Option Int
  | [] => some 0
  | c :: rest => if c = 'e' ∨ c = 'E' then readInt? exponentLimit rest else none

/-- A decimal number without a sign. It needs a digit before or after its point. -/
def readDecimal? (cs : List Char) : Option Decimal :=
  let whole := cs.takeWhile Char.isDigit
  let rest := cs.dropWhile Char.isDigit
  let (fraction, rest) :=
    match rest with
    | '.' :: rest => (rest.takeWhile Char.isDigit, rest.dropWhile Char.isDigit)
    | _ => ([], rest)
  if whole.isEmpty && fraction.isEmpty then none
  else (readExponent? rest).map fun exponent =>
    .ofDigits (whole ++ fraction) (exponent - fraction.length)

/-- The names of the numbers that have no digits. -/
def readName? (cs : List Char) : Option Float :=
  match String.ofList (cs.map Char.toLower) with
  | "nan" => some notANumber
  | "inf" | "infinity" => some infinity
  | _ => none

/-- The nearest number of a type to a number written in decimal, or one of the
numbers that have names. -/
def readFloat? (width : FloatWidth) (cs : List Char) : Option Float :=
  let (negative, rest) := splitSign cs
  let magnitude? := ((readDecimal? rest).map (·.toFloat width)).or (readName? rest)
  magnitude?.map fun magnitude => if negative then -magnitude else magnitude

/-- A power of two in double precision. A negative power is one divided by the positive power,
so that it is zero where that one is infinite, although there are smaller numbers of the type. -/
def powerOfTwo (scale : Int) : Float :=
  if 1024 ≤ scale then infinity
  else if scale ≤ -1024 then 0.0
  else .ofModel (.pack (.round .binary64 .positive 1 scale))

/-- Whether hexadecimal literals may write an exponent: it fits into a 64-bit word. -/
def isExponent (n : Int) : Bool := Int64.minValue.toInt ≤ n && n ≤ Int64.maxValue.toInt

/-- Adds hexadecimal digits to a number, in double precision. -/
def addHexDigits (value : Float) : List Char → Except NumberFault Float
  | [] => .ok value
  | c :: rest =>
    match digitValue? 16 c with
    | none => .error .invalidDigit
    | some digit => addHexDigits (value * 16.0 + digit.toFloat) rest

/-- The value of a hexadecimal literal, from what follows its `0x`. -/
def decodeHex (digits : List Char) : Except NumberFault Float := do
  let some (mantissa, exponent) := splitAtFirst? (fun c => c == 'p' || c == 'P') digits
    | throw .missingExponent
  let mantissa ← stripUnderscores (isDigitOf 16) mantissa
  let exponent ← stripUnderscores Char.isDigit exponent
  let (whole, fraction) := (splitAtFirst? (· == '.') mantissa).getD (mantissa, [])
  if whole.isEmpty && fraction.isEmpty then throw .missingDigits
  let value ← addHexDigits 0.0 (whole ++ fraction)
  let some exponent := (readInt? UInt64.size exponent).filter isExponent
    | throw .malformedExponent
  return value * powerOfTwo (exponent - 4 * fraction.length)

/-- What follows the mark of a hexadecimal literal. -/
def hexDigits? : List Char → Option (List Char)
  | '0' :: 'x' :: rest | '0' :: 'X' :: rest => some rest
  | _ => none

/-- Whether a literal is written with a digit other than zero before its exponent. -/
def hasNonzeroMantissa (body : List Char) : Bool :=
  let nonzero c := isDigitOf 16 c && c != '0'
  match hexDigits? body with
  | some digits => (digits.takeWhile fun c => c != 'p' && c != 'P').any nonzero
  | none => (body.takeWhile fun c => c != 'e' && c != 'E').any nonzero

/-- A literal without its suffix. A literal that ends in an exponent ends in a
decimal digit, so a letter at the end is always a suffix. -/
def dropSuffix (text : List Char) : List Char :=
  match text.getLast? with
  | some 'f' | some 'F' | some 'd' | some 'D' => text.dropLast
  | _ => text

/-- The value of a literal before its range is checked. -/
def decodeBody (width : FloatWidth) (body : List Char) : Except NumberFault Float :=
  match hexDigits? body with
  | some digits => decodeHex digits
  | none => do
    let cleaned ← stripUnderscores Char.isDigit body
    match readFloat? width cleaned with
    | some value => return value
    | none => throw .malformedFloating

/-- Rounds a number to a type. -/
def round (width : FloatWidth) (value : Float) : Float :=
  match width with
  | .single => widen (narrow value)
  | .double => value

/-- The value of a floating-point literal. -/
def decode (width : FloatWidth) (text : List Char) : Except NumberFault Float := do
  let body := dropSuffix text
  let value := round width (← decodeBody width body)
  if value.isInf then throw .tooLarge
  if value == 0.0 && hasNonzeroMantissa body then throw .tooSmall
  return value

end Floating

end JavaSyntax
