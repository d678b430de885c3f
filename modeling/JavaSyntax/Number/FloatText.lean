/-!
# Text of floating-point numbers

A double is written with its shortest digits, in the positional form for ordinary magnitudes and
with an exponent otherwise.

The decimals that read back as a given double fill an interval around it. Among
them are some with the fewest digits, and of those one is nearest. It is found by
exact arithmetic: for each number of digits, only the two neighbours of the value
on that decimal grid can lie in the interval.
-/

namespace JavaSyntax

/-! ### The shortest decimal of a double -/

namespace Shortest

/-- A positive double as `mantissa * 2 ^ exponent`. -/
structure Binary where
  mantissa : Nat
  exponent : Int
deriving DecidableEq, Repr

/-- A decimal `digits * 10 ^ exponent`. -/
structure Decimal where
  digits : Nat
  exponent : Int
deriving DecidableEq, Repr

/-- Which of two decimals to take when the value is halfway between them. -/
inductive Tie where
  | up | even
deriving DecidableEq, Repr

namespace Binary

/-- The least exponent, which numbers near zero share. -/
def minExponent : Int := -1074

/-- The mantissa of the least number with a given exponent. -/
def hiddenBit : Nat := 1 <<< 52

/-- Reads the bits of a finite positive double. -/
def ofBits (bits : UInt64) : Binary :=
  let fraction := bits.toNat % hiddenBit
  let biased := bits.toNat / hiddenBit % 2048
  if biased = 0 then ⟨fraction, minExponent⟩
  else ⟨fraction + hiddenBit, (biased : Int) + minExponent - 1⟩

end Binary

/-- A fraction of natural numbers. -/
structure Ratio where
  num : Nat
  den : Nat
deriving DecidableEq, Repr

namespace Ratio

/-- A fraction times a power of a base. -/
def scale (r : Ratio) (base : Nat) (exponent : Int) : Ratio :=
  if exponent < 0 then ⟨r.num, r.den * base.pow exponent.natAbs⟩
  else ⟨r.num * base.pow exponent.natAbs, r.den⟩

/-- How two fractions compare. -/
def compare (a b : Ratio) : Ordering := Ord.compare (a.num * b.den) (b.num * a.den)

end Ratio

/-- The interval of values that read back as a double. The ends belong to it if
the mantissa is even. -/
structure Interval where
  low : Ratio
  high : Ratio
  closed : Bool

/-- The interval around a double. Below the least mantissa the neighbour is only
half as far away. -/
def intervalOf (b : Binary) : Interval :=
  let quarter (n : Nat) : Ratio := (Ratio.mk n 4).scale 2 b.exponent
  let below := if b.mantissa = Binary.hiddenBit ∧ Binary.minExponent < b.exponent then 1 else 2
  ⟨quarter (4 * b.mantissa - below), quarter (4 * b.mantissa + 2), b.mantissa % 2 == 0⟩

/-- Whether a decimal reads back as the double of an interval. -/
def Interval.contains (i : Interval) (d : Decimal) : Bool :=
  let value := (Ratio.mk d.digits 1).scale 10 d.exponent
  match i.low.compare value, value.compare i.high with
  | .lt, .lt => true
  | .gt, _ | _, .gt => false
  | _, _ => i.closed

/-- The power of ten that the first digit of a positive fraction counts, searched
downwards for `fuel` steps. -/
def leadingExponent (r : Ratio) : (fuel : Nat) → Int → Int
  | 0, e => e
  | fuel + 1, e =>
    if (Ratio.compare ⟨1, 1⟩ (r.scale 10 (-e))).isLE then e else leadingExponent r fuel (e - 1)

/-- The decimal of a grid that is nearest to a value among its two neighbours that
lie in the interval, if one does. -/
def nearestOnGrid? (tie : Tie) (i : Interval) (value : Ratio) (exponent : Int) : Option Decimal :=
  let scaled := value.scale 10 (-exponent)
  let floor := scaled.num / scaled.den
  let low : Decimal := ⟨floor, exponent⟩
  let high : Decimal := ⟨floor + 1, exponent⟩
  let lowNearer : Bool :=
    match Ord.compare (2 * (scaled.num - floor * scaled.den)) scaled.den with
    | .lt => true
    | .gt => false
    | .eq => tie == .even && floor % 2 == 0
  match i.contains low, i.contains high with
  | true, true => some (bif lowNearer then low else high)
  | true, false => some low
  | false, true => some high
  | false, false => none

/-- The first grid with a decimal in the interval, for digits from `count` on. -/
def search (tie : Tie) (i : Interval) (value : Ratio) (leading : Int) :
    (fuel : Nat) → (count : Nat) → Decimal
  | 0, _ => ⟨0, 0⟩
  | fuel + 1, count =>
    match nearestOnGrid? tie i value (leading + 1 - count) with
    | some d => d
    | none => search tie i value leading fuel (count + 1)

/-- A decimal without zeros at its end. -/
def trim : (fuel : Nat) → Decimal → Decimal
  | 0, d => d
  | fuel + 1, d =>
    if d.digits ≠ 0 ∧ d.digits % 10 = 0 then trim fuel ⟨d.digits / 10, d.exponent + 1⟩ else d

/-- The most digits that any double needs. -/
def maxDigits : Nat := 17

/-- The shortest decimal that reads back as a positive double, and of those the
nearest. -/
def ofBinary (tie : Tie) (b : Binary) : Decimal :=
  let value := (Ratio.mk b.mantissa 1).scale 2 b.exponent
  let leading := leadingExponent value 640 310
  trim maxDigits (search tie (intervalOf b) value leading maxDigits 1)

end Shortest

/-! ### Formats -/

/-- How a format writes doubles: for which powers of ten of the first digit it is
positional, what it puts before an exponent that is not negative, how it breaks ties,
and what it calls the numbers without digits. -/
structure FloatFormat where
  leastPositional : Int
  greatestPositional : Int
  plusSign : String
  tie : Shortest.Tie
  notANumber : String
  infinite : String
deriving Repr

namespace FloatFormat

/-- Digits with a point after the first `whole` of them, and a zero where there are
none on one side of the point. -/
def positional (digits : List Char) (whole : Int) : List Char :=
  let zeros (n : Int) := List.replicate n.toNat '0'
  if whole ≤ 0 then '0' :: '.' :: (zeros (-whole) ++ digits)
  else
    let fraction := digits.drop whole.toNat
    digits.take whole.toNat ++ zeros (whole - digits.length) ++
      '.' :: (if fraction.isEmpty then ['0'] else fraction)

/-- Digits with a point after the first of them, if there are more, and an exponent. -/
def scientific (f : FloatFormat) (digits : List Char) (leading : Int) : List Char :=
  let mantissa :=
    match digits with
    | first :: second :: rest => first :: '.' :: second :: rest
    | _ => digits
  let sign := if leading < 0 then "-" else f.plusSign
  mantissa ++ 'e' :: (sign.toList ++ Nat.toDigits 10 leading.natAbs)

/-- Writes a decimal. -/
def ofDecimal (f : FloatFormat) (d : Shortest.Decimal) : String :=
  let digits := (toString d.digits).toList
  let leading := d.exponent + digits.length - 1
  String.ofList <|
    if f.leastPositional ≤ leading ∧ leading ≤ f.greatestPositional then
      positional digits (leading + 1)
    else f.scientific digits leading

/-- Writes a double. -/
def write (f : FloatFormat) (x : Float) : String :=
  let sign := if x < 0.0 ∨ (1.0 / x) < 0.0 then "-" else ""
  if x.isNaN then f.notANumber
  else if x.isInf then sign ++ f.infinite
  else if x == 0.0 then sign ++ "0.0"
  else sign ++ f.ofDecimal (Shortest.ofBinary f.tie (Shortest.Binary.ofBits x.abs.toBits))

end FloatFormat

end JavaSyntax
