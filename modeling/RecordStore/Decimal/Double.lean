/-!
# Double-precision numbers

A *double* is a number of the IEEE 754 format `binary64`, kept as its 64 bits. A finite double is
`± significand · 2 ^ scale`, with both parts integers, so everything below is exact integer
arithmetic: the only rounding is the one of `Double.nearest`, which takes a quotient of natural
numbers to the double closest to it, a tie going to the even significand.

Sums, products and quotients of doubles are rounded once, from the exact value.
-/

namespace RecordStore

/-- A double-precision number, by its bits. -/
structure Double where
  bits : UInt64
  deriving DecidableEq, Inhabited

namespace Double

/-- The number of fractions, two to the power of 52. -/
def fractionCount : Nat := 0x10000000000000

/-- The exponent field: eleven bits, all ones for infinities and NaN. -/
def exponentField (x : Double) : Nat := x.bits.toNat / fractionCount % 2048

/-- The fraction field: the low 52 bits. -/
def fraction (x : Double) : Nat := x.bits.toNat % fractionCount

/-- The sign bit. -/
def isNegative (x : Double) : Bool := 0x8000000000000000 ≤ x.bits.toNat

def isFinite (x : Double) : Bool := x.exponentField ≠ 2047

/-- The integer part of the value's representation: the fraction, with the hidden bit of the
    numbers that are not subnormal. -/
def significand (x : Double) : Nat :=
  if x.exponentField = 0 then x.fraction else fractionCount + x.fraction

/-- The power of two that the significand counts. -/
def scale (x : Double) : Int := (max x.exponentField 1 : Nat) - 1075

/-- The magnitude of a finite double, as a numerator and a denominator. -/
def magnitude (x : Double) : Nat × Nat :=
  (x.significand * Nat.pow 2 x.scale.toNat, Nat.pow 2 (-x.scale).toNat)

def infinity : Double := ⟨0x7FF0000000000000⟩

def zero : Double := ⟨0⟩

/-- The number with the other sign. -/
def neg (x : Double) : Double := ⟨x.bits ^^^ 0x8000000000000000⟩

/-- Zero, of either sign. -/
def isZero (x : Double) : Bool := x.bits.toNat % 0x8000000000000000 = 0

def isNaN (x : Double) : Bool := !x.isFinite && x.fraction ≠ 0

/-- Comparison of values: the two zeros are one value, and NaN differs from everything. -/
def equals (x y : Double) : Bool :=
  !x.isNaN && !y.isNaN && (x.bits = y.bits || x.isZero && y.isZero)

/-- The quotient rounded to the nearest integer, a tie to the even one. -/
def roundDiv (num den : Nat) : Nat :=
  let q := num / den
  let r := num % den
  if 2 * r < den then q
  else if den < 2 * r then q + 1
  else if q % 2 = 0 then q else q + 1

/-- The double closest to `num / den`, a tie going to the even significand; `infinity` above the
    largest finite double.

    The significand is read at the scale that gives it 53 bits, or at the smallest scale. A
    significand that rounds up to 54 bits carries into the exponent field by plain addition. -/
def nearest (num den : Nat) : Double :=
  if num = 0 then zero
  else
    let guess : Int := (num.log2 : Int) - den.log2 - 52
    let enough (s : Int) : Bool :=
      fractionCount * (den * Nat.pow 2 s.toNat) ≤ num * Nat.pow 2 (-s).toNat
    let s : Int := max (if enough guess then guess else guess - 1) (-1074)
    let m := roundDiv (num * Nat.pow 2 (-s).toNat) (den * Nat.pow 2 s.toNat)
    let encoded := (s + 1074).toNat * fractionCount + m
    if 2047 * fractionCount ≤ encoded then infinity else ⟨UInt64.ofNat encoded⟩

/-- A magnitude with a sign. -/
def withSign (isNegative : Bool) (x : Double) : Double := if isNegative then x.neg else x

/-- The double closest to an integer. -/
def ofInt (i : Int) : Double := withSign (i < 0) (nearest i.natAbs 1)

def nan : Double := ⟨0x7FF8000000000000⟩

/-- The double closest to `± m · 2 ^ s`. -/
def ofScaled (isNegative : Bool) (m : Nat) (s : Int) : Double :=
  withSign isNegative (nearest (m * Nat.pow 2 s.toNat) (Nat.pow 2 (-s).toNat))

/-- A finite double in units of `2 ^ s`, for an `s` that is not above its scale. -/
def unitsOf (x : Double) (s : Int) : Int :=
  let m : Nat := x.significand * Nat.pow 2 (x.scale - s).toNat
  if x.isNegative then -m else m

/-- The sum, rounded once. Opposite infinities have none. -/
def add (x y : Double) : Double :=
  if x.isNaN || y.isNaN then nan
  else if !x.isFinite then (if !y.isFinite && x ≠ y then nan else x)
  else if !y.isFinite then y
  else
    let s := min x.scale y.scale
    let sum := x.unitsOf s + y.unitsOf s
    if sum = 0 then withSign (x.isNegative && y.isNegative) zero
    else ofScaled (sum < 0) sum.natAbs s

def sub (x y : Double) : Double := x.add y.neg

/-- The product, rounded once. Zero times an infinity is none. -/
def mul (x y : Double) : Double :=
  let isNegative := x.isNegative != y.isNegative
  if x.isNaN || y.isNaN then nan
  else if !x.isFinite || !y.isFinite then
    if x.isZero || y.isZero then nan else withSign isNegative infinity
  else ofScaled isNegative (x.significand * y.significand) (x.scale + y.scale)

/-- The quotient of two magnitudes, rounded once. -/
def divMagnitude (x y : Double) : Double :=
  let (a, b) := x.magnitude
  let (c, d) := y.magnitude
  nearest (a * d) (b * c)

end Double

end RecordStore
