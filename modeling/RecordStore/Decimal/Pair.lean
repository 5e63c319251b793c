import RecordStore.Decimal.Double

/-!
# Pairs of doubles

A *pair* stands for the sum of two doubles, the second of which holds what the first one is too
short for. Products of pairs are computed in doubles alone: a factor is cut into a head of 27
leading bits and a tail, whose products are exact or nearly so.

A decimal is read by pairs (`DoublePair.readDecimal`): as many of its digits as fit make a
significand, which is then multiplied by powers of ten. The two roundings of that differ from a
single one of the exact value (`Double.nearest`) for some decimals next to the middle between two
doubles, and for more of them far away from one.
-/

namespace RecordStore

/-- The sum of two doubles. -/
structure DoublePair where
  high : Double
  low : Double
  deriving DecidableEq, Inhabited

namespace DoublePair

/-- The 27 leading bits of a double. -/
def head (x : Double) : Double := ⟨x.bits &&& 0xFFFFFFFFFC000000⟩

/-- The rest behind the leading bits. -/
def tail (x : Double) : Double := x.sub (head x)

/-- The product of two pairs. -/
def mul (x y : DoublePair) : DoublePair :=
  let p := (head x.high).mul (head y.high)
  let q := ((head x.high).mul (tail y.high)).add ((tail x.high).mul (head y.high))
  let c := p.add q
  let missing := (((p.sub c).add q).add ((tail x.high).mul (tail y.high)))
  let missing := ((x.high.mul y.low).add (x.low.mul y.high)).add missing
  let high := c.add missing
  ⟨high, (c.sub high).add missing⟩

/-- The pair closest to `num / den`: the closest double, and the double closest to the rest. -/
def nearest (num den : Nat) : DoublePair :=
  let high := Double.nearest num den
  let (a, b) := high.magnitude
  let rest : Int := num * b - a * den
  ⟨high, Double.withSign (rest < 0) (Double.nearest rest.natAbs (b * den))⟩

/-- A power of ten. -/
def powerOfTen (exponent : Int) : DoublePair :=
  nearest (Nat.pow 10 exponent.toNat) (Nat.pow 10 (-exponent).toNat)

/-- A significand of at most 64 bits. Where the closest double has more, its rest is left out. -/
def ofSignificand (n : Nat) : DoublePair :=
  let p := nearest n 1
  if p.high.magnitude.1 < 0x10000000000000000 then p else ⟨p.high, .zero⟩

/-- A pair multiplied by a power of ten, in steps of a hundred, ten and one decimal places. -/
def scaleBy (p : DoublePair) (exponent : Int) : DoublePair :=
  let sign := exponent.sign
  let times (places count : Nat) (p : DoublePair) : DoublePair :=
    let factor := powerOfTen (sign * places)
    Nat.repeat (·.mul factor) count p
  let n := exponent.natAbs
  times 1 (n % 10) (times 10 (n % 100 / 10) (times 100 (n / 100) p))

/-- The sum; where none came about, the number was too large. -/
def value (p : DoublePair) : Double :=
  let x := p.high.add p.low
  if x.isNaN then .infinity else x

/-- The bound from which on a significand takes no further digit. -/
def digitBound : Nat := (0xFFFFFFFFFFFFFFFF - 9) / 10

/-- The significand of the digits before and behind the point, and the power of ten that it counts.
    Digits from the bound on do not count. -/
def readDigits (whole fraction : List Char) : Nat × Int :=
  let digit (c : Char) : Nat := c.toNat - '0'.toNat
  let before := whole.foldl (fun ((n, e) : Nat × Int) c =>
    if n < digitBound then (n * 10 + digit c, e) else (n, e + 1)) (0, 0)
  fraction.foldl (fun ((n, e) : Nat × Int) c =>
    if n < digitBound then (n * 10 + digit c, e - 1) else (n, e)) before

/-- Brings the power of ten towards zero, as far as the significand stays an integer of at most 64
    bits and `fuel` lasts. -/
def balance (n : Nat) (exponent : Int) : Nat → Nat × Int
  | 0 => (n, exponent)
  | fuel + 1 =>
    if 0 < exponent ∧ n < (0xFFFFFFFFFFFFFFFF - 0x7FF) / 10 then
      balance (n * 10) (exponent - 1) fuel
    else if exponent < 0 ∧ n % 10 = 0 then balance (n / 10) (exponent + 1) fuel
    else (n, exponent)

/-- The magnitude of a decimal. A positive significand changes its length less than twenty times. -/
def readDecimal (whole fraction : List Char) (exponent : Int) : Double :=
  let (n, e) := readDigits whole fraction
  if n = 0 then .zero
  else
    let (n, e) := balance n (e + exponent) 20
    ((ofSignificand n).scaleBy e).value

end DoublePair

end RecordStore
