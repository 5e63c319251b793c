import RecordStore.Decimal.Double

/-!
# Shortest decimal text

The text of a double has the fewest digits that read back as it, and among those the digits
closest to its value. Both are decided exactly: the reals that round to a double form an interval
around it (its ends belong to it exactly when the significand is even), and for each number of
digits only the two neighbours of the value on that decimal grid have to be tried.

How the digits are laid out is a separate decision, `Layout`.
-/

namespace RecordStore.Double

/-- Decimal digits with an exponent: the value `digits · 10 ^ exponent`. -/
structure Decimal where
  digits : Nat
  exponent : Int
  deriving DecidableEq, Repr

/-- Moves zeros at the end of the digits into the exponent, at most `fuel` of them. -/
def Decimal.trim (d : Decimal) : Nat → Decimal
  | 0 => d
  | fuel + 1 =>
    if d.digits % 10 = 0 then Decimal.trim ⟨d.digits / 10, d.exponent + 1⟩ fuel else d

/-- The reals that round to a positive double, in units of a quarter of its last place:
    the least, the value itself, the greatest. A power of two is closer to its lower neighbour. -/
def roundingInterval (x : Double) : Nat × Nat × Nat :=
  let m := x.significand
  let below := if x.fraction = 0 ∧ 1 < x.exponentField then 1 else 2
  (4 * m - below, 4 * m, 4 * m + 2)

/-- The largest `p` with `10 ^ p ≤ num / den`, for a positive quotient of at least `10 ^ -400`. -/
def decimalExponent (num den : Nat) : Int :=
  if den ≤ num then ((Nat.toDigits 10 (num / den)).length : Int) - 1
  else go 400 1
where
  /-- Counts the places until the first digit that is not zero. -/
  go : Nat → Nat → Int
    | 0, j => -(j : Int)
    | fuel + 1, j => if den ≤ num * Nat.pow 10 j then -(j : Int) else go fuel (j + 1)

/-- The neighbour of the value on the grid of `10 ^ exponent` that lies in the interval, if one
    does: of two the closer, of two as close the even one. -/
def onGrid (low value high : Nat) (closed : Bool) (num den : Nat) (exponent : Int) :
    Option Decimal :=
  -- A grid point `d` is compared as `d * step` with `bound * unit`.
  let step := Nat.pow 10 exponent.toNat * den
  let unit := num * Nat.pow 10 (-exponent).toNat
  let inside (d : Nat) : Bool :=
    if closed then low * unit ≤ d * step && d * step ≤ high * unit
    else low * unit < d * step && d * step < high * unit
  let lower := value * unit / step
  let upper := lower + 1
  match inside lower, inside upper with
  | false, false => none
  | true, false => some ⟨lower, exponent⟩
  | false, true => some ⟨upper, exponent⟩
  | true, true =>
    let down := value * unit - lower * step
    let up := upper * step - value * unit
    if down < up then some ⟨lower, exponent⟩
    else if up < down then some ⟨upper, exponent⟩
    else if lower % 2 = 0 then some ⟨lower, exponent⟩ else some ⟨upper, exponent⟩

/-- The shortest decimal that reads back as the magnitude of `x`, a finite double that is not
    zero. Seventeen digits always suffice; the upper neighbour of `9…9` ends in zeros. -/
def shortest (x : Double) : Decimal :=
  let (low, value, high) := x.roundingInterval
  let closed := x.significand % 2 = 0
  -- The unit of the interval is a quarter of the last place.
  let scale := x.scale - 2
  let num := Nat.pow 2 scale.toNat
  let den := Nat.pow 2 (-scale).toNat
  let top := decimalExponent (value * num) den
  let grids := (List.range 17).map fun (n : Nat) => top - n
  let found := grids.findSome? (onGrid low value high closed num den)
  (found.getD ⟨value * num / den, 0⟩).trim 17

/-- How shortest digits are written. -/
structure Layout where
  /-- The decimal point stands inside or behind the digits while at most this many digits stand
      before it. -/
  maxWhole : Int
  /-- It stands before them while fewer than this many zeros follow it. -/
  maxZeros : Int
  /-- What a whole number ends in. -/
  wholeEnd : String
  /-- What separates the digits from the power of ten. -/
  exponentMark : String

/-- The layout of numbers in JSON text: plain digits from `0.00001` up to below `1e16`, with at
    least one decimal, otherwise one digit before the point and an exponent without `+`. -/
def jsonLayout : Layout := ⟨16, 5, ".0", "e"⟩

/-- Writes digits with the decimal point after the first `point` of them. -/
def Layout.write (layout : Layout) (d : Decimal) : String :=
  let digits := Nat.toDigits 10 d.digits
  let count : Int := digits.length
  let point := count + d.exponent
  if 0 ≤ d.exponent ∧ point ≤ layout.maxWhole then
    String.ofList (digits ++ List.replicate d.exponent.toNat '0') ++ layout.wholeEnd
  else if 0 < point ∧ point ≤ layout.maxWhole then
    String.ofList (digits.take point.toNat ++ '.' :: digits.drop point.toNat)
  else if -layout.maxZeros < point ∧ point ≤ 0 then
    "0." ++ String.ofList (List.replicate (-point).toNat '0' ++ digits)
  else
    let head := digits.take 1
    let tail := digits.drop 1
    String.ofList (if tail.isEmpty then head else head ++ '.' :: tail) ++ layout.exponentMark
      ++ toString (point - 1)

/-- The text of a finite double: its sign, also that of zero, and its shortest digits. -/
def toText (layout : Layout) (x : Double) : String :=
  let body := if x.isZero then "0" ++ layout.wholeEnd else layout.write x.shortest
  if x.isNegative then "-" ++ body else body

end RecordStore.Double
