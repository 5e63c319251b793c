import RecordStore.Decimal.Double

/-!
# Decimal literals

A decimal literal is read digit by digit into an unsigned 64-bit significand. Digits that no longer
fit are dropped: those before the point are counted in the exponent, those behind it are not. The
significand is then rounded to a double and scaled by one power of ten, itself a rounded double, so
a literal is rounded at most three times and does not always read as the nearest double.
-/

namespace RecordStore.Double

/-- The significand and exponent collected from a literal: `significand · 10 ^ exponent`. -/
structure Literal where
  significand : Nat
  exponent : Int

namespace Literal

/-- Reads digits while they fit into 64 bits. The first digit that does not fit and all digits
    behind it are dropped. Returns the significand and the numbers of digits kept and dropped. -/
def pushDigits (significand : Nat) : List Char → Nat × Nat × Nat
  | [] => (significand, 0, 0)
  | c :: rest =>
    let next := significand * 10 + (c.toNat - '0'.toNat)
    if next < 0x10000000000000000 then
      let (s, kept, dropped) := pushDigits next rest
      (s, kept + 1, dropped)
    else (significand, 0, rest.length + 1)

/-- The literal with these digits before and behind the point and this exponent. -/
def ofDigits (whole fraction : List Char) (exponent : Int) : Literal :=
  let (s, _, dropped) := pushDigits 0 whole
  let (s, kept, _) := pushDigits s fraction
  ⟨s, dropped - kept + exponent⟩

/-- Scales a magnitude by a power of ten. Powers beyond `10 ^ 308` are taken in steps of that many
    downwards and are out of range upwards, where an infinite result is out of range too. -/
def scaleBy (x : Double) (exponent : Int) : Nat → Option Double
  | 0 => none
  | fuel + 1 =>
    if exponent.natAbs ≤ 308 then
      let power := nearest (Nat.pow 10 exponent.natAbs) 1
      if 0 ≤ exponent then
        let y := x.mul power
        if y.isFinite then some y else none
      else some (divMagnitude x power)
    else if x.isZero then some x
    else if 0 ≤ exponent then none
    else scaleBy (divMagnitude x (nearest (Nat.pow 10 308) 1)) (exponent + 308) fuel

/-- The magnitude a literal reads as; nothing when it is out of range. Three steps downwards leave
    no finite double above zero, so the fuel does not run out. -/
def toDouble? (l : Literal) : Option Double :=
  scaleBy (nearest l.significand 1) l.exponent 5

end Literal

end RecordStore.Double
