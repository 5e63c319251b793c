import RecordStore.Decimal.Pair
import RecordStore.Statement.Param

/-!
# Values as keys

The key of a table is an integer. A value that is given for a key, or compared with one, counts as
an integer if it denotes one: a float without fraction does, and so does a text that reads as such a
number. A text that is no integer of 64 bits is read as a pair of doubles
(`DoublePair.readDecimal`). Every integer comes before every text that is not a number, and nothing
compares with null.
-/

namespace RecordStore

namespace Double

/-- The smallest integer that is not below a finite number. -/
def ceil (x : Double) : Int :=
  let (num, den) := x.magnitude
  if x.isNegative then -(num / den : Nat) else ((num + den - 1) / den : Nat)

/-- The integer that a number denotes, if it lies strictly between the 64-bit limits. -/
def toInt? (x : Double) : Option Int :=
  let (num, den) := x.magnitude
  if x.isFinite && num % den = 0 && num / den < 0x8000000000000000 then some x.ceil else none

end Double

namespace Simulation

/-- The blanks that may stand around a number. -/
def isBlank (c : Char) : Bool := c = ' ' || 9 ≤ c.toNat && c.toNat ≤ 13

/-- The value of a list of digits. -/
def digitsValue (ds : List Char) : Nat :=
  ds.foldl (fun n d => n * 10 + (d.toNat - '0'.toNat)) 0

/-- Cuts off a sign, and says whether it was a minus. -/
def takeSign : List Char → Bool × List Char
  | '-' :: rest => (true, rest)
  | '+' :: rest => (false, rest)
  | cs => (false, cs)

/-- The exponent behind a number, zero if there is none; nothing if it is not well formed. From
    10000 on it takes no further digit and counts as 10000 if there is one. -/
def exponent? : List Char → Option Int
  | [] => some 0
  | e :: rest =>
    let (negative, ds) := takeSign rest
    if (e = 'e' || e = 'E') && !ds.isEmpty && ds.all Char.isDigit then
      let n := ds.foldl (fun n d => if n < 10000 then n * 10 + (d.toNat - '0'.toNat) else 10000) 0
      some (if negative then -(n : Int) else n)
    else none

/-- The number that a text is, if it is one: digits, which may have a sign, a point and an exponent,
    with blanks around them. -/
def numericText? (s : String) : Option Param := do
  let cs := ((s.toList.dropWhile isBlank).reverse.dropWhile isBlank).reverse
  let (negative, cs) := takeSign cs
  let whole := cs.takeWhile Char.isDigit
  let cs := cs.dropWhile Char.isDigit
  let sign (i : Int) : Int := if negative then -i else i
  let real (x : Double) : Param := .real (if negative then x.neg else x)
  match cs with
  | [] =>
    if whole.isEmpty then none
    else
      let i := sign (digitsValue whole)
      if Number.fitsInt64 i then some (.integer i)
      else some (real (DoublePair.readDecimal whole [] 0))
  | '.' :: rest =>
    let fraction := rest.takeWhile Char.isDigit
    let e ← exponent? (rest.dropWhile Char.isDigit)
    if whole.isEmpty && fraction.isEmpty then none
    else some (real (DoublePair.readDecimal whole fraction e))
  | rest =>
    let e ← exponent? rest
    if whole.isEmpty then none else some (real (DoublePair.readDecimal whole [] e))

/-- A value as a number, if it is one or a text that reads as one. -/
def numeric (p : Param) : Param :=
  match p with
  | .text s => (numericText? s).getD p
  | p => p

/-- The key that a value denotes. -/
def key? (p : Param) : Option Int :=
  match numeric p with
  | .integer i => some i
  | .real x => x.toInt?
  | _ => none

/-- Whether a key is at least as large as a value. -/
def reaches (id : Int) (p : Param) : Bool :=
  match numeric p with
  | .integer i => i ≤ id
  | .real x => if x.isFinite then x.ceil ≤ id else x.isNegative && !x.isNaN
  | _ => false

end Simulation

end RecordStore
