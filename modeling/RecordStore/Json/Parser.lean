import RecordStore.Decimal.Literal
import RecordStore.Json.Value

/-!
# Reading JSON text

The grammar of JSON, read from left to right; what follows the value may only be blank. A number
without point and exponent is an integer when it fits 64 bits (unsigned if it has no sign),
otherwise a float; `-0` is a float. Of a repeated field the last value stays.

Every reading function takes fuel, which the number of characters bounds: each step consumes one.
-/

namespace RecordStore

namespace Json

def isBlank (c : Char) : Bool := c = ' ' || c = '\n' || c = '\r' || c = '\t'

def skipBlanks (cs : List Char) : List Char := cs.dropWhile isBlank

/-- The number of a hexadecimal digit of either case. -/
def hexValue? (c : Char) : Option Nat :=
  if '0' ≤ c ∧ c ≤ '9' then some (c.toNat - '0'.toNat)
  else if 'a' ≤ c ∧ c ≤ 'f' then some (c.toNat - 'a'.toNat + 10)
  else if 'A' ≤ c ∧ c ≤ 'F' then some (c.toNat - 'A'.toNat + 10)
  else none

/-- Four hexadecimal digits, as after `\u`. -/
def unit? : List Char → Option (Nat × List Char)
  | a :: b :: c :: d :: rest => do
    let a ← hexValue? a
    let b ← hexValue? b
    let c ← hexValue? c
    let d ← hexValue? d
    return (((a * 16 + b) * 16 + c) * 16 + d, rest)
  | _ => none

/-- The character of an escape, behind its backslash. A high surrogate needs a low one after it. -/
def escape? : List Char → Option (Char × List Char)
  | '"' :: rest => some ('"', rest)
  | '\\' :: rest => some ('\\', rest)
  | '/' :: rest => some ('/', rest)
  | 'b' :: rest => some ('\x08', rest)
  | 'f' :: rest => some ('\x0c', rest)
  | 'n' :: rest => some ('\n', rest)
  | 'r' :: rest => some ('\r', rest)
  | 't' :: rest => some ('\t', rest)
  | 'u' :: rest => do
    let (high, rest) ← unit? rest
    if 0xD800 ≤ high ∧ high < 0xDC00 then
      match rest with
      | '\\' :: 'u' :: rest => do
        let (low, rest) ← unit? rest
        if 0xDC00 ≤ low ∧ low < 0xE000 then
          return (Char.ofNat (0x10000 + (high - 0xD800) * 0x400 + (low - 0xDC00)), rest)
        else none
      | _ => none
    else if 0xDC00 ≤ high ∧ high < 0xE000 then none
    else return (Char.ofNat high, rest)
  | _ => none

/-- The characters of a string behind its opening quotation mark; `read` holds those read so far,
    the last one first. -/
def stringRest : Nat → List Char → List Char → Option (String × List Char)
  | 0, _, _ => none
  | fuel + 1, read, cs =>
    match cs with
    | [] => none
    | '"' :: rest => some (String.ofList read.reverse, rest)
    | '\\' :: rest => do
      let (c, rest) ← escape? rest
      stringRest fuel (c :: read) rest
    | c :: rest => if c.toNat < 0x20 then none else stringRest fuel (c :: read) rest

/-- Digits at the head, and what follows them. -/
def splitDigits (cs : List Char) : List Char × List Char :=
  (cs.takeWhile Char.isDigit, cs.dropWhile Char.isDigit)

def digitsValue (digits : List Char) : Nat :=
  digits.foldl (fun n c => n * 10 + (c.toNat - '0'.toNat)) 0

/-- The exponent behind an optional `e` or `E`; at least one digit has to follow the mark. -/
def exponent? : List Char → Option (Option Int × List Char)
  | c :: rest =>
    if c = 'e' ∨ c = 'E' then
      let (negative, rest) :=
        match rest with
        | '+' :: rest => (false, rest)
        | '-' :: rest => (true, rest)
        | rest => (false, rest)
      match splitDigits rest with
      | ([], _) => none
      | (digits, rest) =>
        let n : Int := digitsValue digits
        some (some (if negative then -n else n), rest)
    else some (none, c :: rest)
  | [] => some (none, [])

/-- The fraction behind an optional point; at least one digit has to follow the point. -/
def fraction? : List Char → Option (Option (List Char) × List Char)
  | '.' :: rest =>
    match splitDigits rest with
    | ([], _) => none
    | (digits, rest) => some (some digits, rest)
  | rest => some (none, rest)

/-- A magnitude with its sign put on. -/
def signed (negative : Bool) (x : Double) : Number := .float (if negative then x.neg else x)

/-- The number with these parts; nothing when it is out of range. -/
def number? (negative : Bool) (whole : List Char) (fraction : Option (List Char))
    (exponent : Option Int) : Option Number :=
  match fraction, exponent with
  | none, none =>
    let n := digitsValue whole
    if negative then
      if 0 < n ∧ n ≤ 0x8000000000000000 then some (.int (-n))
      else ((Double.Literal.ofDigits whole [] 0).toDouble?).map (signed true)
    else if n < 0x10000000000000000 then some (.int n)
    else ((Double.Literal.ofDigits whole [] 0).toDouble?).map (signed false)
  | fraction, exponent =>
    ((Double.Literal.ofDigits whole (fraction.getD []) (exponent.getD 0)).toDouble?).map
      (signed negative)

/-- A number: its integer part has no leading zero. -/
def numberText (cs : List Char) : Option (Number × List Char) := do
  let (negative, cs) := match cs with
    | '-' :: rest => (true, rest)
    | cs => (false, cs)
  let (whole, rest) := splitDigits cs
  if whole.isEmpty ∨ (whole.head? = some '0' ∧ 1 < whole.length) then none
  else
    let (fraction, rest) ← fraction? rest
    let (exponent, rest) ← exponent? rest
    let n ← number? negative whole fraction exponent
    return (n, rest)

mutual

/-- A value, after blanks. -/
def value : Nat → List Char → Option (Value × List Char)
  | 0, _ => none
  | fuel + 1, cs =>
    match skipBlanks cs with
    | 'n' :: 'u' :: 'l' :: 'l' :: rest => some (.null, rest)
    | 't' :: 'r' :: 'u' :: 'e' :: rest => some (.bool true, rest)
    | 'f' :: 'a' :: 'l' :: 's' :: 'e' :: rest => some (.bool false, rest)
    | '"' :: rest => do
      let (s, rest) ← stringRest (rest.length + 1) [] rest
      return (.string s, rest)
    | '[' :: rest =>
      match skipBlanks rest with
      | ']' :: rest => some (.array [], rest)
      | rest => items fuel [] rest
    | '\x7b' :: rest =>
      match skipBlanks rest with
      | '\x7d' :: rest => some (.object [], rest)
      | rest => fields fuel [] rest
    | cs => do
      let (n, rest) ← numberText cs
      return (.number n, rest)

/-- The items of an array, of which there is at least one more; `read` holds those read so far,
    the last one first. -/
def items : Nat → List Value → List Char → Option (Value × List Char)
  | 0, _, _ => none
  | fuel + 1, read, cs => do
    let (v, rest) ← value fuel cs
    match skipBlanks rest with
    | ',' :: rest => items fuel (v :: read) rest
    | ']' :: rest => some (.array (v :: read).reverse, rest)
    | _ => none

/-- The fields of an object, of which there is at least one more. -/
def fields : Nat → Row → List Char → Option (Value × List Char)
  | 0, _, _ => none
  | fuel + 1, read, cs => do
    match skipBlanks cs with
    | '"' :: rest => do
      let (name, rest) ← stringRest (rest.length + 1) [] rest
      match skipBlanks rest with
      | ':' :: rest => do
        let (v, rest) ← value fuel rest
        let read := read.insert name v
        match skipBlanks rest with
        | ',' :: rest => fields fuel read rest
        | '\x7d' :: rest => some (.object read, rest)
        | _ => none
      | _ => none
    | _ => none

end

end Json

/-- The value a text stands for; nothing when it is not JSON. -/
def Value.parse? (s : String) : Option Value :=
  let cs := s.toList
  match Json.value (cs.length + 1) cs with
  | some (v, rest) => if (Json.skipBlanks rest).isEmpty then some v else none
  | none => none

end RecordStore
