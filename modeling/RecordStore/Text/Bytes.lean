/-!
# Bytes as text

Three ways to show bytes as text: as hexadecimal digits, in base 64, and as the UTF-8 that they may
be.

Base 64 takes three bytes to four characters of 64, and fills up the last group with equals signs.
UTF-8 is decoded without failing: where the bytes are not UTF-8, the longest piece that could have
been the beginning of a character, or else a single byte, is shown as one replacement character.
-/

namespace RecordStore.Text

/-- The bytes written as pairs of hexadecimal digits. -/
def bytesOfHex? : List Char → Option (List UInt8)
  | [] => some []
  | [_] => none
  | a :: b :: rest => do
    let digit (c : Char) : Option Nat :=
      if c.isDigit then some (c.toNat - '0'.toNat)
      else if 'a' ≤ c ∧ c ≤ 'f' then some (c.toNat - 'a'.toNat + 10)
      else if 'A' ≤ c ∧ c ≤ 'F' then some (c.toNat - 'A'.toNat + 10)
      else none
    return UInt8.ofNat ((← digit a) * 16 + (← digit b)) :: (← bytesOfHex? rest)

/-- The character of base 64 for a number below 64. -/
def base64Char (n : Nat) : Char :=
  if n < 26 then Char.ofNat ('A'.toNat + n)
  else if n < 52 then Char.ofNat ('a'.toNat + (n - 26))
  else if n < 62 then Char.ofNat ('0'.toNat + (n - 52))
  else if n = 62 then '+'
  else '/'

/-- Base 64 with padding. -/
def base64 : List UInt8 → List Char
  | [] => []
  | [a] =>
    let n := a.toNat * 16
    [base64Char (n / 64), base64Char (n % 64), '=', '=']
  | [a, b] =>
    let n := (a.toNat * 256 + b.toNat) * 4
    [base64Char (n / 4096), base64Char (n / 64 % 64), base64Char (n % 64), '=']
  | a :: b :: c :: rest =>
    let n := (a.toNat * 256 + b.toNat) * 256 + c.toNat
    base64Char (n / 262144) :: base64Char (n / 4096 % 64) :: base64Char (n / 64 % 64)
      :: base64Char (n % 64) :: base64 rest

/-- Any byte but the first of a character. -/
def isTail (b : UInt8) : Bool := 0x80 ≤ b && b ≤ 0xBF

/-- How many bytes a character has that begins with this byte; zero if none does. -/
def sequenceLength (a : UInt8) : Nat :=
  if a ≤ 0x7F then 1
  else if 0xC2 ≤ a && a ≤ 0xDF then 2
  else if 0xE0 ≤ a && a ≤ 0xEF then 3
  else if 0xF0 ≤ a && a ≤ 0xF4 then 4
  else 0

/-- Whether a byte can be the second of a character of several bytes. Overlong forms, surrogates and
    numbers above the largest code point are ruled out here. -/
def isSecond (a b : UInt8) : Bool :=
  if a = 0xE0 then 0xA0 ≤ b && b ≤ 0xBF
  else if a = 0xED then 0x80 ≤ b && b ≤ 0x9F
  else if a = 0xF0 then 0x90 ≤ b && b ≤ 0xBF
  else if a = 0xF4 then 0x80 ≤ b && b ≤ 0x8F
  else isTail b

/-- The character for bytes that cannot be decoded. -/
def replacement : Char := Char.ofNat 0xFFFD

/-- The character with the payload bits of a sequence that begins with this byte. -/
def ofPayload (a : UInt8) (tail : List UInt8) : Char :=
  let lead := a.toNat % (if tail.length = 1 then 32 else if tail.length = 2 then 16 else 8)
  Char.ofNat (tail.foldl (fun n b => n * 64 + b.toNat % 64) lead)

/-- The character that begins with a byte, and how many of the bytes behind it belong to it. A
    sequence that breaks off is one replacement character up to there. -/
def firstChar (a : UInt8) (rest : List UInt8) : Char × Nat :=
  match sequenceLength a, rest with
  | 1, _ => (Char.ofNat a.toNat, 0)
  | 2, b :: _ => if isSecond a b then (ofPayload a [b], 1) else (replacement, 0)
  | 3, b :: c :: _ =>
    if !isSecond a b then (replacement, 0)
    else if isTail c then (ofPayload a [b, c], 2) else (replacement, 1)
  | 4, b :: c :: d :: _ =>
    if !isSecond a b then (replacement, 0)
    else if !isTail c then (replacement, 1)
    else if isTail d then (ofPayload a [b, c, d], 3) else (replacement, 2)
  | 3, [b] => (replacement, if isSecond a b then 1 else 0)
  | 4, [b] => (replacement, if isSecond a b then 1 else 0)
  | 4, [b, c] => (replacement, if !isSecond a b then 0 else if isTail c then 2 else 1)
  | _, _ => (replacement, 0)

/-- Decodes UTF-8, with replacement characters where it is none. -/
def decodeUtf8 : List UInt8 → List Char
  | [] => []
  | a :: rest => (firstChar a rest).1 :: decodeUtf8 (rest.drop (firstChar a rest).2)
termination_by bytes => bytes.length
decreasing_by
  rw [List.length_drop, List.length_cons]
  omega

end RecordStore.Text
