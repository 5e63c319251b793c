import RecordStore.Decimal.Shortest
import RecordStore.Json.Value

/-!
# JSON text

The compact text of a value: no blanks, fields in the order of their names, floats with their
shortest digits. In strings only the quotation mark, the backslash and the control characters
below U+0020 are escaped; all other characters stand for themselves.
-/

namespace RecordStore

/-- The lower-case hexadecimal digit of a number below sixteen. -/
def hexDigit (n : Nat) : Char := Nat.digitChar (n % 16)

namespace Json

/-- How one character is written inside a string. -/
def escapeChar (c : Char) : List Char :=
  match c with
  | '"' => ['\\', '"']
  | '\\' => ['\\', '\\']
  | '\x08' => ['\\', 'b']
  | '\x0c' => ['\\', 'f']
  | '\n' => ['\\', 'n']
  | '\r' => ['\\', 'r']
  | '\t' => ['\\', 't']
  | c =>
    if c.toNat < 0x20 then
      ['\\', 'u', '0', '0', hexDigit (c.toNat / 16), hexDigit c.toNat]
    else [c]

/-- A string in quotation marks. -/
def quote (s : String) : String :=
  String.ofList ('"' :: (s.toList.flatMap escapeChar ++ ['"']))

end Json

/-- The text of a number; a float that is not finite has none and is written `null`. -/
def Number.text : Number → String
  | .int i => toString i
  | .float x => if x.isFinite then x.toText Double.jsonLayout else "null"

namespace Value

mutual

/-- The compact text of a value. -/
def text : Value → String
  | .null => "null"
  | .bool true => "true"
  | .bool false => "false"
  | .number n => n.text
  | .string s => Json.quote s
  | .array items => "[" ++ ",".intercalate (itemTexts items) ++ "]"
  | .object fields => "\x7b" ++ ",".intercalate (fieldTexts fields) ++ "\x7d"

/-- The texts of the items of an array. -/
def itemTexts : List Value → List String
  | [] => []
  | v :: rest => text v :: itemTexts rest

/-- The texts of the fields of an object. -/
def fieldTexts : List (String × Value) → List String
  | [] => []
  | (k, v) :: rest => (Json.quote k ++ ":" ++ text v) :: fieldTexts rest

end

/-- The text of a value in a message: a string without its quotation marks. -/
def plainText : Value → String
  | .string s => s
  | v => v.text

end Value

end RecordStore
