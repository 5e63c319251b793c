import RecordStore.Json.Text
import RecordStore.Text.Visible

/-!
# Diagnostic text

How values appear in diagnostics, on one line: a structure as its name with its fields in braces,
two dots standing for fields that are left out, a list in brackets, a string in quotation marks
with every character escaped that a reader would not see.
-/

namespace RecordStore.Describe

/-- The digits of a number in base sixteen. -/
def hex (n : Nat) : String := String.ofList (Nat.toDigits 16 n)

/-- How one character is shown inside quotation marks. -/
def char (c : Char) : String :=
  match c with
  | '"' => "\\\""
  | '\\' => "\\\\"
  | '\n' => "\\n"
  | '\r' => "\\r"
  | '\t' => "\\t"
  | '\x00' => "\\0"
  | c =>
    if Text.isVisible c then c.toString else "\\u\x7b" ++ hex c.toNat ++ "\x7d"

def string (s : String) : String := "\"" ++ String.join (s.toList.map char) ++ "\""

def bool (b : Bool) : String := if b then "true" else "false"

def list (items : List String) : String := "[" ++ ", ".intercalate items ++ "]"

def tuple (items : List String) : String := "(" ++ ", ".intercalate items ++ ")"

/-- Named parts in braces, with or without blanks inside them. -/
def fieldList (fields : List (String × String)) : String :=
  ", ".intercalate (fields.map fun (name, text) => name ++ ": " ++ text)

/-- A structure with all its fields. -/
def record (name : String) (fields : List (String × String)) : String :=
  name ++ " \x7b " ++ fieldList fields ++ " \x7d"

/-- A structure of which only these fields are shown. -/
def openRecord (name : String) (fields : List (String × String)) : String :=
  if fields.isEmpty then name ++ " \x7b .. \x7d"
  else name ++ " \x7b " ++ fieldList fields ++ ", .. \x7d"

/-- A variant with its data in parentheses. -/
def variant (name : String) (items : List String) : String := name ++ tuple items

/-- Values by key, in braces. -/
def map (fields : List (String × String)) : String := "\x7b" ++ fieldList fields ++ "\x7d"

mutual

/-- A JSON value with the names of its kinds. -/
def value : Value → String
  | .null => "Null"
  | .bool b => variant "Bool" [bool b]
  | .number n => variant "Number" [n.text]
  | .string s => variant "String" [string s]
  | .array items => "Array " ++ list (values items)
  | .object fields => "Object " ++ map (namedValues fields)

def values : List Value → List String
  | [] => []
  | v :: rest => value v :: values rest

def namedValues : List (String × Value) → List (String × String)
  | [] => []
  | (k, v) :: rest => (string k, value v) :: namedValues rest

end

end RecordStore.Describe
