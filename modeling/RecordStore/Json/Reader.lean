import RecordStore.Json.Value

/-!
# Readers of stored forms

A stored form is the JSON in which a value of the library is kept. A *reader* takes a JSON value to
what it stands for, or refuses it; a refusal carries no reason.

A structure is an object that names its fields, or an array that gives them in the order of their
declaration. Fields that are not declared are ignored in an object and refused in an array. An
array may end early where the missing fields have defaults. A variant without data is its name, or
an object with that name as its only field and null as its value.
-/

namespace RecordStore

/-- Reads a stored form; `none` refuses the value. -/
abbrev Reader (α : Type) := Value → Option α

namespace Reader

def text : Reader String
  | .string s => some s
  | _ => none

def flag : Reader Bool
  | .bool b => some b
  | _ => none

/-- An integer that is not negative and below the bound. -/
def natBelow (bound : Nat) : Reader Nat
  | .number (.int i) => if 0 ≤ i ∧ i.toNat < bound then some i.toNat else none
  | _ => none

/-- An unsigned number of 32 bits. -/
def nat32 : Reader Nat := natBelow 0x100000000

/-- An unsigned number of 64 bits. -/
def nat64 : Reader Nat := natBelow 0x10000000000000000

/-- A signed number of 64 bits. -/
def int64 : Reader Int
  | .number (.int i) => if Number.fitsInt64 i then some i else none
  | _ => none

def any : Reader Value := some

def listOf {α : Type} (item : Reader α) : Reader (List α)
  | .array items => items.mapM item
  | _ => none

/-- Null is the absence of a value. -/
def nullable {α : Type} (inner : Reader α) : Reader (Option α)
  | .null => some none
  | v => (inner v).map some

/-- A variant without data: its name, or an object holding null under it. -/
def choice {α : Type} (variants : List (String × α)) : Reader α
  | .string s => variants.lookup s
  | .object [(s, .null)] => variants.lookup s
  | _ => none

/-- The fields found in a structure's stored form. -/
structure Fields where
  /-- Whether the form was an object, in which optional fields may be left out. -/
  named : Bool
  found : List (String × Value)

namespace Fields

def required {α : Type} (f : Fields) (name : String) (read : Reader α) : Option α :=
  (f.found.lookup name).bind read

def withDefault {α : Type} (f : Fields) (name : String) (default : α) (read : Reader α) :
    Option α :=
  match f.found.lookup name with
  | some v => read v
  | none => some default

/-- A field that is absent or null has no value; an array has to mention it. -/
def optional {α : Type} (f : Fields) (name : String) (read : Reader α) : Option (Option α) :=
  match f.found.lookup name with
  | some v => nullable read v
  | none => if f.named then some none else none

end Fields

/-- The fields of a structure declared with these names, in this order. -/
def fields (names : List String) : Reader Fields
  | .object row => some ⟨true, row⟩
  | .array items =>
    if items.length ≤ names.length then some ⟨false, names.zip items⟩ else none
  | _ => none

end Reader

end RecordStore
