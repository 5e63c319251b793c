import RecordStore.Decimal.Double

/-!
# JSON values

Columns, operands and stored forms are JSON values. An integer and a float are different values
even when they denote the same number, so `1`, `1.0` and `true` differ pairwise, while the two
float zeros are one value.

An object is a *row*: a list of fields in the order of their keys, each key once. The order is that
of the code points, which is also that of the UTF-8 bytes. `Row.insert` keeps a row in this form
and replaces the value of a key that is present.
-/

namespace RecordStore

/-- A JSON number. Readers produce integers from `-2 ^ 63` up to below `2 ^ 64`, and finite
    floats. -/
inductive Number where
  | int (i : Int)
  | float (x : Double)
  deriving DecidableEq, Inhabited

namespace Number

/-- Whether an integer has 64 bits with a sign. -/
def fitsInt64 (i : Int) : Bool := -0x8000000000000000 ≤ i && i < 0x8000000000000000

/-- Equality of values: integers and floats are never equal, floats compare as numbers. -/
def same : Number → Number → Bool
  | .int i, .int j => i == j
  | .float x, .float y => x.equals y
  | _, _ => false

end Number

/-- A JSON value. -/
inductive Value where
  | null
  | bool (b : Bool)
  | number (n : Number)
  | string (s : String)
  | array (items : List Value)
  | object (fields : List (String × Value))
  deriving Inhabited

/-- Named values in the order of their names, each name once: a table row, or the fields of a JSON
    object. -/
abbrev Row := List (String × Value)

namespace Value

def int (i : Int) : Value := .number (.int i)

def nat (n : Nat) : Value := .number (.int n)

def isNull : Value → Bool
  | .null => true
  | _ => false

mutual

/-- Equality of JSON values. It is coarser than identity only in the two float zeros. -/
def same : Value → Value → Bool
  | .null, .null => true
  | .bool a, .bool b => a == b
  | .number m, .number n => m.same n
  | .string s, .string t => s == t
  | .array xs, .array ys => sameItems xs ys
  | .object xs, .object ys => sameFields xs ys
  | _, _ => false

/-- Equality of lists of values, item by item. -/
def sameItems : List Value → List Value → Bool
  | [], [] => true
  | x :: xs, y :: ys => same x y && sameItems xs ys
  | _, _ => false

/-- Equality of fields, name by name and value by value. -/
def sameFields : List (String × Value) → List (String × Value) → Bool
  | [], [] => true
  | (k, x) :: xs, (l, y) :: ys => k == l && same x y && sameFields xs ys
  | _, _ => false

end

instance : BEq Value := ⟨same⟩

end Value

namespace Row

/-- The value of a column. -/
def get? : Row → String → Option Value
  | [], _ => none
  | (k, v) :: rest, name => if k = name then some v else get? rest name

/-- Sets a column, replacing its value if it is present. -/
def insert : Row → String → Value → Row
  | [], name, value => [(name, value)]
  | (k, v) :: rest, name, value =>
    if k = name then (name, value) :: rest
    else if name < k then (name, value) :: (k, v) :: rest
    else (k, v) :: insert rest name value

/-- Sets columns one by one, so the last of several values for a name stays. -/
def merge (row : Row) (fields : List (String × Value)) : Row :=
  fields.foldl (fun row field => row.insert field.1 field.2) row

def ofList (fields : List (String × Value)) : Row := merge [] fields

/-- The value of a column, null when it is absent. -/
def getOrNull (row : Row) (name : String) : Value := (row.get? name).getD .null

theorem mem_of_get? {row : Row} {name : String} {v : Value} (h : row.get? name = some v) :
    (name, v) ∈ row := by
  induction row with
  | nil => cases h
  | cons field rest ih =>
    obtain ⟨k, w⟩ := field
    rw [get?] at h
    split at h
    next hk =>
      cases h
      exact hk ▸ List.mem_cons_self
    next => exact List.mem_cons_of_mem _ (ih h)

theorem get?_insert_self (row : Row) (name : String) (value : Value) :
    (row.insert name value).get? name = some value := by
  induction row with
  | nil => simp [insert, get?]
  | cons field rest ih =>
    obtain ⟨k, v⟩ := field
    by_cases h : k = name
    · simp [insert, get?, h]
    · by_cases hlt : name < k <;> simp [insert, get?, h, hlt, ih]

theorem get?_insert_of_ne (row : Row) {name other : String} (value : Value) (h : other ≠ name) :
    (row.insert name value).get? other = row.get? other := by
  induction row with
  | nil => simp [insert, get?, h.symm]
  | cons field rest ih =>
    obtain ⟨k, v⟩ := field
    by_cases hk : k = name
    · subst hk
      simp [insert, get?, h.symm]
    · by_cases hlt : name < k
      · simp [insert, get?, hk, hlt, h.symm]
      · simp [insert, get?, hk, hlt, ih]

end Row

namespace Value

/-- The object with these fields, a repeated name keeping its last value. -/
def ofFields (fields : List (String × Value)) : Value := .object (Row.ofList fields)

def strings (names : List String) : Value := .array (names.map .string)

/-- The field of an object; nothing for other values. -/
def field? (name : String) : Value → Option Value
  | .object fields => Row.get? fields name
  | _ => none

end Value

end RecordStore
