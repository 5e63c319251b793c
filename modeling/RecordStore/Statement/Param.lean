import RecordStore.Json.Text

/-!
# Bound parameters

Values never stand in the text of a statement: they are bound to numbered placeholders, `?1`, `?2`
and so on. A parameter has one of the four kinds of value that the database stores.

Booleans are bound as 0 and 1, arrays and objects as their JSON text, and integers that do not fit
64 signed bits as the nearest float.
-/

namespace RecordStore

/-- A value bound to a placeholder. -/
inductive Param where
  | text (s : String)
  | integer (i : Int)
  | real (x : Double)
  | null
  deriving DecidableEq, Inhabited

namespace Param

/-- The parameter that a JSON value is bound as. -/
def ofValue : Value → Param
  | .null => .null
  | .bool b => .integer (if b then 1 else 0)
  | .number (.int i) =>
    if Number.fitsInt64 i then .integer i else .real (Double.ofInt i)
  | .number (.float x) => .real x
  | .string s => .text s
  | v => .text v.text

end Param

/-- The text of the placeholder with this number. -/
def placeholder (slot : Nat) : String := "?" ++ toString slot

/-- A piece of SQL with parameters of its own, numbered from one. -/
structure Fragment where
  sql : String := ""
  params : List Param := []

namespace Fragment

/-- Adds a parameter and returns its placeholder. -/
def push (fragment : Fragment) (param : Param) : Fragment × String :=
  ({ fragment with params := fragment.params ++ [param] }, placeholder (fragment.params.length + 1))

def isEmpty (fragment : Fragment) : Bool := fragment.sql.isEmpty

end Fragment

/-- The parameters bound so far in one statement, in the order of their placeholders. -/
structure Binder where
  params : List Param := []

namespace Binder

def size (binder : Binder) : Nat := binder.params.length

def isEmpty (binder : Binder) : Bool := binder.params.isEmpty

/-- Binds a parameter and returns the number of its placeholder. -/
def bind (binder : Binder) (param : Param) : Binder × Nat :=
  (⟨binder.params ++ [param]⟩, binder.params.length + 1)

end Binder

end RecordStore
