import RecordStore.Error
import RecordStore.Json.Reader

/-!
# Reading scenarios

A *scenario* is a JSON description of what is to be done with the library: a search to be compiled,
lines to be laid out on a stage, steps to be taken on them. The modules of this folder read
scenarios and report what came of them, again as JSON.

Reading a scenario may end its run before anything is done (`SetupError`): because it is not written
as scenarios are, because a stored form in it is refused, or because the library itself refuses a
part of it, such as a schema that declares a name twice.
-/

namespace RecordStore.Scenario

/-- Why a scenario cannot be set up. -/
inductive SetupError where
  /-- It is not written as scenarios are. -/
  | malformed (what : String)
  /-- A stored form cannot be read. -/
  | refusedForm
  /-- A stored list of properties is read, but is no schema. -/
  | refusedSchema (e : StoreError)
  /-- The library refuses a part of it. -/
  | refused (e : StoreError)

/-- What is read from a scenario. -/
abbrev Setup (α : Type) := Except SetupError α

variable {α β : Type}

def malformed (what : String) : Setup α := .error (.malformed what)

/-- What has to be there. -/
def expect (what : String) : Option α → Setup α
  | some a => .ok a
  | none => malformed what

/-- What the library may refuse. -/
def accept : Except StoreError α → Setup α
  | .ok a => .ok a
  | .error e => .error (.refused e)

/-- A stored form in a scenario. -/
def stored (read : Reader α) (v : Value) : Setup α :=
  match read v with
  | some a => .ok a
  | none => .error .refusedForm

/-- The refusal of a part as the answer of that part alone. What is not written as scenarios are
    still ends the scenario. -/
def settle : Setup α → Setup (Except SetupError α)
  | .ok a => .ok (.ok a)
  | .error (.malformed what) => malformed what
  | .error e => .ok (.error e)

def readText (v : Value) : Setup String := expect "text" (Reader.text v)

def readNat (v : Value) : Setup Nat := expect "number" (Reader.nat64 v)

def readInt (v : Value) : Setup Int := expect "integer" (Reader.int64 v)

def readFlag (v : Value) : Setup Bool := expect "flag" (Reader.flag v)

def readItems : Value → Setup (List Value)
  | .array items => .ok items
  | _ => malformed "list"

def readRow : Value → Setup Row
  | .object row => .ok row
  | _ => malformed "row"

def readList (item : Value → Setup α) (v : Value) : Setup (List α) := do
  (← readItems v).mapM item

def readTexts : Value → Setup (List String) := readList readText

def readRows : Value → Setup (List Row) := readList readRow

/-- A field that has to be there. -/
def field (v : Value) (name : String) : Setup Value := expect name (v.field? name)

/-- A field that is there and not null. -/
def given? (v : Value) (name : String) : Option Value :=
  (v.field? name).filter (!·.isNull)

/-- A field with a default. -/
def fieldOr (v : Value) (name : String) (default : α) (read : Value → Setup α) : Setup α :=
  match given? v name with
  | some x => read x
  | none => .ok default

/-- A field that may be left out. -/
def optionalField (v : Value) (name : String) (read : Value → Setup α) : Setup (Option α) :=
  fieldOr v name none fun x => some <$> read x

def textField (v : Value) (name : String) : Setup String := do readText (← field v name)

/-- A field with a list, which is empty if it is left out. -/
def listField (v : Value) (name : String) (item : Value → Setup α) : Setup (List α) :=
  fieldOr v name [] (readList item)

/-- An item that has to be there. -/
def item (items : List Value) (i : Nat) : Setup Value := expect "item" items[i]?

def textItem (items : List Value) (i : Nat) : Setup String := do readText (← item items i)

def natItem (items : List Value) (i : Nat) : Setup Nat := do readNat (← item items i)

/-- An item that is there and not null. -/
def itemGiven? (items : List Value) (i : Nat) : Option Value :=
  items[i]?.filter (!·.isNull)

/-- An item that may be left out. -/
def optionalItem (items : List Value) (i : Nat) (read : Value → Setup α) : Setup (Option α) :=
  match itemGiven? items i with
  | some v => some <$> read v
  | none => .ok none

/-- A step: its name and what stands behind the name. -/
def readStepHead (v : Value) : Setup (String × List Value) := do
  match ← readItems v with
  | name :: args => return (← readText name, args)
  | [] => malformed "step"

mutual

/-- How deep a value is nested. -/
def height : Value → Nat
  | .array items => itemsHeight items + 1
  | .object fields => fieldsHeight fields + 1
  | _ => 1

/-- How deep the deepest of some items is nested. -/
def itemsHeight : List Value → Nat
  | [] => 0
  | v :: rest => max (height v) (itemsHeight rest)

/-- How deep the deepest of some fields is nested. -/
def fieldsHeight : List (String × Value) → Nat
  | [] => 0
  | (_, v) :: rest => max (height v) (fieldsHeight rest)

end

/-- Reads a value that may contain others of its kind, with a budget of levels for which the height
    of the value is enough. -/
def readNested (read : Nat → Value → Setup α) (v : Value) : Setup α := read (height v + 1) v

end RecordStore.Scenario
