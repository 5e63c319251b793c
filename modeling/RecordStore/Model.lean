import RecordStore.Schema

/-!
# Models

A *model* is an object that can be stored: named values under a schema, with a flag on every
property that was edited since it was last written. The engine only asks of a model what the class
`Model` lists, so any type with these operations can be saved.
-/

namespace RecordStore

/-- What the engine asks of an object that it stores. -/
class Model (μ : Type) where
  /-- The schema of the stored properties. -/
  schema : μ → Schema
  get? : μ → String → Option Value
  /-- Sets a property, and flags it as edited when its value changes. -/
  set : String → Value → μ → Except StoreError μ
  isEdited : μ → Bool
  /-- The flagged properties, in the order of declaration. -/
  edits : μ → List String
  clearEdits : μ → μ
  /-- Replaces the flags. -/
  restoreEdits : List String → μ → μ
  /-- Whether the model may be written. -/
  validate : μ → Except StoreError Unit

namespace Model

variable {μ : Type} [Model μ]

/-- The primary key columns with their values, null where there is none. -/
def keyValues (m : μ) : List (String × Value) :=
  (schema m).keys.map fun key => (key, (get? m key).getD .null)

/-- Whether every column of a primary key has a value. -/
def hasKey (m : μ) : Bool :=
  !(keyValues m).isEmpty && (keyValues m).all fun kv => !kv.2.isNull

end Model

end RecordStore
