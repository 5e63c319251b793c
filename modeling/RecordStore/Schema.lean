import RecordStore.Json.Reader
import RecordStore.Statement.Identifier

/-!
# Schemas

The *schema* of a table or a model is the list of its properties, the definitions of its columns, in
the order of their declaration. Every name passes the identifier guard and occurs once. A model that
is stored inside another one's table contributes columns named `stem_name`; they keep their
`isRequired` flag and are never part of the primary key.

A schema is stored as the list of its definitions. Reading one back runs the same checks as building
it, after the list itself has been read.
-/

namespace RecordStore

/-- The definition of one column. -/
structure Property where
  name : String
  isKey : Bool := false
  isRequired : Bool := false
  /-- The stem under which the column was embedded. -/
  embeddedIn : Option String := none
  deriving DecidableEq, Inhabited

namespace Property

/-- The definition as the column of a model embedded under `stem`. -/
def embedded (stem : String) (p : Property) : Property where
  name := stem ++ "_" ++ p.name
  isRequired := p.isRequired
  embeddedIn := some stem

end Property

/-- The columns of a table or model, in the order of their declaration. -/
structure Schema where
  properties : List Property := []
  deriving DecidableEq, Inhabited

namespace Schema

/-- The definition of a column. -/
def find? (schema : Schema) (name : String) : Option Property :=
  schema.properties.find? (·.name = name)

def contains (schema : Schema) (name : String) : Bool := (schema.find? name).isSome

/-- Adds a column whose name is an identifier and new. -/
def push (schema : Schema) (p : Property) : Except StoreError Schema := do
  let _ ← Identifier.check p.name
  if schema.contains p.name then .error (.duplicateProperty p.name)
  else .ok ⟨schema.properties ++ [p]⟩

/-- Adds columns one by one. -/
def pushAll (schema : Schema) (ps : List Property) : Except StoreError Schema :=
  ps.foldlM push schema

/-- The schema with these columns. -/
def ofList (ps : List Property) : Except StoreError Schema := pushAll {} ps

/-- Adds the columns of a model embedded under `stem`. -/
def embed (schema : Schema) (stem : String) (ps : List Property) :
    Except StoreError Schema := do
  let stem ← Identifier.check stem
  schema.pushAll (ps.map (·.embedded stem))

def columns (schema : Schema) : List String := schema.properties.map (·.name)

theorem contains_iff {schema : Schema} {name : String} :
    schema.contains name = true ↔ name ∈ schema.columns := by
  simp [contains, find?, columns, List.find?_isSome]

def size (schema : Schema) : Nat := schema.properties.length

/-- The primary key, in the order of declaration. -/
def keys (schema : Schema) : List String :=
  (schema.properties.filter (·.isKey)).map (·.name)

def isKey (schema : Schema) (name : String) : Bool :=
  (schema.find? name).any (·.isKey)

def isEmbedded (schema : Schema) (name : String) : Bool :=
  (schema.find? name).any (·.embeddedIn.isSome)

/-- The column names in brackets. -/
def text (schema : Schema) : String := "[" ++ ", ".intercalate schema.columns ++ "]"

end Schema

/-! ### Stored form -/

namespace Property

def toStored (p : Property) : Value :=
  .ofFields <|
    [("name", .string p.name), ("primary_key", .bool p.isKey),
      ("required", .bool p.isRequired)]
    ++ (p.embeddedIn.map fun stem => ("embedded_in", Value.string stem)).toList

def ofStored : Reader Property := fun v => do
  let f ← Reader.fields ["name", "primary_key", "required", "embedded_in"] v
  return {
    name := ← f.required "name" .text
    isKey := ← f.withDefault "primary_key" false .flag
    isRequired := ← f.withDefault "required" false .flag
    embeddedIn := ← f.withDefault "embedded_in" none (.nullable .text) }

end Property

namespace Schema

def toStored (schema : Schema) : Value := .array (schema.properties.map (·.toStored))

/-- Reads the list of definitions; whether they form a schema is checked by `ofList`. -/
def ofStored : Reader (List Property) := .listOf Property.ofStored

end Schema

end RecordStore
