import RecordStore.Model

/-!
# Records

A record is a model whose schema is given when it is made. Its values are JSON. Setting a property
flags it as edited when the new value differs from the present one; an absent value differs from
null. Columns of a loaded row that the schema does not declare are kept and can be read, but are
neither set nor written.
-/

namespace RecordStore

/-- A model with a schema known at run time. -/
structure Record where
  schema : Schema
  values : Row := []
  /-- The names flagged as edited, in no particular order. -/
  edited : List String := []
  deriving Inhabited

namespace Record

/-- A loaded row without edits. -/
def ofRow (schema : Schema) (row : Row) : Record := ⟨schema, row, []⟩

/-- Sets a declared property; a property that has the value already is left alone. -/
def set (name : String) (value : Value) (r : Record) : Except StoreError Record :=
  if !r.schema.contains name then .error (.unknownProperty name)
  else if (r.values.get? name).any (· == value) then .ok r
  else .ok { r with values := r.values.insert name value, edited := r.edited.insert name }

/-- Sets properties in order, up to the first that is refused. -/
def setAll (fields : List (String × Value)) (r : Record) : Except StoreError Record :=
  fields.foldlM (fun r field => r.set field.1 field.2) r

def edits (r : Record) : List String :=
  r.schema.columns.filter (r.edited.contains ·)

/-- The first required property without a value, in the order of declaration, is an error. -/
def validate (r : Record) : Except StoreError Unit :=
  let missing := r.schema.properties.find? fun p =>
    p.isRequired && (r.values.getOrNull p.name).isNull
  match missing with
  | some p => .error (.missingRequiredProperty p.name)
  | none => .ok ()

/-- Flags exactly the declared ones of these names. -/
def restoreEdits (names : List String) (r : Record) : Record :=
  { r with edited := names.filter (r.schema.contains ·) }

instance : Model Record where
  schema := schema
  get? r name := r.values.get? name
  set := set
  isEdited r := !r.edited.isEmpty
  edits := edits
  clearEdits r := { r with edited := [] }
  restoreEdits := restoreEdits
  validate := validate

end Record

end RecordStore
