import RecordStore.Act
import RecordStore.Schema
import RecordStore.Search.Statement

/-!
# Join filters

An attribute `name.sub` belongs to the join filter called `name`, which says what column
it stands for:

* an *embedded* filter reads columns `stem_sub` of the searched table itself;
* a *foreign* filter reads another table, which it joins once per statement under the alias
  `j_name`. A discriminator restricts the joined rows to those with a given value in one column,
  so that several filters can share a table of attribute rows;
* a *custom* filter is any other rule.

Filters are shared between statements. What belongs to one statement — its joins and its bound
values — is its `Compilation`. The value of a discriminator is bound when its join is emitted,
after the names of the join have passed the guard.
-/

namespace RecordStore

/-- A statement in the making. -/
structure Compilation where
  /-- The alias of the searched table. -/
  tableAlias : String
  binder : Binder := {}
  /-- The joins emitted so far, with the names of their filters. -/
  joins : List (String × Join) := []
  deriving Inhabited

namespace Compilation

/-- Binds a value and returns the number of its placeholder. -/
def bind (param : Param) : Act Compilation Nat :=
  Act.make fun ctx =>
    let (binder, slot) := ctx.binder.bind param
    (.ok slot, { ctx with binder })

/-- Whether the join of this name was emitted. -/
def isJoined (ctx : Compilation) (name : String) : Bool := ctx.joins.any (·.1 = name)

/-- Emits a join; the first one of a name stays. -/
def addClause (name : String) (join : Join) : Act Compilation Unit :=
  Act.change fun ctx =>
    if ctx.isJoined name then ctx else { ctx with joins := ctx.joins ++ [(name, join)] }

def hasClauses (ctx : Compilation) : Bool := !ctx.joins.isEmpty

end Compilation

/-- A model kept in columns of the searched table whose names begin with a stem. -/
structure EmbeddedFilter where
  name : String
  stem : String
  schema : Schema
  deriving Inhabited

namespace EmbeddedFilter

/-- The filter that reads `stem_sub` for every property `sub`. -/
def make (name stem : String) (schema : Schema) : Except StoreError EmbeddedFilter := do
  let name ← Identifier.check name
  let stem ← Identifier.check stem
  return ⟨name, stem, schema⟩

/-- The properties that the entity embeds under `stem`, without it. -/
def embeddedNames (entity : Schema) (stem : String) : List String :=
  let lead := stem.toList ++ ['_']
  (entity.properties.filter (·.embeddedIn = some stem)).filterMap fun p =>
    if lead.isPrefixOf p.name.toList then
      some (String.ofList (p.name.toList.drop lead.length))
    else none

/-- The filter for the columns that the entity embeds under `stem`. -/
def ofEntity (entity : Schema) (stem : String) : Except StoreError EmbeddedFilter := do
  let schema ← Schema.ofList ((embeddedNames entity stem).map fun sub => { name := sub })
  make stem stem schema

/-- The column of a property; the bare name stands for none. -/
def column (f : EmbeddedFilter) : Option String → Act Compilation Expr
  | none => Act.fail (.unknownAttribute f.name ("embedded " ++ f.stem))
  | some sub => do
    let _ ← Act.ofExcept (Identifier.check sub)
    if f.schema.contains sub then
      let tableAlias ← Act.read (·.tableAlias)
      Act.ofExcept (Expr.ofNames tableAlias (f.stem ++ "_" ++ sub))
    else Act.fail (.unknownAttribute (f.name ++ "." ++ sub) f.stem)

end EmbeddedFilter

/-- A model kept in another table. -/
structure ForeignFilter where
  name : String
  table : String
  /-- The column of the searched table that the join compares. -/
  entityId : String
  /-- The column of the other table that it is compared with. -/
  targetId : String
  schema : Schema
  /-- A column of the other table and the value it must have. -/
  discriminator : Option (String × Value) := none
  /-- Rows without a counterpart are kept. -/
  isOptional : Bool := false
  deriving Inhabited

namespace ForeignFilter

/-- A filter that requires a joined row. -/
def make (name table entityId targetId : String) (schema : Schema) :
    Except StoreError ForeignFilter := do
  let name ← Identifier.check name
  let table ← Identifier.check table
  let entityId ← Identifier.check entityId
  let targetId ← Identifier.check targetId
  return { name, table, entityId, targetId, schema }

/-- Joins only rows that have `value` in `column`. -/
def discriminatedBy (f : ForeignFilter) (column : String) (value : Value) :
    Except StoreError ForeignFilter := do
  let column ← Identifier.check column
  return { f with discriminator := some (column, value) }

/-- Keeps rows without a counterpart. -/
def optional (f : ForeignFilter) : ForeignFilter := { f with isOptional := true }

/-- The alias of the joined table. -/
def joinAlias (f : ForeignFilter) : String := "j_" ++ f.name

/-- Emits the join, unless it was emitted before. -/
def ensureJoined (f : ForeignFilter) : Act Compilation Unit := do
  let ctx ← Act.read id
  if ctx.isJoined f.name then return
  let target ← Act.ofExcept (Expr.ofNames f.joinAlias f.targetId)
  let entity ← Act.ofExcept (Expr.ofNames ctx.tableAlias f.entityId)
  let discriminator ← match f.discriminator with
    | none => pure none
    | some (column, value) => do
      let slot ← Compilation.bind (.ofValue value)
      let column ← Act.ofExcept (Expr.ofNames f.joinAlias column)
      pure (some (column, slot))
  Compilation.addClause f.name <| .table {
    isOptional := f.isOptional
    table := f.table
    tableAlias := f.joinAlias
    target, entity, discriminator }

/-- The column of a property; the bare name stands for the joined column itself. -/
def column (f : ForeignFilter) (sub : Option String) : Act Compilation Expr := do
  let column ← match sub with
    | none => pure f.targetId
    | some sub => do
      let _ ← Act.ofExcept (Identifier.check sub)
      if f.schema.contains sub then pure sub
      else Act.fail (.unknownAttribute (f.name ++ "." ++ sub) f.table)
  f.ensureJoined
  Act.ofExcept (Expr.ofNames f.joinAlias column)

end ForeignFilter

/-- A rule for the attributes of one name. -/
inductive JoinFilter where
  | embedded (f : EmbeddedFilter)
  | foreign (f : ForeignFilter)
  | custom (name : String) (isForeign : Bool) (schema : Schema)
      (column : Option String → Act Compilation Expr)

namespace JoinFilter

/-- The name that attributes begin with. -/
def name : JoinFilter → String
  | embedded f => f.name
  | foreign f => f.name
  | custom name .. => name

/-- Whether the filter reads another table. -/
def isForeign : JoinFilter → Bool
  | embedded _ => false
  | foreign _ => true
  | custom _ isForeign .. => isForeign

/-- The properties that stand behind the dot. -/
def schema : JoinFilter → Schema
  | embedded f => f.schema
  | foreign f => f.schema
  | custom _ _ schema _ => schema

/-- The column for a property, or for the bare name. -/
def column : JoinFilter → Option String → Act Compilation Expr
  | embedded f => f.column
  | foreign f => f.column
  | custom _ _ _ column => column

end JoinFilter

end RecordStore
