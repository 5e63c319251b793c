import RecordStore.Connection
import RecordStore.Record
import RecordStore.Search.Compiler
import RecordStore.Statement.Table

/-!
# Table stores

A table store reads and writes the rows of one table through one connection.

*Writing.* A model without a value for every column of its primary key is inserted: all declared
columns that have a value are written, null keys excepted, and a single generated key is put into
the model. Any other model is updated: its edited columns are written, keys excepted, to the row
with its key; nothing is sent when there are none, and a missing row is an error.

*Reading.* Rows are found by key, or by a compiled search whose rows are folded into entities,
counted, or handed to a callback one by one.

*Locks.* A body can run under a named lock, which is released whatever happens, or under an
exclusive lock of the table, where its work is committed if it succeeds and rolled back if not.
-/

namespace RecordStore

/-- Writes models of type `μ` through a connection. -/
structure ModelWriter (μ σ : Type) where
  connection : Connection σ
  write : Act (σ × μ) Unit

/-- The rows of one table, through one connection. -/
structure TableStore (σ : Type) where
  connection : Connection σ
  compiler : QueryCompiler

namespace TableStore

variable {σ τ μ α : Type}

def make (connection : Connection σ) (table : String) (schema : Schema) :
    Except StoreError (TableStore σ) := do
  return ⟨connection, ← QueryCompiler.make table schema⟩

def addFilter (t : TableStore σ) (f : JoinFilter) :
    Except StoreError (TableStore σ) := do
  return { t with compiler := ← t.compiler.addFilter f }

def withLimits (t : TableStore σ) (limits : SearchLimits) : TableStore σ :=
  { t with compiler := t.compiler.withLimits limits }

/-- The store in a world of which its own is a part. -/
def zoom (l : Lens τ σ) (t : TableStore σ) : TableStore τ :=
  { connection := t.connection.zoom l, compiler := t.compiler }

def table (t : TableStore σ) : String := t.compiler.table

def schema (t : TableStore σ) : Schema := t.compiler.schema

/-- The columns of the primary key, if there are as many values for them. -/
def keyColumns (t : TableStore σ) (key : List Value) : Except StoreError (List String) :=
  let columns := t.schema.keys
  if columns.length = key.length then columns.mapM Identifier.check
  else .error (.invalidOperand (", ".intercalate columns) "="
    s!"expected {columns.length} key value(s), got {key.length}")

/-! ### Reading -/

/-- The row with this key, whose values stand in the order of declaration. -/
def lookup (t : TableStore σ) (key : List Value) : Act σ (Option Row) := do
  let keys ← Act.ofExcept (t.keyColumns key)
  let rows ← t.connection.select (LookupStatement.mk t.table keys).sql (key.map .ofValue)
  return rows.head?

/-- The row with this value of a single key. -/
def lookupOne (t : TableStore σ) (id : Value) : Act σ (Option Row) := t.lookup [id]

/-- The row with this value of a single key; its absence is an error. -/
def fetch (t : TableStore σ) (id : Value) : Act σ Row := do
  match ← t.lookupOne id with
  | some row => return row
  | none => Act.fail (.notFound t.table id.plainText)

/-- The row with this value of a single key, as a record. -/
def fetchRecord (t : TableStore σ) (id : Value) : Act σ Record := do
  return Record.ofRow t.schema (← t.fetch id)

/-- The entities that a search finds. -/
def search (t : TableStore σ) (s : Search) : Act σ (List Row) := do
  let query ← Act.ofExcept (t.compiler.compile s)
  let rows ← t.connection.select query.statement.sql query.values
  return query.fold rows

/-- What is built from each entity that a search finds, up to the first failure. -/
def searchAs (t : TableStore σ) (s : Search) (build : Row → Act σ α) :
    Act σ (List α) := do
  (← t.search s).mapM build

/-- The entities that a search finds, as records. -/
def searchForRecords (t : TableStore σ) (s : Search) : Act σ (List Record) :=
  t.searchAs s fun row => return Record.ofRow t.schema row

/-- The number in the first row of a count, zero if there is none. -/
def totalOf : List Row → Nat
  | row :: _ =>
    match row.get? "total" with
    | some (.number (.int i)) => i.toNat
    | _ => 0
  | [] => 0

/-- How many entities a search finds. -/
def count (t : TableStore σ) (s : Search) : Act σ Nat := do
  let query ← Act.ofExcept (t.compiler.compileCount s)
  return totalOf (← t.connection.select query.statement.sql query.values)

/-- Hands every row of a search to a callback, all pages and unfolded, up to its first failure. -/
def stream (t : TableStore σ) (s : Search) (visit : Row → Act σ Unit) : Act σ Unit := do
  let query ← Act.ofExcept (t.compiler.compile s.unlimited)
  (← t.connection.select query.statement.sql query.values).forM visit

/-! ### Locks -/

/-- Runs a body under a named lock. A failed release is an error only if the body succeeded. -/
def underLock (t : TableStore σ) (name : String) (body : Act σ α) : Act σ α := do
  t.connection.takeLock name
  let result ← body.attempt
  let released ← (t.connection.freeLock name).attempt
  match result, released with
  | .ok a, .ok _ => return a
  | .ok _, .error e => Act.fail e
  | .error e, _ => Act.fail e

/-- Runs a body under an exclusive lock of the table. -/
def underTableLock (t : TableStore σ) (body : Act σ α) : Act σ α := do
  t.connection.lockTables [t.table]
  match ← body.attempt with
  | .ok a => do
    t.connection.unlockTables
    return a
  | .error e => do
    t.connection.rollback.bestEffort
    Act.fail e

/-! ### Writing -/

/-- Sets a property of the model beside the world. -/
def setProperty [Model μ] (name : String) (value : Value) : Act (σ × μ) Unit :=
  Act.make fun (s, m) =>
    match Model.set name value m with
    | .ok m' => (.ok (), s, m')
    | .error e => (.error e, s, m)

/-- The columns that an insert writes, with their values. -/
def insertFields [Model μ] (schema : Schema) (m : μ) : List (String × Value) :=
  schema.properties.filterMap fun p =>
    match Model.get? m p.name with
    | some v => if p.isKey && v.isNull then none else some (p.name, v)
    | none => none

/-- Inserts a model. -/
def insert [Model μ] (t : TableStore σ) : Act (σ × μ) Unit := do
  let m ← Act.read (·.2)
  let fields := insertFields t.schema m
  let columns ← Act.ofExcept (fields.mapM (Identifier.check ·.1))
  let _ ← (t.connection.execute (InsertStatement.mk t.table columns).sql
    (fields.map (.ofValue ·.2))).zoom .fst
  match t.schema.keys with
  | [key] =>
    if ((Model.get? m key).getD .null).isNull then
      let id ← t.connection.lastInsertId.zoom .fst
      setProperty key (.int id)
  | _ => pure ()

/-- The columns that an update writes: the edited ones outside the primary key. -/
def updateColumns [Model μ] (schema : Schema) (m : μ) : List String :=
  (Model.edits m).filter (!schema.isKey ·)

/-- Updates the row of a model. -/
def update [Model μ] (t : TableStore σ) : Act (σ × μ) Unit := do
  let m ← Act.read (·.2)
  let edited := updateColumns t.schema m
  if edited.isEmpty then return
  let assigned ← Act.ofExcept (edited.mapM Identifier.check)
  let key := (Model.keyValues m).map (·.2)
  let keys ← Act.ofExcept (t.keyColumns key)
  let values := edited.map fun name => (Model.get? m name).getD .null
  let affected ← (t.connection.execute (UpdateStatement.mk t.table assigned keys).sql
    ((values ++ key).map .ofValue)).zoom .fst
  if affected = 0 then
    Act.fail (.notFound t.table (",".intercalate (key.map (·.plainText))))

/-- Inserts or updates a model, depending on its key. -/
def write [Model μ] (t : TableStore σ) : Act (σ × μ) Unit := do
  let m ← Act.read (·.2)
  if Model.hasKey m then t.update else t.insert

/-- The store as a writer of models. -/
def modelWriter [Model μ] (t : TableStore σ) : ModelWriter μ σ := ⟨t.connection, t.write⟩

/-- The store in diagnostics. -/
def describe (t : TableStore σ) : String :=
  Describe.record "TableRepository" [
    ("connection", t.connection.id.describe), ("generator", t.compiler.describe)]

end TableStore

end RecordStore
