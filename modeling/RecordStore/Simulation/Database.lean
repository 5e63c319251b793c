import RecordStore.Simulation.Key

/-!
# The simulated database

Three tables: notes under integer keys, audits, and kids that may refer to a note. References are
checked when a transaction ends, so they may be broken inside one.

Only one transaction is open at a time. It begins by taking the right to write, so a second one
cannot begin, and nobody else can write, until it ends. The connection that has it open sees its own
work; the others see what was committed last, as far as they can read at all:

* in memory, a table in which the open transaction has written cannot be read, and with exclusive
  access nothing can, nor can any statement be prepared;
* in a file, everything can be read unless the transaction has exclusive access and there is no log
  of changes beside the file. Without it, even what the tables are can be read no more.

A single statement outside a transaction is a transaction of its own.
-/

namespace RecordStore.Simulation

inductive Table where
  | note
  | audit
  | kid
  deriving DecidableEq, Repr

def Table.name : Table → String
  | note => "note"
  | audit => "audit"
  | kid => "kid"

structure Note where
  id : Int
  body : Param
  deriving DecidableEq, Inhabited

/-- The rows of the tables: notes in the order of their keys, the others as they were inserted. -/
structure Tables where
  notes : List Note := []
  audits : List Param := []
  /-- What each kid refers to. -/
  kids : List Param := []
  deriving DecidableEq, Inhabited

/-- What a statement did, with its effect; or the database's message. -/
abbrev Effect (α : Type) := Tables → Except String (α × Tables)

namespace Tables

/-- Inserts a note where its key belongs. -/
def placeNote (n : Note) : List Note → List Note
  | [] => [n]
  | m :: rest => if n.id < m.id then n :: m :: rest else m :: placeNote n rest

/-- The key of a note that is inserted without one: the largest plus one, or one in an empty table.
    Above the largest possible key, the smallest unused positive one is taken. -/
def freeId (notes : List Note) : Int :=
  match notes.getLast? with
  | none => 1
  | some last =>
    if last.id < 0x7FFFFFFFFFFFFFFF then last.id + 1
    else
      let candidates := (List.range (notes.length + 1)).map fun (n : Nat) => (n : Int) + 1
      (candidates.find? fun i => !notes.any (·.id = i)).getD 1

/-- Inserts a note under a key of its own, which is the result. -/
def insertNote (body : Param) : Effect Int := fun t =>
  let id := freeId t.notes
  .ok (id, { t with notes := placeNote ⟨id, body⟩ t.notes })

/-- Inserts a note under a given key; with null it gets one of its own. -/
def insertNoteAs (id body : Param) : Effect Int := fun t =>
  match id with
  | .null => insertNote body t
  | id =>
    match key? id with
    | none => .error "datatype mismatch"
    | some id =>
      if t.notes.any (·.id = id) then .error "UNIQUE constraint failed: note.id"
      else .ok (id, { t with notes := placeNote ⟨id, body⟩ t.notes })

/-- Deletes the notes from a key on, and counts them. -/
def deleteNotes (least : Param) : Effect Nat := fun t =>
  let (gone, kept) := t.notes.partition fun n => reaches n.id least
  .ok (gone.length, { t with notes := kept })

def insertAudit (body : Param) : Effect Unit := fun t =>
  .ok ((), { t with audits := t.audits ++ [body] })

def insertKid (noteId : Param) : Effect Unit := fun t =>
  .ok ((), { t with kids := t.kids ++ [noteId] })

/-- Whether a reference is broken: it is not null and there is no such note. -/
def isBroken (t : Tables) (reference : Param) : Bool :=
  reference ≠ .null && !(key? reference).any fun id => t.notes.any (·.id = id)

/-- Whether no reference is broken. -/
def isSound (t : Tables) : Bool := t.kids.all (!t.isBroken ·)

end Tables

/-- An open transaction. -/
structure Writer where
  tables : Tables
  /-- Whether it began with exclusive access. -/
  isExclusive : Bool
  /-- The tables in which it has written. -/
  written : List Table := []

/-- A database: where it is kept, what was committed, and the open transaction. In what follows,
    `isOwn` says whether that is the transaction of the connection in question. -/
structure Database where
  inMemory : Bool
  /-- Whether a log of changes is kept beside the file. -/
  writeAhead : Bool
  committed : Tables := {}
  writer : Option Writer := none

namespace Database

/-- The message for those who want to write while another connection has a transaction open. -/
def lockedMessage (db : Database) : String :=
  if db.inMemory then "database table is locked" else "database is locked"

/-- The message for references that are broken where they must not be. -/
def brokenMessage : String := "FOREIGN KEY constraint failed"

/-- Begins a transaction. -/
def begin (db : Database) (isOwn isExclusive : Bool) : Except String Database :=
  if isOwn then .error "cannot start a transaction within a transaction"
  else
    match db.writer with
    | none => .ok { db with writer := some { tables := db.committed, isExclusive } }
    | some _ => .error db.lockedMessage

/-- Ends a transaction and keeps its work. While references are broken the transaction stays
    open. -/
def commit (db : Database) (isOwn : Bool) : Except String Database :=
  match isOwn, db.writer with
  | true, some w =>
    if w.tables.isSound then .ok { db with committed := w.tables, writer := none }
    else .error brokenMessage
  | _, _ => .error "cannot commit - no transaction is active"

/-- Ends a transaction and discards its work. -/
def rollback (db : Database) (isOwn : Bool) : Except String Database :=
  if isOwn then .ok { db with writer := none }
  else .error "cannot rollback - no transaction is active"

/-- Whether another connection has exclusive access. -/
def isShutOut (db : Database) (isOwn : Bool) : Bool := !isOwn && db.writer.any (·.isExclusive)

/-- Why a connection cannot prepare anything, if it cannot: in memory, while another one has
    exclusive access. -/
def prepareBlock (db : Database) (isOwn : Bool) : Option String :=
  if db.inMemory && db.isShutOut isOwn then some "database schema is locked: main" else none

/-- Why a connection cannot read what the tables are, if it cannot: in a file without a log of
    changes, while another one has exclusive access. -/
def schemaBlock (db : Database) (isOwn : Bool) : Option String :=
  if !db.inMemory && !db.writeAhead && db.isShutOut isOwn then some db.lockedMessage else none

/-- Why a connection cannot read a table next to another one's transaction, if it cannot. -/
def readBlock (db : Database) (w : Writer) (table : Table) : Option String :=
  if db.inMemory then
    if w.isExclusive then some db.lockedMessage
    else if w.written.contains table then some s!"database table is locked: {table.name}"
    else none
  else if w.isExclusive && !db.writeAhead then some db.lockedMessage
  else none

/-- What a connection sees of a table. -/
def read (db : Database) (isOwn : Bool) (table : Table) : Except String Tables :=
  match db.writer with
  | none => .ok db.committed
  | some w =>
    if isOwn then .ok w.tables
    else
      match db.readBlock w table with
      | some message => .error message
      | none => .ok db.committed

/-- Runs a statement that writes in a table. One that fails changes no rows. -/
def write {α : Type} (db : Database) (isOwn : Bool) (table : Table) (effect : Effect α) :
    Except String α × Database :=
  match db.writer with
  | some w =>
    if !isOwn then (.error db.lockedMessage, db)
    else
      let w := { w with written := w.written.insert table }
      match effect w.tables with
      | .ok (a, tables) => (.ok a, { db with writer := some { w with tables } })
      | .error message => (.error message, { db with writer := some w })
  | none =>
    match effect db.committed with
    | .ok (a, tables) =>
      if tables.isSound then (.ok a, { db with committed := tables })
      else (.error brokenMessage, db)
    | .error message => (.error message, db)

/-- The database after all connections are closed and it is opened again: open work is lost, and all
    is lost in memory. -/
def reopen (db : Database) : Database :=
  { db with committed := if db.inMemory then {} else db.committed, writer := none }

end Database

end RecordStore.Simulation
