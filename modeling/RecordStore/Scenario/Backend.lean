import RecordStore.Backend.Basic
import RecordStore.Scenario.TableStore
import RecordStore.Simulation.Driver

/-!
# Backends in scenarios

A scenario opens a backend with the simulated driver, in memory or on a file of a directory that is
empty before, and hands out connections under names of its own. A name that is used again stands for
the new connection; the old one is dropped.

Identities are shown as the names of their connections.
-/

namespace RecordStore.Scenario

open Backend Simulation

/-- A backend of a scenario. -/
abbrev Simulated := Backend Simulation.driver

/-- A connection of a scenario. -/
structure Named where
  name : String
  id : ConnectionId
  /-- Whether it is known only as a connection of any kind. -/
  isShared : Bool

/-- A backend, and the connections that are open. -/
structure Desk where
  backend : Simulated
  named : List Named := []

namespace Desk

/-- The backend, as a part of the desk. -/
def backendLens : Lens Desk Simulated where
  get := backend
  set backend desk := { desk with backend }

def find? (desk : Desk) (name : String) : Option Named := desk.named.find? (·.name = name)

/-- Shows identities as the names of their connections. -/
def withNames (desk : Desk) (s : String) : String :=
  desk.named.foldl (fun s c => s.replace c.id.text c.name) s

/-- Shows identities in an error as the names of their connections. -/
def nameError (desk : Desk) : StoreError → StoreError
  | .internal backend reason => .internal backend (desk.withNames reason)
  | e => e

/-- Whether each connection has a transaction open. -/
def openStates (desk : Desk) : Value :=
  .ofFields (desk.named.map fun c => (c.name, .bool (desk.backend.inTransaction c.id)))

/-- Acts with a connection. -/
def withNamed {α : Type} (name : String) (f : Named → Act Desk α) : Act Desk α :=
  Act.make fun desk =>
    match desk.find? name with
    | some c =>
      let (r, after) := (f c).perform desk
      (r.mapError desk.nameError, after)
    | none => (.error (failure s!"no connection {name}"), desk)

/-- Acts with a connection on the backend. -/
def on {α : Type} (name : String) (f : Connection Simulated → Act Simulated α) : Act Desk α :=
  withNamed name fun c => (f (Backend.connection c.id)).zoom backendLens

/-- Drops a connection. -/
def drop (name : String) : Act Desk Unit :=
  withNamed name fun c => do
    (Backend.drop c.id).zoom backendLens
    Act.change fun desk => { desk with named := desk.named.filter (·.name ≠ name) }

/-- Hands out a connection under a name. -/
def openAs (name : String) (isShared : Bool) : Act Desk Unit := do
  let id ← Backend.checkout.zoom backendLens
  if ← Act.read fun desk => (desk.find? name).isSome then drop name
  Act.change fun desk => { desk with named := ⟨name, id, isShared⟩ :: desk.named }

/-- Drops all connections and opens the backend again. -/
def reopen (desk : Desk) : Desk :=
  let b := desk.backend
  { backend := {
      config := b.config
      inMemory := b.inMemory
      pool := []
      world := b.world.reopen
      issued := b.issued } }

/-- The diagnostic text of a connection. -/
def describe (c : Named) (b : Simulated) : String :=
  if c.isShared then (Backend.connection c.id).describe b else describeConnection c.id

end Desk

/-- Runs a statement. -/
def execute (s : Statement) (params : List Param) (c : Connection Simulated) : Act Simulated Value :=
  Value.nat <$> c.execute s.sql params

/-- Runs a query. -/
def select (s : Statement) (params : List Param) (c : Connection Simulated) : Act Simulated Value :=
  reportRows <$> c.select s.sql params

/-- Inserts a note, and tells the key it got. -/
def insertNote (params : List Param) (c : Connection Simulated) : Act Simulated Value := do
  let count ← c.execute Statement.insertNote.sql params
  return .array [.nat count, .int (← c.lastInsertId)]

/-- Copies the bodies of the notes into the audits, one by one while they are read, up to the
    trap. -/
def copyNotes (trap : Trap) (c : Connection Simulated) : Act Simulated Unit :=
  selecting c.id Statement.noteBodies.sql [] fun rows =>
    rows.zipIdx.forM fun (row, copied) => do
      trap.spring copied
      let _ ← c.execute Statement.insertAudit.sql [.ofValue (row.getOrNull "body")]

/-- A connection asks for a lock that another one holds, which then gives it back or is dropped. The
    report tells whether it had the lock before that, and how both ended. -/
def waitForLock (asking lock holding : String) (isDrop : Bool) : Turn Desk := fun desk =>
  match desk.find? asking with
  | none => (reportError (failure s!"no connection {asking}"), desk)
  | some c =>
    let request : LockRequest := ⟨0, lock, c.id⟩
    let (room, early) := desk.backend.locks.look request
    let desk := { desk with backend := { desk.backend with locks := room } }
    let (released, desk) :=
      (if isDrop then Desk.drop holding else Desk.on holding (·.freeLock lock)).perform desk
    let room := desk.backend.locks
    let (room, late) := if request ∈ room.awake then room.lookAgain request else (room, false)
    let desk := { desk with backend := { desk.backend with locks := room } }
    let acquired := if early || late then .ok () else .error (wouldWait lock)
    ([("ok", .null), ("early", .bool early), ("released", outcome released),
      ("acquired", outcome acquired)], desk)

/-- Reads parameters. -/
def readParams (v : Value) : Setup (List Param) := readList (fun v => return .ofValue v) v

/-- Reads a step of a connection. -/
def readConnectionStep (step name : String) (args : List Value) : Setup (Turn Desk) := do
  let value (f : Connection Simulated → Act Simulated Value) : Turn Desk := .ofAct (Desk.on name f)
  let quiet (f : Connection Simulated → Act Simulated Unit) : Turn Desk := .ofQuiet (Desk.on name f)
  match step with
  | "open" => return .ofQuiet (Desk.openAs name false)
  | "open_shared" => return .ofQuiet (Desk.openAs name true)
  | "drop" => return .ofQuiet (Desk.drop name)
  | "debug" =>
    return .ofAct (Desk.withNamed name fun c =>
      Act.read fun desk => .string (desk.withNames (Desk.describe c desk.backend)))
  | "begin" => return quiet (·.begin)
  | "commit" => return quiet (·.commit)
  | "rollback" => return quiet (·.rollback)
  | "lock_tables" => do
    let tables ← readTexts (← item args 0)
    return quiet (·.lockTables tables)
  | "unlock_tables" => return quiet (·.unlockTables)
  | "acquire" => do
    let lock ← textItem args 0
    return quiet (·.takeLock lock)
  | "release" => do
    let lock ← textItem args 0
    return quiet (·.freeLock lock)
  | "wait" =>
    return waitForLock name (← textItem args 0) (← textItem args 1) ((← textItem args 2) = "drop")
  | "echo" => do
    let params ← readParams (← item args 0)
    return value (select (.echo params.length) params)
  | "bytes" => do
    let hex ← textItem args 0
    return value (select (.bytes hex) [])
  | "infinite" => return value (select .infinities [])
  | "insert" => return value (insertNote (← readParams (← item args 0)))
  | "insert_id" => return value (execute .insertNoteAs (← readParams (← item args 0)))
  | "delete" => return value (execute .deleteNotes (← readParams (← item args 0)))
  | "batch" => return quiet fun c => executeBatch c.id Simulation.insertBatch
  | "notes" => return value (select .notes [])
  | "audits" => return value (select .audits [])
  | "kids" => return value (select .kids [])
  | "copy" => return quiet (copyNotes (← readTrap args 0))
  | "kid" => return value (execute .insertKid (← readParams (← item args 0)))
  | "missing" => return value (execute .deleteMissing [])
  | "missing_rows" => return value (select .selectMissing [])
  | other => malformed other

/-- Reads a step. -/
def readBackendStep (v : Value) : Setup (Turn Desk) := do
  let (step, args) ← readStepHead v
  match step with
  | "reopen" => return .ofQuiet (Act.change Desk.reopen)
  | "debug_backend" => return .ofAct (Act.read fun desk => .string desk.backend.describe)
  | step => readConnectionStep step (← textItem args 0) (args.drop 1)

/-- The most bytes that a name in a directory can have. -/
def nameLimit : Nat := 255

/-- The most bytes that a path can have beyond the directory that it starts from. -/
def pathLimit : Nat := 490

/-- Where a path leads from a directory: the names on the way, the last one first, with steps up
    taken back. Nothing if it is too long somewhere. -/
def walk (names : List String) : List String → Option (List String)
  | [] => some names
  | part :: rest =>
    if part = "" || part = "." then walk names rest
    else if part = ".." then walk (names.drop 1) rest
    else
      let names := part :: names
      if nameLimit < part.utf8ByteSize || pathLimit < (names.map (·.utf8ByteSize + 1)).sum then none
      else walk names rest

/-- The file of the directory itself that a path names, if it names one. -/
def fileHere? (path : String) : Option String :=
  if path.contains '\x00' then none
  else
    match walk [] (path.splitOn "/") with
    | some [name] => some name
    | _ => none

/-- Whether the database can keep a second file beside this one, whose name is longer by eight
    bytes. -/
def hasRoomBeside (name : String) : Bool := name.utf8ByteSize + 8 ≤ nameLimit

/-- Whether a connection to a database file can be made. -/
def canConnect (config : Config) (path : String) : Bool :=
  (fileHere? path).any fun name => !config.writeAhead || hasRoomBeside name

/-- Why a new backend cannot be used, if it cannot: no connection can be made to begin with, or to
    make the tables, or they cannot be made. -/
def openingFault? (config : Config) (file : Option String) : Option Report :=
  if !(config.isUsable && file.all (canConnect config)) then
    if file.isSome && config.minConnections = 0 then
      some (reportError (.poolExhausted backendName))
    else
      some [("error", .string (StoreError.connectionFailed "" "").name),
        ("backend", .string backendName)]
  else if !(file.bind fileHere?).all hasRoomBeside then
    some (reportError (failure "unable to open database file"))
  else none

/-- Plays a scenario with a backend. -/
def playBackend (v : Value) : Setup Value := do
  let config ← fieldOr v "config" {} (stored Config.ofStored)
  let file ← optionalField v "file" readText
  if let some report := openingFault? config file then return .ofFields report
  let desk : Desk := { backend := .ofConfig Simulation.driver config file.isNone }
  let turns ← listField v "steps" readBackendStep
  let frame (report : Report) (_ after : Desk) : Value :=
    .ofFields [("result", .ofFields report), ("open", after.openStates)]
  return success (.ofFields [("memory", .bool desk.backend.inMemory),
    ("config", config.toStored), ("steps", .array (Turn.playAll frame turns desk).1)])

end RecordStore.Scenario
