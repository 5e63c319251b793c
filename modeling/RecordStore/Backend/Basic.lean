import RecordStore.Backend.Driver
import RecordStore.Backend.LockRoom

/-!
# The backend and its connections

A backend hands out connections to one database. Each time one is handed out it gets a new identity.
While all are in use, no further one can be had.

A connection that is dropped rolls back what it has open, gives back its named locks, and returns to
those that can be handed out.

`Backend.connection` is what table stores and transactions work with. Locking tables is an exclusive
transaction on the whole database, and unlocking them its commit.
-/

namespace RecordStore

open Backend

/-- A connection that is handed out, with the identity under which it is. -/
structure Checkout (d : Driver) where
  id : ConnectionId
  conn : d.Conn

/-- A backend that works with a driver: its connections and its named locks. -/
structure Backend (d : Driver) where
  config : Config
  inMemory : Bool
  /-- The connections that are not handed out. -/
  pool : d.Pool
  world : d.World
  locks : LockRoom := {}
  /-- Those that are. -/
  handedOut : List (Checkout d) := []
  /-- All identities that were given. -/
  issued : List ConnectionId := []

namespace Backend

variable {d : Driver} {α : Type}

/-- How the database is named in errors. -/
def backendName : String := "sqlite"

/-- A new backend. -/
def ofConfig (d : Driver) (config : Config) (inMemory : Bool) : Backend d :=
  let (pool, world) := d.start config inMemory
  { config, inMemory, pool, world }

/-- The identities of the connections that are handed out. -/
def ids (b : Backend d) : List ConnectionId := b.handedOut.map (·.id)

/-- A connection that is handed out. -/
def conn? (b : Backend d) (id : ConnectionId) : Option d.Conn :=
  (b.handedOut.find? (·.id = id)).map (·.conn)

/-- Changes a connection that is handed out. -/
def setConn (id : ConnectionId) (conn : d.Conn) (b : Backend d) : Backend d :=
  { b with handedOut := b.handedOut.map fun c => if c.id = id then { c with conn } else c }

/-- Whether a connection has a transaction open. -/
def inTransaction (id : ConnectionId) (b : Backend d) : Bool := (b.conn? id).any d.inTransaction

/-- An error of the database. -/
def failure (reason : String) : StoreError := .internal backendName reason

/-- Hands out a connection. -/
def checkout : Act (Backend d) ConnectionId :=
  Act.make fun b =>
    match d.lend (b.pool, b.world) with
    | (some conn, pool, world) =>
      let id := ConnectionId.fresh b.issued
      (.ok id, { b with
        pool, world, handedOut := ⟨id, conn⟩ :: b.handedOut, issued := id :: b.issued })
    | (none, pool, world) => (.error (.poolExhausted backendName), { b with pool, world })

/-- Rolls back the transaction that a connection has open, if it has one. That may fail. -/
def abandon (conn : d.Conn) (world : d.World) : d.Conn × d.World :=
  if d.inTransaction conn then (d.runBatch "ROLLBACK" (conn, world)).2 else (conn, world)

/-- Takes a connection back. -/
def giveBack (c : Checkout d) (b : Backend d) : Backend d :=
  let (conn, world) := abandon c.conn b.world
  let (pool, world) := d.takeBack conn (b.pool, world)
  { b with
    pool, world
    locks := b.locks.giveBackAll c.id
    handedOut := b.handedOut.filter (·.id ≠ c.id) }

/-- Drops a connection. -/
def drop (id : ConnectionId) : Act (Backend d) Unit :=
  Act.change fun b =>
    match b.handedOut.find? (·.id = id) with
    | some c => b.giveBack c
    | none => b

/-- Works through a connection that is handed out. An error of the database is told as `tell`
    says. -/
def through (id : ConnectionId) (tell : String → StoreError) (work : Work d.Conn d.World α) :
    Act (Backend d) α :=
  Act.make fun b =>
    match b.conn? id with
    | some conn =>
      let (r, conn, world) := work (conn, b.world)
      (r.mapError tell, { b with world }.setConn id conn)
    | none => (.error (failure "connection is closed"), b)

/-- Runs a command that controls transactions. -/
def runControl (id : ConnectionId) (command : String) : Act (Backend d) Unit :=
  through id (fun reason => .rolledBack s!"{command} failed: {reason}") (d.runBatch command)

def begin (id : ConnectionId) : Act (Backend d) Unit := runControl id "BEGIN IMMEDIATE"

def commit (id : ConnectionId) : Act (Backend d) Unit := runControl id "COMMIT"

def rollback (id : ConnectionId) : Act (Backend d) Unit := runControl id "ROLLBACK"

/-- Begins an exclusive transaction on the whole database, whatever the tables. -/
def lockTables (id : ConnectionId) (names : List String) : Act (Backend d) Unit := do
  if ← Act.read (inTransaction id) then
    Act.fail (.lockWhileTransactional (", ".intercalate names))
  else runControl id "BEGIN EXCLUSIVE"

/-- Commits the transaction, if one is open. -/
def unlockTables (id : ConnectionId) : Act (Backend d) Unit := do
  if ← Act.read (inTransaction id) then commit id

/-- Runs statements without parameters. -/
def executeBatch (id : ConnectionId) (sql : String) : Act (Backend d) Unit :=
  through id failure (d.runBatch sql)

/-- Runs a statement and counts the rows that it affects. -/
def execute (id : ConnectionId) (sql : String) (params : List Param) : Act (Backend d) Nat :=
  through id failure (d.execute sql params)

/-- Closes a query. -/
def close (id : ConnectionId) (cursor : d.Cursor) : Act (Backend d) Unit :=
  through id failure fun s => (.ok (), d.close cursor s)

/-- Runs a query, and goes on with its rows while it is still in use. -/
def selecting (id : ConnectionId) (sql : String) (params : List Param)
    (next : List Row → Act (Backend d) α) : Act (Backend d) α := do
  let answer ← through id failure (d.query sql params)
  let r ← (next (answer.rows.map Cells.toRow)).attempt
  (close id answer.cursor).bestEffort
  let a ← Act.ofExcept r
  match answer.fault with
  | some reason => Act.fail (failure reason)
  | none => return a

/-- Runs a query. -/
def select (id : ConnectionId) (sql : String) (params : List Param) : Act (Backend d) (List Row) :=
  selecting id sql params fun rows => return rows

/-- The key that the last insert generated. -/
def lastInsertId (id : ConnectionId) : Act (Backend d) Int :=
  through id failure fun s => (.ok (d.lastInsertId s.1), s)

/-- The error of a request for a lock that would have to wait, where nobody is left who could
    release it. -/
def wouldWait (name : String) : StoreError := failure s!"waiting for advisory lock '{name}'"

/-- Takes a named lock. -/
def takeLock (id : ConnectionId) (name : String) : Act (Backend d) Unit :=
  Act.make fun b =>
    match b.locks.table.take? name id with
    | some table => (.ok (), { b with locks := { b.locks with table } })
    | none => (.error (wouldWait name), b)

def freeLock (id : ConnectionId) (name : String) : Act (Backend d) Unit :=
  Act.make fun b =>
    match b.locks.free? name id with
    | some locks => (.ok (), { b with locks })
    | none =>
      (.error (failure s!"advisory lock '{name}' is not held by connection {id.text}"), b)

/-- A connection that is handed out, for whoever works with it. -/
def connection (id : ConnectionId) : Connection (Backend d) where
  id
  inTransaction := inTransaction id
  begin := begin id
  commit := commit id
  rollback := rollback id
  execute := execute id
  select := select id
  lastInsertId := lastInsertId id
  takeLock := takeLock id
  freeLock := freeLock id
  lockTables := lockTables id
  unlockTables := unlockTables id

/-- A backend in diagnostics. -/
def describe (b : Backend d) : String :=
  Describe.openRecord "SqliteBackend" [("config", b.config.describe),
    ("is_memory", Describe.bool b.inMemory)]

/-- A connection of a backend in diagnostics. -/
def describeConnection (id : ConnectionId) : String :=
  Describe.openRecord "SqliteConnection" [("id", id.describe)]

end Backend

end RecordStore
