import RecordStore.Backend.Config
import RecordStore.Statement.Param
import RecordStore.Text.Bytes

/-!
# Database drivers

A backend does not speak to its database itself: it has a *driver*, which keeps a pool of connections
and runs through them what it is given. A backend works with any driver, so it is left open what a
driver does: each call may succeed, or fail with any message, and may change the connection and the
database either way.

A connection that is taken out of the pool is in one place only, with whoever has it. So it is a
value, which is passed to each call and comes back changed, and a call through one connection does
not change another one.

Two things are relied on where a connection has to be clean when it is handed out:

* the pool hands out connections again as they were returned (`Driver.LendsAsReturned`);
* a rollback inside a transaction succeeds (`Driver.RollsBack`).
-/

namespace RecordStore.Backend

/-- A value that is stored in the database. -/
inductive Cell where
  | null
  | integer (i : Int)
  | real (x : Double)
  /-- Text, which should be UTF-8. -/
  | text (bytes : List UInt8)
  | blob (bytes : List UInt8)
  deriving DecidableEq, Inhabited

/-- The value as JSON: bytes become base 64, and a number that is not finite null. -/
def Cell.toJson : Cell → Value
  | null => .null
  | integer i => .int i
  | real x => if x.isFinite then .number (.float x) else .null
  | text bytes => .string (String.ofList (Text.decodeUtf8 bytes))
  | blob bytes => .string (String.ofList (Text.base64 bytes))

/-- The values of a row beside the names of their columns. -/
abbrev Cells := List (String × Cell)

/-- The row with these values; the last one of a column counts. -/
def Cells.toRow (cells : Cells) : Row :=
  Row.ofList (cells.map fun (column, cell) => (column, cell.toJson))

/-- What a query gives while it is in use. -/
structure Answer (κ : Type) where
  rows : List Cells
  /-- Why there are no more rows, if it is for an error. -/
  fault : Option String := none
  /-- What has to be closed when the rows have been read. -/
  cursor : κ

/-- Work through a connection. It succeeds, or fails with a message, and changes the connection and
    what it shares with others. -/
abbrev Work (κ ω α : Type) := κ × ω → Except String α × κ × ω

/-- A database driver. -/
structure Driver where
  /-- A connection, with all that belongs to it alone. -/
  Conn : Type
  /-- The connections that are not handed out. -/
  Pool : Type
  /-- What all connections share, such as the tables. -/
  World : Type
  /-- A query in use. -/
  Cursor : Type
  /-- Opens a database, in memory or in a file. -/
  start (config : Config) (inMemory : Bool) : Pool × World
  /-- Hands out a connection; none if all are in use for too long. -/
  lend : Pool × World → Option Conn × Pool × World
  takeBack : Conn → Pool × World → Pool × World
  /-- Whether a connection has a transaction open. -/
  inTransaction : Conn → Bool
  /-- Runs statements without parameters. -/
  runBatch (sql : String) : Work Conn World Unit
  /-- Runs a statement and counts the rows that it affects. -/
  execute (sql : String) (params : List Param) : Work Conn World Nat
  query (sql : String) (params : List Param) : Work Conn World (Answer Cursor)
  close : Cursor → Conn × World → Conn × World
  /-- The key that the last insert of a connection generated. -/
  lastInsertId : Conn → Int

namespace Driver

variable (d : Driver)

/-- A connection that the pool has returned to it, or a new one, in which no transaction is open. -/
def Offers (idle : List d.Conn) (c : d.Conn) : Prop := c ∈ idle ∨ d.inTransaction c = false

/-- The pool hands out connections again as they were returned. Here `idle` are the connections in
    a pool, to which it may add new ones at any time. -/
structure LendsAsReturned (idle : d.Pool → List d.Conn) : Prop where
  start : ∀ config inMemory, ∀ c ∈ idle (d.start config inMemory).1, d.Offers [] c
  lend : ∀ pool world, ∀ c ∈ (d.lend (pool, world)).1, d.Offers (idle pool) c
  lendKeeps : ∀ pool world, ∀ c ∈ idle (d.lend (pool, world)).2.1, d.Offers (idle pool) c
  takeBack : ∀ returned pool world, ∀ c ∈ idle (d.takeBack returned (pool, world)).1,
    d.Offers (returned :: idle pool) c

/-- A rollback inside a transaction succeeds and ends it. -/
def RollsBack : Prop :=
  ∀ c world, d.inTransaction c = true →
    ∃ after, d.runBatch "ROLLBACK" (c, world) = (.ok (), after) ∧ d.inTransaction after.1 = false

end Driver

end RecordStore.Backend
