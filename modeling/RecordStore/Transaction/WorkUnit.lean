import RecordStore.Connection

/-!
# Units of work

A unit of work is the smallest step that a transaction runs. One that writes through a connection
names it; the others work in the process alone. Its capability says what kind of transaction it
belongs in, and is that of its connection unless it is chosen otherwise.
-/

namespace RecordStore

/-- What a unit of work needs of its transaction. -/
inductive Capability where
  /-- A connection to the database. -/
  | connected
  | plain
  deriving DecidableEq, Inhabited

namespace Capability

def all : List Capability := [connected, plain]

def text : Capability → String
  | connected => "connected"
  | plain => "plain"

/-- The capability in diagnostics. -/
def describe : Capability → String
  | connected => "Connected"
  | plain => "Plain"

end Capability

/-- A step in a world `σ`. -/
structure WorkUnit (σ : Type) where
  connection : Option (Connection σ)
  capability : Capability
  run : Act σ Unit

namespace WorkUnit

variable {σ : Type}

/-- A step without a connection. -/
def task (run : Act σ Unit) : WorkUnit σ := ⟨none, .plain, run⟩

/-- A step that writes through a connection. -/
def connectedTask (connection : Connection σ) (run : Act σ Unit) : WorkUnit σ :=
  ⟨some connection, .connected, run⟩

/-- Runs units in order, up to the first failure. -/
def runAll : List (WorkUnit σ) → Act σ Unit
  | [] => pure ()
  | u :: rest => do u.run; runAll rest

/-- A step without a connection in diagnostics. -/
def describeTask : String := Describe.openRecord "Task" []

/-- A step with a connection in diagnostics. -/
def describeConnectedTask (connection : Connection σ) : String :=
  Describe.openRecord "ConnectedTask" [("connection", connection.id.describe)]

end WorkUnit

end RecordStore
