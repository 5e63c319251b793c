import RecordStore.Json.Reader
import RecordStore.Text.Describe

/-!
# Backend configuration

How many connections a backend keeps, how long it waits for them and for the database, and which
features of the database it switches on. Every setting has a default, so an empty object is the
stored form of the standard configuration.
-/

namespace RecordStore.Backend

/-- The settings of a backend. Times are in milliseconds. -/
structure Config where
  maxConnections : Nat := 10
  minConnections : Nat := 1
  /-- How long a request waits for a connection to become free. -/
  connectionTimeout : Nat := 30000
  /-- How long a statement waits for another connection's transaction. -/
  busyTimeout : Nat := 5000
  /-- Keeps a log of changes beside a database file, so that readers do not meet writers. -/
  writeAhead : Bool := true
  /-- Asks the database to check foreign keys. -/
  foreignKeys : Bool := true
  deriving DecidableEq, Inhabited

namespace Config

/-- The longest time for which a connection can be told to wait for the database. -/
def maxBusyTimeout : Nat := 0x7FFFFFFF

/-- Whether any connection can be made with these settings. -/
def isUsable (c : Config) : Bool := c.busyTimeout ≤ maxBusyTimeout

/-- How many connections are made in advance; a database in memory needs one to exist. -/
def spare (c : Config) : Nat := max 1 c.minConnections

def toStored (c : Config) : Value :=
  .ofFields [("max_connections", .nat c.maxConnections),
    ("min_connections", .nat c.minConnections),
    ("connection_timeout_ms", .nat c.connectionTimeout),
    ("busy_timeout_ms", .nat c.busyTimeout), ("enable_wal", .bool c.writeAhead),
    ("enable_foreign_keys", .bool c.foreignKeys)]

def ofStored : Reader Config := fun v => do
  let f ← Reader.fields ["max_connections", "min_connections", "connection_timeout_ms",
    "busy_timeout_ms", "enable_wal", "enable_foreign_keys"] v
  return {
    maxConnections := ← f.withDefault "max_connections" 10 .nat32
    minConnections := ← f.withDefault "min_connections" 1 .nat32
    connectionTimeout := ← f.withDefault "connection_timeout_ms" 30000 .nat64
    busyTimeout := ← f.withDefault "busy_timeout_ms" 5000 .nat32
    writeAhead := ← f.withDefault "enable_wal" true .flag
    foreignKeys := ← f.withDefault "enable_foreign_keys" true .flag }

/-- The configuration in diagnostics. -/
def describe (c : Config) : String :=
  Describe.record "SqliteBackendConfig" [
    ("max_connections", toString c.maxConnections),
    ("min_connections", toString c.minConnections),
    ("connection_timeout_ms", toString c.connectionTimeout),
    ("busy_timeout_ms", toString c.busyTimeout),
    ("enable_wal", Describe.bool c.writeAhead),
    ("enable_foreign_keys", Describe.bool c.foreignKeys)]

end Config

end RecordStore.Backend
