import RecordStore.Act
import RecordStore.Json.Parser
import RecordStore.Statement.Param
import RecordStore.Text.Describe

/-!
# Connections

A connection is what statements, transactions and locks go through: a record of actions on a world
that holds the database, or whatever stands for it. Units of work share connections, so a
connection is known by its identity, a UUID.

`Connection.zoom` takes a connection into a larger world.
-/

namespace RecordStore

/-- The identity of a connection. -/
structure ConnectionId where
  bits : BitVec 128
  deriving DecidableEq, Inhabited

namespace ConnectionId

/-- The lengths of the groups of digits in the text of an identity. -/
def groupSizes : List Nat := [8, 4, 4, 4, 12]

/-- Cuts a list into groups of these sizes. -/
def cut : List Nat → List Char → List (List Char)
  | [], _ => []
  | n :: sizes, cs => cs.take n :: cut sizes (cs.drop n)

/-- The 32 hexadecimal digits of an identity. -/
def digits (id : ConnectionId) : List Char :=
  (List.range 32).map fun i => hexDigit (id.bits.toNat / Nat.pow 16 (31 - i))

/-- The hyphenated lower-case text of an identity. -/
def text (id : ConnectionId) : String :=
  "-".intercalate ((cut groupSizes id.digits).map String.ofList)

/-- The identity with these 32 digits. -/
def ofDigits? (cs : List Char) : Option ConnectionId := do
  if cs.length ≠ 32 then none
  else
    let values ← cs.mapM Json.hexValue?
    return ⟨BitVec.ofNat 128 (values.foldl (fun n d => n * 16 + d) 0)⟩

/-- The digits of a hyphenated text. -/
def dehyphenate? (cs : List Char) : Option (List Char) :=
  if cs.length = 36 ∧ [8, 13, 18, 23].all (fun i => cs[i]? = some '-') then
    some ((cs.take 8) ++ (cs.drop 9).take 4 ++ (cs.drop 14).take 4 ++ (cs.drop 19).take 4
      ++ cs.drop 24)
  else none

/-- The lead of an identity written as a resource name. -/
def resourceLead : List Char := "urn:uuid:".toList

/-- Reads an identity: 32 digits, or groups with hyphens, which may stand in braces or behind
    `urn:uuid:`. Digits may have either case. -/
def parse? (s : String) : Option ConnectionId :=
  let cs := s.toList
  if cs.length = 32 then ofDigits? cs
  else if cs.length = 36 then (dehyphenate? cs).bind ofDigits?
  else if cs.length = 38 ∧ cs.head? = some '\x7b' ∧ cs.getLast? = some '\x7d' then
    (dehyphenate? (cs.drop 1).dropLast).bind ofDigits?
  else if cs.length = 45 ∧ cs.take 9 = resourceLead then
    (dehyphenate? (cs.drop 9)).bind ofDigits?
  else none

/-- The identity in diagnostics. -/
def describe (id : ConnectionId) : String := Describe.variant "ConnectionId" [id.text]

/-- The identity with this number, counted from the middle of all identities. -/
def ofNumber (n : Nat) : ConnectionId :=
  ⟨BitVec.ofNat 128 (0x80000000000000000000000000000000 + n)⟩

/-- An identity that is not in the list: one of the first numbers, of which the list cannot hold
    all. -/
def fresh (used : List ConnectionId) : ConnectionId :=
  let candidates := (List.range (used.length + 1)).map ofNumber
  (candidates.find? fun id => !used.contains id).getD default

end ConnectionId

/-- A connection in a world `σ`. -/
structure Connection (σ : Type) where
  id : ConnectionId
  /-- Whether a transaction is open. -/
  inTransaction : σ → Bool
  begin : Act σ Unit
  commit : Act σ Unit
  rollback : Act σ Unit
  /-- Runs a statement and returns how many rows it affected. -/
  execute : String → List Param → Act σ Nat
  /-- Runs a query and returns its rows in order. -/
  select : String → List Param → Act σ (List Row)
  /-- The key that the last insert generated. -/
  lastInsertId : Act σ Int
  /-- Takes a named lock, waiting for it if need be. -/
  takeLock : String → Act σ Unit
  freeLock : String → Act σ Unit
  /-- Locks tables for this connection alone. As that ends an open transaction, it has to fail
      inside one. -/
  lockTables : List String → Act σ Unit
  unlockTables : Act σ Unit

namespace Connection

variable {σ τ : Type}

/-- The connection in a world of which its own is a part. -/
def zoom (l : Lens τ σ) (c : Connection σ) : Connection τ where
  id := c.id
  inTransaction t := c.inTransaction (l.get t)
  begin := c.begin.zoom l
  commit := c.commit.zoom l
  rollback := c.rollback.zoom l
  execute sql params := (c.execute sql params).zoom l
  select sql params := (c.select sql params).zoom l
  lastInsertId := c.lastInsertId.zoom l
  takeLock name := (c.takeLock name).zoom l
  freeLock name := (c.freeLock name).zoom l
  lockTables names := (c.lockTables names).zoom l
  unlockTables := c.unlockTables.zoom l

/-- The connection in diagnostics. -/
def describe (c : Connection σ) (s : σ) : String :=
  Describe.record "Connection" [
    ("id", c.id.describe), ("in_transaction", Describe.bool (c.inTransaction s))]

end Connection

end RecordStore
