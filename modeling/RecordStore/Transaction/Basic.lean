import RecordStore.Transaction.WorkUnit

/-!
# Transactions

A transaction holds units of work and knows how to begin, run, commit and roll them back.

A *connected* transaction keeps its units in strands, one for each connection, in the order of the
connections' first units. Beginning opens a transaction on every connection that has none open; the
strand then *owns* it. A connection that was already in a transaction belongs to the caller: its
units run, but it is neither committed nor rolled back here. Committing takes the owned connections
in order and gives up ownership one by one; when one fails after others succeeded, the report says
so (`StoreError.partialCommit`). Rolling back gives up ownership of all of them, tries each once,
and returns the first error.

A *plain* transaction only runs its units.
-/

namespace RecordStore

/-- The units of one connection. -/
structure Strand (σ : Type) where
  connection : Connection σ
  /-- Whether this transaction opened the one on the connection. -/
  isOwned : Bool := false
  units : List (WorkUnit σ)

namespace Strand

variable {σ : Type}

/-- Opens a transaction on the connection, unless one is open. -/
def begin : Act (σ × Strand σ) Unit :=
  Act.make fun (s, g) =>
    if g.connection.inTransaction s then (.ok (), s, g)
    else
      match g.connection.begin.perform s with
      | (.ok _, s') => (.ok (), s', { g with isOwned := true })
      | (.error e, s') => (.error e, s', g)

/-- Adds a unit to the strand of its connection, or a strand for it at the end. -/
def add (c : Connection σ) (u : WorkUnit σ) : List (Strand σ) → List (Strand σ)
  | [] => [{ connection := c, units := [u] }]
  | g :: rest =>
    if g.connection.id = c.id then { g with units := g.units ++ [u] } :: rest
    else g :: add c u rest

/-- The strands of these units; every unit needs a connection. -/
def ofUnits (units : List (WorkUnit σ)) : Except StoreError (List (Strand σ)) :=
  units.foldlM (fun strands u =>
    match u.connection with
    | some c => .ok (add c u strands)
    | none => .error .missingConnection) []

/-- Commits the owned connections in order. `committed` of `total` were committed before. -/
def commitAll (total : Nat) :
    Nat → List (Strand σ) → σ → Except StoreError Unit × σ × List (Strand σ)
  | _, [], s => (.ok (), s, [])
  | committed, g :: rest, s =>
    if g.isOwned then
      match g.connection.commit.perform s with
      | (.ok _, s') =>
        let (r, s'', rest') := commitAll total (committed + 1) rest s'
        (r, s'', { g with isOwned := false } :: rest')
      | (.error e, s') =>
        let report := if committed = 0 then e else .partialCommit committed (committed + 1) total e
        (.error report, s', g :: rest)
    else
      let (r, s', rest') := commitAll total committed rest s
      (r, s', g :: rest')

/-- Rolls back every owned connection and returns the first error. -/
def undoAll :
    List (Strand σ) → σ → Except StoreError Unit × σ × List (Strand σ)
  | [], s => (.ok (), s, [])
  | g :: rest, s =>
    if g.isOwned then
      let (r, s') := g.connection.rollback.perform s
      let (r', s'', rest') := undoAll rest s'
      (match r with
        | .ok _ => r'
        | .error e => .error e, s'', { g with isOwned := false } :: rest')
    else
      let (r, s', rest') := undoAll rest s
      (r, s', g :: rest')

end Strand

/-- Units of work with a common beginning and end. -/
inductive Transaction (σ : Type) where
  /-- The units of every connection. -/
  | connected (strands : List (Strand σ))
  | plain (units : List (WorkUnit σ))

namespace Transaction

variable {σ : Type}

/-- A transaction on the connections of the units. -/
def ofConnected (units : List (WorkUnit σ)) : Except StoreError (Transaction σ) :=
  (Strand.ofUnits units).map connected

/-- A transaction that only runs the units. -/
def ofPlain (units : List (WorkUnit σ)) : Except StoreError (Transaction σ) := .ok (plain units)

/-- Opens what is not open. -/
def begin : Act (σ × Transaction σ) Unit :=
  Act.make fun
    | (s, connected strands) =>
      let (r, s', strands') := Act.each Strand.begin strands s
      (r, s', connected strands')
    | (s, plain units) => (.ok (), s, plain units)

/-- All units, in the order in which they run. -/
def units : Transaction σ → List (WorkUnit σ)
  | connected strands => strands.flatMap (·.units)
  | plain units => units

/-- Runs every unit in order. -/
def run (t : Transaction σ) : Act σ Unit := WorkUnit.runAll t.units

/-- Commits what `begin` opened. -/
def commit : Act (σ × Transaction σ) Unit :=
  Act.make fun
    | (s, connected strands) =>
      let total := (strands.filter (·.isOwned)).length
      let (r, s', strands') := Strand.commitAll total 0 strands s
      (r, s', connected strands')
    | (s, plain units) => (.ok (), s, plain units)

/-- Rolls back what `begin` opened. -/
def rollback : Act (σ × Transaction σ) Unit :=
  Act.make fun
    | (s, connected strands) =>
      let (r, s', strands') := Strand.undoAll strands s
      (r, s', connected strands')
    | (s, plain units) => (.ok (), s, plain units)

/-- How many units run. -/
def size (t : Transaction σ) : Nat := t.units.length

/-- The connections in the order in which they are begun. -/
def connectionIds : Transaction σ → List ConnectionId
  | connected strands => strands.map (·.connection.id)
  | plain _ => []

/-- Whether the transaction opened the one on this connection. -/
def owns (t : Transaction σ) (id : ConnectionId) : Bool :=
  match t with
  | connected strands => strands.any fun g => g.isOwned && g.connection.id = id
  | plain _ => false

/-- The transaction in diagnostics. -/
def describe : Transaction σ → String
  | connected strands =>
    Describe.record "ConnectionTransaction" [("groups", Describe.list (strands.map fun g =>
      Describe.tuple [g.connection.id.describe, toString g.units.length,
        Describe.bool g.isOwned]))]
  | plain units => Describe.record "PlainTransaction" [("units", toString units.length)]

end Transaction

end RecordStore
