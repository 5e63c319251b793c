import RecordStore.Transaction.Chain

/-!
# Transaction schemes

A scheme knows for each capability how a transaction is made from units of work. It groups units
by capability, capabilities in the order of their first unit, makes one transaction of each group
and runs them as a chain.

A scheme grows out of a draft, in which every capability has to be given its way.
-/

namespace RecordStore

/-- Makes a transaction from units of one capability. -/
abbrev Assembly (σ : Type) := List (WorkUnit σ) → Except StoreError (Transaction σ)

/-- How transactions are made, for each capability. -/
structure TransactionScheme (σ : Type) where
  assemble : Capability → Assembly σ

/-- What a scheme knows so far. -/
structure SchemeDraft (σ : Type) where
  chosen : Capability → Option (Assembly σ) := fun _ => none

namespace TransactionScheme

variable {σ : Type}

/-- Connected units run on their connections, the others by themselves. -/
def standard : TransactionScheme σ where
  assemble
    | .connected => Transaction.ofConnected
    | .plain => Transaction.ofPlain

/-- Adds a unit to the group of its capability, or a group for it at the end. -/
def addToGroup (u : WorkUnit σ) :
    List (Capability × List (WorkUnit σ)) → List (Capability × List (WorkUnit σ))
  | [] => [(u.capability, [u])]
  | (c, group) :: rest =>
    if c = u.capability then (c, group ++ [u]) :: rest else (c, group) :: addToGroup u rest

/-- The units of each capability, capabilities in the order of their first unit. -/
def groupByCapability (units : List (WorkUnit σ)) : List (Capability × List (WorkUnit σ)) :=
  units.foldl (fun groups u => addToGroup u groups) []

/-- One transaction for each capability that occurs. -/
def transactions (scheme : TransactionScheme σ) (units : List (WorkUnit σ)) :
    Except StoreError (List (Transaction σ)) :=
  (groupByCapability units).mapM fun (c, group) => scheme.assemble c group

/-- Runs the units, with a check before anything is committed. -/
def executeChecked (scheme : TransactionScheme σ) (units : List (WorkUnit σ))
    (check : Act σ Unit) : Act σ Unit := do
  let transactions ← Act.ofExcept (scheme.transactions units)
  Chain.execute check transactions

/-- Runs the units. -/
def execute (scheme : TransactionScheme σ) (units : List (WorkUnit σ)) : Act σ Unit :=
  scheme.executeChecked units (pure ())

/-- A scheme in diagnostics; all have every capability. -/
def describe (_ : TransactionScheme σ) : String :=
  Describe.record "TransactionFactory"
    [("capabilities", Describe.list (Capability.all.map (·.describe)))]

end TransactionScheme

namespace SchemeDraft

variable {σ : Type}

/-- Chooses a way for a capability, in place of an earlier one. -/
def choose (draft : SchemeDraft σ) (c : Capability) (assemble : Assembly σ) : SchemeDraft σ where
  chosen d := if d = c then some assemble else draft.chosen d

/-- The scheme; a capability that was given no way is an error, the first one counting. -/
def finish (draft : SchemeDraft σ) : Except StoreError (TransactionScheme σ) :=
  match draft.chosen .connected, draft.chosen .plain with
  | some onConnected, some onPlain =>
    .ok ⟨fun
      | .connected => onConnected
      | .plain => onPlain⟩
  | none, _ => .error (.unregisteredCapability Capability.connected.text)
  | _, none => .error (.unregisteredCapability Capability.plain.text)

/-- A draft in diagnostics. -/
def describe (draft : SchemeDraft σ) : String :=
  let covered := Capability.all.filter fun c => (draft.chosen c).isSome
  Describe.record "TransactionFactoryBuilder"
    [("capabilities", Describe.list (covered.map (·.describe)))]

end SchemeDraft

end RecordStore
