import RecordStore.Scenario.Script
import RecordStore.Scenario.Turn

/-!
# Transactions in scenarios

Units of work whose bodies are scripts, in one transaction that is taken through its phases step by
step, in a chain of transactions, or under a scheme.
-/

namespace RecordStore.Scenario

open Rehearsal

/-- The world before anything is done on the stage. -/
def Cast.session (c : Cast) (shelf : List Draft) : Session := ({ world := c.stage }, shelf)

/-- Saves in scenarios without routes for them. -/
def noSaves : Saver Draft Stage := fun _ => Act.fail SaveEngine.boundReached

/-- Reads a kind of transaction. -/
def readKind {σ : Type} (name : String) : Setup (Assembly σ) := do
  match name with
  | "connection" => return Transaction.ofConnected
  | "plain" => return Transaction.ofPlain
  | "twice" => return twice
  | "refuse" => return refuse
  | other => malformed other

/-- Reads units of work. -/
def readUnits (cast : Cast) (v : Value) : Setup (List (WorkUnit Session)) := do
  return (← readList (readTask cast {}) v).map (·.workUnit cast.connection noSaves)

/-- Reads the check before a commit; without one nothing is checked. -/
def readCheck (cast : Cast) (v : Value) : Setup (Act Session Unit) :=
  fieldOr v "check" (pure ()) fun script => do
    return playScript cast.connection noSaves (← readScript cast {} script)

/-- Chooses a kind of transaction for a capability. -/
def readChoice {σ : Type} (draft : SchemeDraft σ) (v : Value) : Setup (SchemeDraft σ) := do
  let entry ← readItems v
  return draft.choose (← readCapability (← item entry 0)) (← readKind (← textItem entry 1))

/-- Reads the choices of a scheme. -/
def readSchemeDraft {σ : Type} (v : Value) : Setup (SchemeDraft σ) := do
  (← readItems v).foldlM readChoice {}

/-- Reads a scheme, which is the standard one if nothing is chosen. -/
def readScheme {σ : Type} (v : Value) : Setup (TransactionScheme σ) :=
  fieldOr v "register" .standard fun entries => do
    accept (← readSchemeDraft entries).finish

/-- The report of a step on the stage: its result, and what it added to the journal. -/
def reportStep (report : Report) (before after : Session) : Report :=
  [("result", .ofFields report), ("log", reportLog before.1.world after.1.world)]

/-- Plays one turn on a stage. -/
def playTurn (cast : Cast) (turn : Turn Session) : Value :=
  let before := cast.session []
  let (report, after) := turn before
  .ofFields (reportStep report before after ++ [("open", cast.openLines after.1.world)])

/-- A step of a transaction: the answer of one that changes the world, or one that only tells about
    the transaction. -/
def readTransactionStep (cast : Cast) (v : Value) :
    Setup (Session × Transaction Session → Value × Session × Transaction Session) := do
  let turn (act : Transaction Session → Act (Session × Transaction Session) Value)
      (w : Session × Transaction Session) : Value × Session × Transaction Session :=
    let (report, after) := Turn.ofAct (act w.2) w
    (.ofFields (reportStep report w.1 after.1), after)
  let quiet (act : Transaction Session → Act (Session × Transaction Session) Unit) :=
    turn fun t => (fun _ => Value.null) <$> act t
  let tell (f : Transaction Session → Value) (w : Session × Transaction Session) :
      Value × Session × Transaction Session :=
    (f w.2, w)
  match ← readText v with
  | "begin" => return quiet fun _ => Transaction.begin
  | "run" => return quiet fun t => t.run.zoom Lens.fst
  | "commit" => return quiet fun _ => Transaction.commit
  | "rollback" => return quiet fun _ => Transaction.rollback
  | "units" => return turn fun t => pure (.nat t.size)
  | "debug" => return tell fun t => success (.string t.describe)
  | "order" => return tell fun t => success (.strings (t.connectionIds.map cast.nameOf))
  | "owns" =>
    return tell fun t => .ofFields ((cast.names.zip cast.ids).map fun (name, id) =>
      (name, .bool (t.owns id)))
  | other => malformed other

/-- Plays a scenario with one transaction. -/
def playTransaction (v : Value) : Setup Value := do
  let cast ← readCast (← readItems (← field v "conns"))
  let units ← readUnits cast (← field v "units")
  let start := cast.session []
  let finish (answers : List Value) (s : Session) : Value :=
    .ofFields [("steps", .array answers), ("open", cast.openLines s.1.world)]
  match (← readKind (← textField v "kind")) units with
  | .error e => return finish [.ofFields (reportError e)] start
  | .ok t => do
    let steps ← listField v "steps" (readTransactionStep cast)
    let (answers, s, _) := steps.foldl (fun (answers, w) step =>
      let (answer, w) := step w
      (answers ++ [answer], w)) ([], start, t)
    return finish answers s

/-- Plays a scenario with a chain of transactions. -/
def playChain (v : Value) : Setup Value := do
  let cast ← readCast (← readItems (← field v "conns"))
  let transactions ← listField v "txs" fun spec => do
    accept ((← readKind (← textField spec "kind")) (← readUnits cast (← field spec "units")))
  return playTurn cast (.ofQuiet (Chain.execute (← readCheck cast v) transactions))

/-- Plays a scenario with a scheme for transactions. -/
def playScheme (v : Value) : Setup Value := do
  let cast ← readCast (← readItems (← field v "conns"))
  let scheme ← readScheme v
  let units ← readUnits cast (← field v "units")
  let check ← readCheck cast v
  if ← fieldOr v "create" false readFlag then
    let counts := (scheme.transactions units).map fun ts =>
      Value.array (ts.map fun t => .nat t.size)
    return playTurn cast (.idle (reportResult counts))
  else return playTurn cast (.ofQuiet (scheme.executeChecked units check))

end RecordStore.Scenario
