import RecordStore.TableStore
import RecordStore.Scenario.Script
import RecordStore.Scenario.Turn

/-!
# Table stores in scenarios

A table store stands on a stage of one line. Steps are calls of the store and controls of the line.

A call that hands rows to code of its caller gets code that keeps what it is given, and that raises
an error at one of its calls if the step says so. Code that runs under a lock is written as a list
of actions, of which the last gives the value.
-/

namespace RecordStore.Scenario

open Rehearsal

/-- A call of the caller's code that fails, and its error. -/
abbrev Trap := Option (Nat × StoreError)

/-- Reads a trap from two items. -/
def readTrap (args : List Value) (i : Nat) : Setup Trap := do
  match itemGiven? args i, itemGiven? args (i + 1) with
  | some k, some e => return some (← readNat k, ← readError e)
  | _, _ => return none

/-- Fails at the call with the number of the trap. -/
def Trap.spring {σ : Type} (trap : Trap) (call : Nat) : Act σ Unit :=
  match trap with
  | some (k, e) => if call = k then Act.fail e else pure ()
  | none => pure ()

/-- Reads code that runs under a lock, with a budget of levels. -/
def readBodyWithin (store : TableStore Stage) : Nat → Value → Setup (Act Stage Value)
  | 0, _ => malformed "body"
  | budget + 1, v => do
    let actions ← readList (fun v => do
      let (name, args) ← readStepHead v
      match name with
      | "value" => do
        let v ← item args 0
        return (pure v : Act Stage Value)
      | "fail" => do return Act.fail (← readError (← item args 0))
      | "advisory" => do
        let body ← readBodyWithin store budget (← item args 1)
        return store.underLock (← textItem args 0) body
      | "table_lock" => do
        let body ← readBodyWithin store budget (← item args 0)
        return store.underTableLock body
      | name => do return (← readControl name args).run 0) v
    return actions.foldlM (fun _ action => action) .null

/-- Reads code that runs under a lock. -/
def readBody (store : TableStore Stage) : Value → Setup (Act Stage Value) :=
  readNested (readBodyWithin store)

/-- Searches, making models by code that is caught by the trap. The report counts its calls. -/
def searchCounting (store : TableStore Stage) (trap : Trap) (q : Search) : Turn Stage :=
  fun s =>
    let build (row : Row) : Act (Stage × Nat) Value := do
      Act.change fun (s, calls) => (s, calls + 1)
      trap.spring (← Act.read (·.2))
      return .strings (row.map (·.1))
    let (r, s, calls) := ((store.zoom Lens.fst).searchAs q build).perform (s, 0)
    (reportResult (r.map .array) ++ [("built", .nat calls)], s)

/-- Streams rows to code that keeps them until it is caught by the trap. The report has what it
    kept. -/
def streamKeeping (store : TableStore Stage) (trap : Trap) (q : Search) : Turn Stage :=
  fun s =>
    let visit (row : Row) : Act (Stage × List Row) Unit := do
      trap.spring (← Act.read (·.2.length))
      Act.change fun (s, kept) => (s, kept ++ [row])
    let (r, s, kept) := ((store.zoom Lens.fst).stream q visit).perform (s, [])
    (reportOutcome r ++ [("seen", reportRows kept)], s)

/-- Sets properties in order up to the first that is refused, keeping those before it. -/
def setEach : List (String × Value) → Record → Except StoreError Unit × Record
  | [], r => (.ok (), r)
  | (name, value) :: rest, r =>
    match r.set name value with
    | .ok r => setEach rest r
    | .error e => (.error e, r)

/-- Sets properties of a record and writes it. The report has the model as it is then. -/
def writeRecord (store : TableStore Stage) (start : Record) (sets : List (String × Value)) :
    Turn Stage :=
  fun s =>
    let (r, s, record) :=
      match setEach sets start with
      | (.error e, record) => (.error e, s, record)
      | (.ok _, record) => store.write.perform (s, record)
    (reportOutcome r ++ [("model", reportRecord record)], s)

/-- A row as a value, null if there is none. -/
def rowOrNull : Option Row → Value
  | some row => .object row
  | none => .null

/-- Reads a step of a table store. -/
def readStoreStep (store : TableStore Stage) (v : Value) : Setup (Turn Stage) := do
  let (name, args) ← readStepHead v
  -- A search that is refused is the answer of its step.
  let searching (turn : Search → Turn Stage) : Setup (Turn Stage) := do
    match ← settle (readSearch (← item args 0)) with
    | .ok q => return turn q
    | .error e => return .idle e.report
  match name with
  | "find" => do
    let id ← item args 0
    return .ofAct (rowOrNull <$> store.lookupOne id)
  | "find_by_key" => do
    let key ← readItems (← item args 0)
    return .ofAct (rowOrNull <$> store.lookup key)
  | "get" => do
    let id ← item args 0
    return .ofAct (Value.object <$> store.fetch id)
  | "get_record" => do
    let id ← item args 0
    return .ofAct (reportRecord <$> store.fetchRecord id)
  | "search" => searching fun q => .ofAct (reportRows <$> store.search q)
  | "search_records" =>
    searching fun q => .ofAct ((Value.array <| ·.map reportRecord) <$> store.searchForRecords q)
  | "count" => searching fun q => .ofAct (Value.nat <$> store.count q)
  | "search_models" => do
    let trap ← readTrap args 1
    searching (searchCounting store trap)
  | "stream" => do
    let trap ← readTrap args 1
    searching (streamKeeping store trap)
  | "advisory" => do
    let body ← readBody store (← item args 1)
    return .ofAct (store.underLock (← textItem args 0) body)
  | "table_lock" => do
    let body ← readBody store (← item args 0)
    return .ofAct (store.underTableLock body)
  | "persist" => do
    let spec ← item args 0
    return writeRecord store (← readStart store.schema spec) (← readSets spec)
  | "table" =>
    return .ofAct (pure (.strings [store.table, store.compiler.table, store.schema.text]))
  | "debug" => return .ofAct (pure (.string store.describe))
  | name => do return .ofAct ((← readControl name args).run 0)

/-- Plays a scenario with a table store. -/
def playTableStore (v : Value) : Setup Value := do
  let cast ← readCast [← field v "conn"]
  let store : TableStore Stage := ⟨cast.connection 0, ← readCompiler v⟩
  let turns ← listField v "steps" (readStoreStep store)
  let frame (report : Report) (before after : Stage) : Value :=
    .ofFields [("result", .ofFields report), ("log", reportLog before after)]
  return .array (Turn.playAll frame turns cast.stage).1

end RecordStore.Scenario
