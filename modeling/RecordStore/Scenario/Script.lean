import RecordStore.Rehearsal.Script
import RecordStore.Scenario.Error
import RecordStore.Scenario.Search
import RecordStore.Scenario.Stage

/-!
# Scripts in scenarios

A step is written as a list that begins with its name, a script as the list of its steps, and a task
as the name of its line and its body. A model is written as the schema and the row that its record
starts from, the properties set on it, and the scripts of its own code and of its hooks. Models
without a schema of their own have the one of the scenario.
-/

namespace RecordStore.Scenario

open Rehearsal

def readCapability (v : Value) : Setup Capability := do
  match ← readText v with
  | "connected" => return .connected
  | "plain" => return .plain
  | other => malformed other

/-- Reads the properties to be set on a record, in order. -/
def readSets (v : Value) : Setup (List (String × Value)) :=
  listField v "set" fun entry => do
    let entry ← readItems entry
    return (← textItem entry 0, ← item entry 1)

/-- Reads the record that a model starts from. -/
def readStart (schema : Schema) (v : Value) : Setup Record := do
  let schema ← fieldOr v "schema" schema readSchema
  fieldOr v "row" { schema } fun row => do return .ofRow schema (← readRow row)

section

-- The lines, and the schema of models without one of their own.
variable (cast : Cast) (schema : Schema)

mutual

/-- Reads a step, with a budget of levels. -/
def readStepWithin : Nat → Value → Setup Step
  | 0, _ => malformed "step"
  | budget + 1, v => do
    let (name, args) ← readStepHead v
    match name with
    | "log" => return .log (← item args 0)
    | "fail" => return .fail (← readError (← item args 0))
    | "swallow" => return .swallow (← readStepWithin budget (← item args 0))
    | "execute" => return .execute (← readList (readTaskWithin budget) (← item args 0)) []
    | "try" =>
      return .execute (← readList (readTaskWithin budget) (← item args 0))
        (← readList (readStepWithin budget) (← item args 1))
    | "state" => return .phase (← optionalItem args 0 readNat)
    | "set" => return .set (← textItem args 0) (← item args 1)
    | "clear" => return .clear
    | "look" => return .look (← textItem args 0)
    | "save_self" => return .saveSelf (← optionalItem args 0 readNat)
    | "save_new" =>
      return .saveNew (← readDraftsWithin budget false (← item args 0))
        (← optionalItem args 1 readNat)
    | "continue" => return .proceed
    | "skip" => return .skip
    | "add" => return .add (← readDraftsWithin budget true (← item args 0))
    | name => do
      let (line, control) ← readLineControl cast name args
      return .control line control

/-- Reads a task, with a budget of levels. -/
def readTaskWithin : Nat → Value → Setup Task
  | 0, _ => malformed "task"
  | budget + 1, v => do
    let line ← optionalField v "conn" fun name => do cast.index (← readText name)
    let capability ← optionalField v "cap" readCapability
    return .mk line capability (← readList (readStepWithin budget) (← field v "body"))

/-- Reads a draft before its properties are set, with a budget of levels. -/
def readPlanWithin : Nat → Bool → Value → Setup Draft
  | 0, _, _ => malformed "model"
  | budget + 1, mayBeBare, v => do
    let record ← readStart schema v
    if mayBeBare && (← fieldOr v "bare" false readFlag) then return .bare record
    let scripts (v : Value) (name : String) : Setup (List Script) :=
      listField v name (readList (readStepWithin budget))
    let hooks ← listField v "hooks" fun h => do
      return (← scripts h "before", ← scripts h "after")
    return .mk record (← scripts v "before_validate") (← scripts v "before_save")
      (← scripts v "after_save") hooks

/-- Reads drafts and sets their properties, which may fail where they are made. -/
def readDraftsWithin : Nat → Bool → Value → Setup (Except StoreError (List Draft))
  | 0, _, _ => malformed "models"
  | budget + 1, mayBeBare, v => do
    let drafts ← readList (fun v => do
      let plan ← readPlanWithin budget mayBeBare v
      return (plan.record.setAll (← readSets v)).map plan.setRecord) v
    return drafts.mapM id

end

/-- Reads a script. -/
def readScript : Value → Setup Script :=
  readList (readNested (readStepWithin cast schema))

/-- Reads a task. -/
def readTask : Value → Setup Task := readNested (readTaskWithin cast schema)

/-- Reads a draft, which may be a bare record, before its properties are set. -/
def readPlan : Value → Setup Draft := readNested fun n => readPlanWithin cast schema n true

/-- Reads the drafts that a scenario begins with. -/
def readDrafts : Value → Setup (Except StoreError (List Draft)) :=
  readNested fun n => readDraftsWithin cast schema (n + 1) false

end

end RecordStore.Scenario
