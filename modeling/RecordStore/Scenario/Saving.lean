import RecordStore.Scenario.TableStore
import RecordStore.Scenario.Transaction

/-!
# Saves in scenarios

Routes over table stores on a stage, and the models that are saved through them. The models lie
on a shelf, where steps and units of work find them by their number.
-/

namespace RecordStore.Scenario

open Rehearsal

/-- Reads a route, with the schema of its table. -/
def readRoute (cast : Cast) (v : Value) : Setup (SaveRoute Draft Stage × Schema) := do
  let compiler ← readCompiler v
  let connection := cast.connection (← cast.index (← textField v "conn"))
  let store : TableStore Stage := ⟨connection, compiler⟩
  return (⟨store.modelWriter, ← readScheme v⟩, compiler.schema)

/-- Reads a property of a model made later: a value, or what a model on the shelf holds then. -/
def readSource : Value → Setup (Act Session Value)
  | .object [("$ref", .array [i, name])] => do
    let i ← readNat i
    let name ← readText name
    return Act.read fun (_, shelf) => (shelf[i]?.elim .null (·.record.values.getOrNull name))
  | v => return pure v

/-- Reads how a model is made later. -/
def readMaker (cast : Cast) (schema : Schema) (v : Value) : Setup (Act Session Draft) := do
  match v.field? "fail" with
  | some e => do return Act.fail (← readError e)
  | none => do
    let plan ← readPlan cast schema v
    let sources ← (← readSets v).mapM fun (name, source) => do return (name, ← readSource source)
    return do
      let sets ← sources.mapM fun (name, source) => do return (name, ← source)
      return plan.setRecord (← Act.ofExcept (plan.record.setAll sets))

/-- The parts of a scenario with saves. -/
structure SaveScene where
  cast : Cast
  /-- The schema of models without one of their own. -/
  schema : Schema
  engine : SaveEngine Draft Stage
  /-- How many saves may nest, and how often one may start again. -/
  bound : Nat

namespace SaveScene

/-- How models are saved. -/
def saver (scene : SaveScene) : Saver Draft Stage := scene.engine.save scene.bound

/-- Reads a unit of work: a save of models on the shelf, a save of models made later, or a task. -/
def readUnit (scene : SaveScene) (v : Value) : Setup (WorkUnit Session) := do
  let route ← fieldOr v "life" 0 readNat
  match given? v "eager", given? v "lazy" with
  | some picks, _ =>
    return scene.engine.saveUnit scene.bound route (← readList readNat picks)
  | none, some makers => do
    let makers ← readList (readMaker scene.cast scene.schema) makers
    return scene.engine.lazySaveUnit scene.bound route (makers.mapM id)
  | none, none =>
    return (← readTask scene.cast scene.schema v).workUnit scene.cast.connection scene.saver

/-- Sets a property of a model on the shelf. -/
def setOnShelf (i : Nat) (name : String) (value : Value) : Act Session Unit :=
  Act.make fun (s, shelf) =>
    match shelf[i]? with
    | none => (.ok (), s, shelf)
    | some d =>
      match Model.set name value d with
      | .ok d => (.ok (), s, shelf.set i d)
      | .error e => (.error e, s, shelf)

/-- Reads a step. -/
def readStep (scene : SaveScene) (v : Value) : Setup (Turn Session) := do
  let (name, args) ← readStepHead v
  let routeAt (i : Nat) : Setup Nat := do return (← optionalItem args i readNat).getD 0
  match name with
  | "save" => do
    return .ofQuiet (scene.engine.savePicked scene.bound (← routeAt 1) [← natItem args 0])
  | "save_all" => do
    let picks ← readList readNat (← item args 0)
    return .ofQuiet (scene.engine.savePicked scene.bound (← routeAt 1) picks)
  | "set" => return .ofQuiet (setOnShelf (← natItem args 0) (← textItem args 1) (← item args 2))
  | "units" => do
    let units ← readList scene.readUnit (← item args 0)
    let check ← optionalItem args 1 (readScript scene.cast scene.schema)
    let act := TransactionScheme.standard.executeChecked units
      (playScript scene.cast.connection scene.saver (check.getD []))
    return fun s =>
      let (report, s) := Turn.ofQuiet act s
      (report ++ [("caps", .strings (units.map (·.capability.text)))], s)
  | "debug" => do
    let route ← routeAt 0
    return .ofAct (Act.read fun (s, shelf) => .strings [
      (scene.engine.routes route).describe (s.phases route), describeSaveUnit shelf.length,
      describeLazySaveUnit])
  | name => do
    let (line, control) ← readLineControl scene.cast name args
    return .ofAct ((control.run line).zoom (Lens.fst.comp Saving.worldLens))

end SaveScene

/-- Plays a scenario with saves. -/
def playSaves (bound : Nat) (v : Value) : Setup Value := do
  let cast ← readCast (← readItems (← field v "conns"))
  let routes ← listField v "lifecycles" (readRoute cast)
  match routes with
  | [] => malformed "lifecycles"
  | (first, schema) :: _ => do
    let engine : SaveEngine Draft Stage :=
      ⟨fun i => (routes[i]?.map (·.1)).getD first, behaviour cast.connection⟩
    let scene : SaveScene := { cast, schema, engine, bound }
    let shelf ← accept (← readDrafts cast schema (← field v "models"))
    let turns ← listField v "steps" scene.readStep
    let frame (report : Report) (before after : Session) : Value :=
      .ofFields (reportStep report before after ++ [
        ("states", .strings ((List.range routes.length).map fun i => (after.1.phases i).text)),
        ("models", .array (after.2.map fun d => reportRecord d.record))])
    return .array (Turn.playAll frame turns (cast.session shelf)).1

end RecordStore.Scenario
