import RecordStore.Rehearsal.Stage
import RecordStore.Save.Shelf

/-!
# Scripts

What the code of a model or a unit of work does in a rehearsal is written as a *script*: a list of
steps that are taken in order, up to the first that fails. `Step.program` gives a script its meaning
as a program.

A *draft* is a record with scripts for its own code and its hooks. Each of these places has a list
of scripts, one for each time it is called; called more often, it does nothing.
-/

namespace RecordStore.Rehearsal

mutual

/-- A step of a script. -/
inductive Step where
  /-- Notes a value. -/
  | log (v : Value)
  | fail (e : StoreError)
  /-- Takes a step, notes its outcome, and goes on in any case. -/
  | swallow (step : Step)
  /-- Runs tasks in transactions, with a check before they are committed. -/
  | execute (tasks : List Task) (check : List Step)
  /-- Does something to a line of the stage. -/
  | control (line : Nat) (control : Control)
  /-- Notes the phase of a route. -/
  | phase (route : Option Nat)
  /-- Sets a property of the own model. -/
  | set (name : String) (value : Value)
  /-- Clears the edit flags of the own model. -/
  | clear
  /-- Notes a property of the own model, and what is edited. -/
  | look (name : String)
  /-- Saves the own model. -/
  | saveSelf (route : Option Nat)
  /-- Makes models and saves them. -/
  | saveNew (models : Except StoreError (List Draft)) (route : Option Nat)
  /-- Ends the script: go on. -/
  | proceed
  /-- Ends the script: do not write this model. -/
  | skip
  /-- Ends the script: save these models first. -/
  | add (models : Except StoreError (List Draft))

/-- A unit of work in a script. -/
inductive Task where
  | mk (line : Option Nat) (capability : Option Capability) (body : List Step)

/-- A record with scripts: what its own code and its hooks do, each time they are called. -/
inductive Draft where
  | mk (record : Record) (beforeValidate beforeSave afterSave : List (List Step))
      (hooks : List (List (List Step) × List (List Step)))

end

/-- A list of steps. -/
abbrev Script := List Step

namespace Draft

def record : Draft → Record
  | mk r .. => r

/-- Changes the record of a draft. -/
def setRecord (r : Record) : Draft → Draft
  | mk _ v b a hooks => mk r v b a hooks

/-- The record of a draft, as a part of it. -/
def recordLens : Lens Draft Record where
  get := record
  set := setRecord
  get_set := by rintro r ⟨⟩; rfl
  set_get := by rintro ⟨⟩; rfl
  set_set := by rintro r r' ⟨⟩; rfl

instance : Model Draft where
  schema d := Model.schema d.record
  get? d := Model.get? d.record
  set name value d := (Model.set name value d.record).map (d.setRecord ·)
  isEdited d := Model.isEdited d.record
  edits d := Model.edits d.record
  clearEdits d := d.setRecord (Model.clearEdits d.record)
  restoreEdits names d := d.setRecord (Model.restoreEdits names d.record)
  validate d := Model.validate d.record

/-- A record without scripts. -/
def bare (r : Record) : Draft := mk r [] [] [] []

end Draft

/-- A place in a draft where scripts lie. -/
inductive Cue where
  | beforeValidate
  | beforeSave
  | afterSave
  /-- Before the write, of the hook with this number. -/
  | hookBefore (i : Nat)
  /-- After the write, of the hook with this number. -/
  | hookAfter (i : Nat)
  deriving DecidableEq

namespace Draft

/-- Takes the first of a list, leaving the others. -/
def takeFirst {α : Type} : List (List α) → List α × List (List α)
  | [] => ([], [])
  | first :: rest => (first, rest)

/-- Takes the script that the next call of a place runs. -/
def next (cue : Cue) : Draft → Script × Draft
  | mk r v b a hooks =>
    match cue with
    | .beforeValidate => let (script, v) := takeFirst v; (script, mk r v b a hooks)
    | .beforeSave => let (script, b) := takeFirst b; (script, mk r v b a hooks)
    | .afterSave => let (script, a) := takeFirst a; (script, mk r v b a hooks)
    | .hookBefore i =>
      match hooks[i]? with
      | some (before, after) =>
        let (script, before) := takeFirst before
        (script, mk r v b a (hooks.set i (before, after)))
      | none => ([], mk r v b a hooks)
    | .hookAfter i =>
      match hooks[i]? with
      | some (before, after) =>
        let (script, after) := takeFirst after
        (script, mk r v b a (hooks.set i (before, after)))
      | none => ([], mk r v b a hooks)

def hookCount : Draft → Nat
  | mk _ _ _ _ hooks => hooks.length

end Draft

/-- What a step ended with: an error, nothing in particular, or an outcome that ends the script. -/
abbrev Ending := Except StoreError (Option (Outcome Draft))

namespace Ending

/-- The ending as a plain success or failure. -/
def plain (ending : Ending) : Except StoreError Unit := ending.map fun _ => ()

/-- A plain success or failure as an ending that lets the script go on. -/
def ofPlain (r : Except StoreError Unit) : Ending := r.map fun _ => none

end Ending

section

-- The stage's lines as connections, and the own model of the code if it has one.
variable {α : Type} (connections : Nat → Connection Stage) (own : Option (Lens α Draft))

/-- Acts on the stage alone. -/
def onStage (f : Act Stage Unit) (next : Ending → Program α Draft Stage) :
    Program α Draft Stage :=
  .act (f.zoom .fst) fun r => next (.ofPlain r)

/-- The world with the record of the own model. -/
def ownLens (l : Lens α Draft) : Lens (Stage × α) (Stage × Record) where
  get p := (p.1, Draft.recordLens.get (l.get p.2))
  set q p := (q.1, l.set (Draft.recordLens.set q.2 (l.get p.2)) p.2)
  get_set q p := by simp [l.get_set, Draft.recordLens.get_set]
  set_get p := by simp [l.set_get, Draft.recordLens.set_get]
  set_set q q' p := by simp [l.get_set, l.set_set, Draft.recordLens.set_set]

/-- Acts on the own model and the stage; code without a model does nothing. -/
def onOwn (f : Act (Stage × Record) Unit) (next : Ending → Program α Draft Stage) :
    Program α Draft Stage :=
  match own with
  | some l => .act (f.zoom (ownLens l)) fun r => next (.ofPlain r)
  | none => next (.ok none)

/-- Saves models and notes each of them if that succeeds. -/
def saveAndNote (models : List Draft) (route : Option Nat)
    (next : Ending → Program α Draft Stage) : Program α Draft Stage :=
  .save route (fun _ => models) (fun _ a => a) fun r saved =>
    match r with
    | .error e => next (.error e)
    | .ok _ => onStage (saved.forM fun d => Stage.note (.saved d.record)) next

/-- Saves the own model; code without a model does nothing. -/
def saveOwn (route : Option Nat) (next : Ending → Program α Draft Stage) :
    Program α Draft Stage :=
  match own with
  | some l =>
    .save route (fun a => [l.get a])
      (fun saved a => match saved with
        | d :: _ => l.set d a
        | [] => a)
      fun r _ => next (.ofPlain r)
  | none => next (.ok none)

/-- Notes a property of the own model and its edited properties. -/
def lookAt (name : String) : Act (Stage × Record) Unit := do
  let r ← Act.read (·.2)
  (Stage.note (.look (r.values.getOrNull name) r.edits)).zoom .fst

mutual

/-- What a step does; `next` says how it goes on from the step's ending. -/
def Step.program : Step → (Ending → Program α Draft Stage) → Program α Draft Stage
  | .log v, next => onStage (Stage.note (.log v)) next
  | .fail e, next => next (.error e)
  | .swallow step, next =>
    step.program fun ending =>
      onStage (Stage.note (.swallowed ending.plain)) fun _ => next (.ok none)
  | .execute tasks check, next =>
    let bodies := taskPrograms tasks
    .execute bodies.length (fun i => bodies[i].1) (fun i => bodies[i].2) (scriptProgram check)
      fun r => next (.ofPlain r)
  | .control line control, next => onStage (do let _ ← control.run line) next
  | .phase route, next => .phase route fun s => onStage (Stage.note (.phase s)) next
  | .set name value, next => onOwn own (TableStore.setProperty name value) next
  | .clear, next => onOwn own (Act.change fun (s, r) => (s, Model.clearEdits r)) next
  | .look name, next => onOwn own (lookAt name) next
  | .saveSelf route, next => saveOwn own route next
  | .saveNew (.ok models) route, next => saveAndNote models route next
  | .saveNew (.error e) _, next => next (.error e)
  | .proceed, next => next (.ok (some .proceed))
  | .skip, next => next (.ok (some .skip))
  | .add (.ok models), next => next (.ok (some (.add models)))
  | .add (.error e), next => next (.error e)

/-- What a script does: its steps in order, up to a failure or an outcome. -/
def scriptProgram : Script → Program α Draft Stage
  | [] => .done .proceed
  | step :: rest =>
    step.program fun ending =>
      match ending with
      | .error e => .fail e
      | .ok (some outcome) => .done outcome
      | .ok none => scriptProgram rest

/-- The heads and the bodies of tasks. -/
def taskPrograms : List (Task) → List (Errand Stage × Program α Draft Stage)
  | [] => []
  | .mk line capability body :: rest =>
    let ofLine := if line.isSome then Capability.connected else Capability.plain
    (⟨line.map connections, capability.getD ofLine⟩, scriptProgram body) :: taskPrograms rest

end

end

/-- What a place of a draft does when it is called. -/
def cueProgram (connections : Nat → Connection Stage) (cue : Cue) : Program Draft Draft Stage :=
  .look fun d _ =>
    let (script, d) := d.next cue
    .act (Act.change fun (s, _) => (s, d)) fun _ =>
      scriptProgram connections (some Lens.id) script

/-- What drafts do while they are saved. -/
def behaviour (connections : Nat → Connection Stage) : Behaviour Draft Stage where
  beforeValidate := cueProgram connections .beforeValidate
  beforeSave := cueProgram connections .beforeSave
  afterSave := cueProgram connections .afterSave
  hooks d := (List.range d.hookCount).map fun i =>
    { before := cueProgram connections (.hookBefore i)
      after := cueProgram connections (.hookAfter i) }

/-- The world of a rehearsal: the save in progress on a stage, and a shelf of drafts. -/
abbrev Session := ShelfWorld Draft Stage

/-- Runs a script that belongs to no model. -/
def playScript (connections : Nat → Connection Stage) (saver : Saver Draft Stage)
    (script : Script) : Act Session Unit := do
  let program := scriptProgram connections (none : Option (Lens (List Draft) Draft)) script
  let _ ← program.run saver firstRoute

/-- A task as a unit of work. -/
def Task.workUnit (connections : Nat → Connection Stage) (saver : Saver Draft Stage) :
    Task → WorkUnit Session
  | mk line capability body =>
    let connection := line.map fun i => (connections i).zoom (Lens.fst.comp Saving.worldLens)
    { connection
      capability := capability.getD (if line.isSome then .connected else .plain)
      run := playScript connections saver body }

/-- Makes a connected transaction that runs all units and then all of them again: behind the last of
    the first round stands the second one. -/
def twice {τ : Type} : Assembly τ := fun units => do
  let strands ← Strand.ofUnits units
  let again := strands.flatMap (·.units)
  return .connected (strands.modify (strands.length - 1) fun g =>
    { g with units := g.units ++ again })

/-- Makes no transaction at all. -/
def refuse {τ : Type} : Assembly τ := fun units =>
  .error (.rolledBack s!"refused {units.length}")

end RecordStore.Rehearsal
