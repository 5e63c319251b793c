import RecordStore.TableStore
import RecordStore.Save.Program

/-!
# Saving

A save takes a batch of models through four phases:

1. *validate*: every model's own code before validation, then its validation; nothing has been
   written yet, and no transaction is open;
2. *before-save*: every model's own code and hooks. One of them may have the model skipped, or have
   more models saved first. These are put in front of the batch and it starts again with
   validation; models that went through a phase do not go through it again;
3. *save*: every model is written and its edit flags are cleared;
4. *after-save*: every model's own code and hooks. Edits that they leave are validated and written.

The last three phases are one unit of work on the connection of the route, so any error rolls
all of it back, unless the connection was in a transaction already: then the save joins it. When the
unit fails, each model that was about to be written gets back its key, and the flags of all
properties that were edited before the write or differ from then.

A save that starts while its route is in the after-save phase only validates and writes pending
edits. A save that starts in any other phase runs all phases, after which the outer phase is put
back.

How deep saves may nest and how often a batch may start again is bounded; a save that goes beyond
the bound fails.
-/

namespace RecordStore

/-- A model as it was before it was written: its declared values and its edit flags. -/
structure PriorState where
  values : List (String × Option Value)
  edited : List String
  deriving Inhabited

namespace PriorState

variable {μ : Type} [Model μ]

def ofModel (m : μ) : PriorState where
  values := (Model.schema m).columns.map fun name => (name, Model.get? m name)
  edited := Model.edits m

/-- Equality of values that may be absent. -/
def sameValue : Option Value → Option Value → Bool
  | some v, some w => v == w
  | none, none => true
  | _, _ => false

/-- Puts back one property: a key takes its old value, null for none; another one that differs is
    noted as edited. -/
def restoreOne (sofar : μ × List String) (entry : String × Option Value) : μ × List String :=
  let (m, edited) := sofar
  let (name, before) := entry
  if sameValue (Model.get? m name) before then (m, edited)
  else if (Model.schema m).isKey name then
    match Model.set name (before.getD .null) m with
    | .ok m' => (m', edited)
    | .error _ => (m, edited)
  else if edited.contains name then (m, edited)
  else (m, edited ++ [name])

/-- Puts back the key, and flags what was edited before the write or differs from then. -/
def restore (s : PriorState) (m : μ) : μ :=
  let (m, edited) := s.values.foldl restoreOne (m, s.edited)
  Model.restoreEdits edited m

end PriorState

/-- A model of the batch and how far it has come. -/
structure BatchEntry (μ : Type) where
  model : μ
  isValidated : Bool
  hooksDone : Bool := false
  isSkipped : Bool := false
  /-- What it was before the write, once that has started. -/
  prior : Option PriorState := none

/-- The world of a batch. -/
abbrev BatchWorld (μ σ : Type) := Saving σ × List (BatchEntry μ)

/-- How models are saved: who writes them, and in what transactions. -/
structure SaveRoute (μ σ : Type) where
  writer : ModelWriter μ σ
  scheme : TransactionScheme (BatchWorld μ σ) := .standard

/-- All routes, by their numbers, and what the models do while they are saved. -/
structure SaveEngine (μ σ : Type) where
  routes : Nat → SaveRoute μ σ
  behaviour : Behaviour μ σ

namespace SaveEngine

variable {μ σ : Type} [Model μ]

/-- The error of a save beyond the bound. -/
def boundReached : StoreError :=
  .internal "saves" "saves nest too deep or start again too often"

/-- The model of a batch entry, with the save in progress. -/
def modelLens : Lens (Saving σ × BatchEntry μ) (Saving σ × μ) where
  get p := (p.1, p.2.model)
  set q p := (q.1, { p.2 with model := q.2 })

/-- The world without the phases, with a model. -/
def worldLens : Lens (Saving σ × μ) (σ × μ) where
  get p := (p.1.world, p.2)
  set q p := ({ p.1 with world := q.1 }, q.2)

/-- Checks a model as it stands. -/
def validate : Act (Saving σ × μ) Unit := do
  Act.ofExcept (Model.validate (← Act.read (·.2)))

/-- Writes a model and clears its edit flags. -/
def write (e : SaveEngine μ σ) (route : Nat) : Act (Saving σ × μ) Unit := do
  (e.routes route).writer.write.zoom worldLens
  Act.change fun (s, m) => (s, Model.clearEdits m)

/-- Writes a model if it is edited. -/
def writePending (e : SaveEngine μ σ) (route : Nat) : Act (Saving σ × μ) Unit := do
  if Model.isEdited (← Act.read (·.2)) then
    validate
    e.write route

/-- Runs a model's code before validation, and validates it. -/
def validateModel (e : SaveEngine μ σ) (saver : Saver μ σ) : Act (Saving σ × μ) Unit := do
  let _ ← e.behaviour.beforeValidate.run saver firstRoute
  validate

/-- Runs hooks before the write, up to the first that does not ask to proceed. -/
def runBefore (saver : Saver μ σ) : List (Hook μ σ) → Act (Saving σ × μ) (Outcome μ)
  | [] => pure .proceed
  | hook :: rest => do
    match ← hook.before.run saver firstRoute with
    | .proceed => runBefore saver rest
    | outcome => pure outcome

/-- Runs a model's own code and its hooks before the write. -/
def beforeSave (e : SaveEngine μ σ) (saver : Saver μ σ) : Act (Saving σ × μ) (Outcome μ) := do
  match ← e.behaviour.beforeSave.run saver firstRoute with
  | .proceed => do runBefore saver (e.behaviour.hooks (← Act.read (·.2)))
  | outcome => pure outcome

/-- Runs hooks after the write, handing them the route. -/
def runAfter (saver : Saver μ σ) (route : Nat) : List (Hook μ σ) → Act (Saving σ × μ) Unit
  | [] => pure ()
  | hook :: rest => do
    let _ ← hook.after.run saver route
    runAfter saver route rest

/-- Runs a model's own code and its hooks after the write. -/
def afterSave (e : SaveEngine μ σ) (saver : Saver μ σ) (route : Nat) :
    Act (Saving σ × μ) Unit := do
  let _ ← e.behaviour.afterSave.run saver route
  runAfter saver route (e.behaviour.hooks (← Act.read (·.2)))

/-- Moves the route of a batch forward. -/
def moveTo (route : Nat) (next : SavePhase) : Act (BatchWorld μ σ) Unit :=
  (Saving.moveTo route next).zoom .fst

/-- Validates an entry that was not validated. -/
def validateEntry (e : SaveEngine μ σ) (saver : Saver μ σ) :
    Act (Saving σ × BatchEntry μ) Unit := do
  if !(← Act.read (·.2.isValidated)) then
    (e.validateModel saver).zoom modelLens
    Act.change fun (s, p) => (s, { p with isValidated := true })

/-- Runs what comes before the write for the entries that had no turn, up to the first that asks
    for more models, which are returned. -/
def beforePhase (e : SaveEngine μ σ) (saver : Saver μ σ) :
    List (BatchEntry μ) → Saving σ →
      Except StoreError (Option (List μ)) × Saving σ × List (BatchEntry μ)
  | [], s => (.ok none, s, [])
  | p :: rest, s =>
    if p.hooksDone then
      let (r, s', rest') := beforePhase e saver rest s
      (r, s', p :: rest')
    else
      let (r, s', m) := (e.beforeSave saver).perform (s, p.model)
      let p := { p with model := m, hooksDone := true }
      match r with
      | .error err => (.error err, s', p :: rest)
      | .ok (.add models) => (.ok (some models), s', p :: rest)
      | .ok outcome =>
        let p := match outcome with
          | .skip => { p with isSkipped := true }
          | _ => p
        let (r, s'', rest') := beforePhase e saver rest s'
        (r, s'', p :: rest')

/-- Takes a batch through validation and the hooks before the write, and starts again with more
    models as often as a hook asks for them. -/
def prepare (e : SaveEngine μ σ) (saver : Saver μ σ) (route : Nat) :
    Nat → Act (BatchWorld μ σ) Unit
  | 0 => Act.fail boundReached
  | restarts + 1 => do
    -- The first pass starts in this phase; its models were validated outside the transaction.
    if (← Act.read (·.1.phases route)) ≠ .validate then moveTo route .validate
    Act.forEach (e.validateEntry saver)
    moveTo route .beforeSave
    let added ← Act.make fun (s, batch) => e.beforePhase saver batch s
    match added with
    | none => pure ()
    | some models => do
      Act.change fun (s, batch) =>
        (s.setPhase route .idle, models.map (⟨·, false, false, false, none⟩) ++ batch)
      prepare e saver route restarts

/-- Writes an entry that is not skipped, after noting what it was before. -/
def writeEntry (e : SaveEngine μ σ) (route : Nat) : Act (Saving σ × BatchEntry μ) Unit := do
  if !(← Act.read (·.2.isSkipped)) then
    Act.change fun (s, p) => (s, { p with prior := some (PriorState.ofModel p.model) })
    (e.write route).zoom modelLens

/-- Runs what comes after the write of an entry that is not skipped, and writes the edits that are
    left. -/
def finishEntry (e : SaveEngine μ σ) (saver : Saver μ σ) (route : Nat) :
    Act (Saving σ × BatchEntry μ) Unit := do
  if !(← Act.read (·.2.isSkipped)) then
    (do e.afterSave saver route; e.writePending route : Act (Saving σ × μ) Unit).zoom modelLens

/-- The phases of a batch inside its transaction. -/
def runPhases (e : SaveEngine μ σ) (saver : Saver μ σ) (route bound : Nat) :
    Act (BatchWorld μ σ) Unit := do
  e.prepare saver route (bound + 1)
  moveTo route .save
  Act.forEach (e.writeEntry route)
  moveTo route .afterSave
  Act.forEach (e.finishEntry saver route)

/-- The entry's model, as it was before the write if that had started. -/
def undo (p : BatchEntry μ) : BatchEntry μ :=
  match p.prior with
  | some prior => { p with model := prior.restore p.model, prior := none }
  | none => p

/-- Runs a batch as a unit of work on the route's connection. Added models stand in front of
    the given ones, which come back in their order. -/
def commitBatch (e : SaveEngine μ σ) (saver : Saver μ σ) (route bound : Nat) :
    Act (Saving σ × List μ) Unit :=
  Act.make fun (s, models) =>
    let way := e.routes route
    let batch : List (BatchEntry μ) := models.map (⟨·, true, false, false, none⟩)
    let connection := way.writer.connection.zoom (Lens.fst.comp Saving.worldLens)
    let unit := WorkUnit.connectedTask connection (e.runPhases saver route bound)
    let (r, s', batch') := (way.scheme.execute [unit]).perform (s, batch)
    let batch' := match r with
      | .ok _ => batch'
      | .error _ => batch'.map undo
    (r, s', (batch'.drop (batch'.length - models.length)).map (·.model))

/-- Takes models through all phases. -/
def saveFully (e : SaveEngine μ σ) (saver : Saver μ σ) (route bound : Nat) :
    Act (Saving σ × List μ) Unit := do
  (Saving.moveTo route .validate).zoom .fst
  Act.forEach (e.validateModel saver)
  e.commitBatch saver route bound

/-- One save, given how saves nested in it are done. -/
def saveWith (e : SaveEngine μ σ) (saver : Saver μ σ) (bound route : Nat) :
    Act (Saving σ × List μ) Unit :=
  Act.make fun (s, models) =>
    if s.phases route = .afterSave then (Act.forEach (e.writePending route)).perform (s, models)
    else if models.isEmpty then (.ok (), s, models)
    else
      let (r, s', models') :=
        (e.saveFully saver route bound).perform (s.setPhase route .idle, models)
      (r, s'.setPhase route (s.phases route), models')

/-- Saves models along a route in one transaction. Saves may nest `bound` deep, and a batch
    may start again `bound` times. -/
def save (e : SaveEngine μ σ) : Nat → Saver μ σ
  | 0, _ => Act.fail boundReached
  | bound + 1, route => e.saveWith (save e bound) bound route

end SaveEngine

/-- A route in diagnostics. -/
def SaveRoute.describe {μ σ : Type} (r : SaveRoute μ σ) (phase : SavePhase) : String :=
  Describe.openRecord "SaveLifecycle" [("state", phase.describe), ("factory", r.scheme.describe)]

end RecordStore
