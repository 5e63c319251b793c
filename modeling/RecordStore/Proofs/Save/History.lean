import RecordStore.Proofs.Save.Programs

/-!
# The history of a save

To say in which order things happen in a save, it is run with models that have *names*, in a world
with a *history* beside it. An entry is made there whenever code of a model has run to its end, and
whenever a write starts (`SaveEngine.recorded`). A recorded save does what the save does
(`SaveEngine.perform_save_eq`), so its history is that of the save.

The models given to a save are named by their places. A model that a hook adds is named after the
model whose hook it is. Models of a save that is started by code go by the name of `nested`.
-/

namespace RecordStore

variable {μ σ : Type}

/-- The name of a model in a save. -/
inductive ModelName where
  | given (i : Nat)
  /-- Added by code of another model. -/
  | added (asker : ModelName) (i : Nat)
  | nested
  deriving DecidableEq

/-- A model with a name. -/
structure Named (μ : Type) where
  name : ModelName
  model : μ

/-- A place where code of a model runs; hooks are numbered. -/
inductive Place where
  | beforeValidate
  | beforeSave
  | hookBefore (i : Nat)
  | afterSave
  | hookAfter (i : Nat)
  deriving DecidableEq

/-- What happens in a save. -/
inductive Happening (μ : Type) where
  /-- Code has run, with this outcome, and left its model so. -/
  | ran (place : Place) (name : ModelName) (outcome : Outcome μ) (left : μ)
  /-- A write has started on this model. -/
  | wrote (name : ModelName) (before : μ)

/-- A world with a history. -/
abbrev Recorded (μ σ : Type) := σ × List (Happening μ)

/-- The model a happening is about. -/
def Happening.name : Happening μ → ModelName
  | ran _ name _ _ => name
  | wrote name _ => name

/-- Names models after the one whose code asked for them. -/
def Named.added (asker : ModelName) (models : List μ) : List (Named μ) :=
  models.mapIdx fun i m => ⟨.added asker i, m⟩

/-- Names the models of an outcome after the one whose code asked for them. -/
def Outcome.named (asker : ModelName) : Outcome μ → Outcome (Named μ)
  | proceed => .proceed
  | skip => .skip
  | add models => .add (Named.added asker models)

namespace Named

def modelLens : Lens (Named μ) μ where
  get m := m.model
  set model m := { m with model }

/-- Names the models that are given to a save. -/
def given (models : List μ) : List (Named μ) := models.mapIdx fun i m => ⟨.given i, m⟩

instance [Model μ] : Model (Named μ) where
  schema m := Model.schema m.model
  get? m := Model.get? m.model
  set name value m := (Model.set name value m.model).map (⟨m.name, ·⟩)
  isEdited m := Model.isEdited m.model
  edits m := Model.edits m.model
  clearEdits m := ⟨m.name, Model.clearEdits m.model⟩
  restoreEdits names m := ⟨m.name, Model.restoreEdits names m.model⟩
  validate m := Model.validate m.model

/-- Models with names in a world with a history. -/
def decor : Decor (Named μ) μ (Recorded μ σ) σ where
  world := .fst
  model := modelLens
  fresh m := ⟨.nested, m⟩
  get_fresh _ := rfl

/-- Makes an entry about a model. -/
def note (entry : Named μ → Happening μ) : Act (Recorded μ σ × Named μ) Unit :=
  Act.change fun (w, m) => ((w.1, w.2 ++ [entry m]), m)

end Named

/-- The program with an entry at its end. -/
def Program.recorded (place : Place) (p : Program μ μ σ) :
    Program (Named μ) (Named μ) (Recorded μ σ) :=
  (p.decorate Named.decor).andThen fun outcome =>
    let outcome := outcome.map (·.model)
    .act (Named.note fun m => .ran place m.name outcome m.model) fun _ =>
      .look fun m _ => .done (outcome.named m.name)

/-- The hook of this number, with entries at the end of its code. -/
def Hook.recorded (i : Nat) (hook : Hook μ σ) : Hook (Named μ) (Recorded μ σ) where
  before := hook.before.recorded (.hookBefore i)
  after := hook.after.recorded (.hookAfter i)

/-- The writer with an entry at the start of each write. -/
def ModelWriter.recorded (w : ModelWriter μ σ) : ModelWriter (Named μ) (Recorded μ σ) where
  connection := w.connection.zoom .fst
  write := do
    Named.note fun m => .wrote m.name m.model
    w.write.zoom (Lens.fst.prod Named.modelLens)

namespace SaveEngine

/-- The engine with a history, and with these frames. -/
def recorded (e : SaveEngine μ σ) (frames : Nat → Frame) : SaveEngine (Named μ) (Recorded μ σ) where
  routes route := {
    writer := (e.routes route).writer.recorded
    scheme := .ofFrame (frames route) }
  behaviour := {
    beforeValidate := e.behaviour.beforeValidate.recorded .beforeValidate
    beforeSave := e.behaviour.beforeSave.recorded .beforeSave
    afterSave := e.behaviour.afterSave.recorded .afterSave
    hooks := fun m => (e.behaviour.hooks m.model).mapIdx Hook.recorded }

end SaveEngine

theorem SaveEngine.recorded_hasFrames {e : SaveEngine μ σ} {frames : Nat → Frame} :
    (e.recorded frames).HasFrames frames :=
  fun route => TransactionScheme.ofFrame_frames (frames route)

/-- The save in progress with a history that is still empty. -/
def Saving.recorded (s : Saving σ) : Saving (Recorded μ σ) := ⟨s.phases, (s.world, [])⟩

/-- What has happened so far. -/
abbrev Saving.history (s : Saving (Recorded μ σ)) : List (Happening μ) := s.world.2

/-! ### What is recorded is what happens -/

/-- Under their names are the models themselves. -/
theorem Named.map_model_mapIdx (naming : Nat → ModelName) (models : List μ) :
    (models.mapIdx fun i m => (⟨naming i, m⟩ : Named μ)).map (·.model) = models :=
  List.ext_getElem (by simp) (by simp)

theorem Outcome.map_named (asker : ModelName) (outcome : Outcome μ) :
    (outcome.named asker).map (·.model) = outcome := by
  cases outcome with
  | proceed | skip => rfl
  | add models => exact congrArg Outcome.add (Named.map_model_mapIdx _ models)

namespace Named

variable [Model μ]

theorem restoreOne_eq (name : ModelName) (sofar : μ × List String)
    (entry : String × Option Value) :
    PriorState.restoreOne (⟨name, sofar.1⟩, sofar.2) entry =
      ((⟨name, (PriorState.restoreOne sofar entry).1⟩ : Named μ),
        (PriorState.restoreOne sofar entry).2) := by
  obtain ⟨m, edited⟩ := sofar
  obtain ⟨property, before⟩ := entry
  have hset : Model.set property (before.getD .null) (⟨name, m⟩ : Named μ) =
      (Model.set property (before.getD .null) m).map (Named.mk name) := rfl
  have hget : Model.get? (⟨name, m⟩ : Named μ) = Model.get? m := rfl
  have hschema : Model.schema (⟨name, m⟩ : Named μ) = Model.schema m := rfl
  simp only [PriorState.restoreOne, hset, hget, hschema]
  split
  · rfl
  · split
    · rcases Model.set property (before.getD .null) m with _ | _ <;> rfl
    · split <;> rfl

theorem restore_eq (p : PriorState) (m : Named μ) :
    p.restore m = ⟨m.name, p.restore m.model⟩ := by
  have hfold := @List.foldl_hom _ _ _ (fun q : μ × List String => ((⟨m.name, q.1⟩ : Named μ), q.2))
    PriorState.restoreOne PriorState.restoreOne p.values (m.model, p.edited)
    fun q entry => restoreOne_eq m.name q entry
  simp only [PriorState.restore]
  rw [show ((m, p.edited) : Named μ × List String) = (⟨m.name, m.model⟩, p.edited) from rfl, hfold]
  rfl

theorem isDecorated : Model.IsDecorated (Named.model (μ := μ)) where
  isEdited _ := rfl
  validate _ := rfl
  clearEdits _ := rfl
  prior _ := rfl
  restore p m := by rw [restore_eq]

end Named

theorem Program.recorded_decorates (place : Place) (p : Program μ μ σ) :
    (p.recorded place).Decorates Prod.fst Named.model p := by
  intro saver' saver hsaver own
  rw [recorded, run_andThen, ← bind_pure (p.run saver own)]
  refine (p.decorate_decorates (d := Named.decor) saver' saver hsaver own).bind fun outcome => ?_
  intro t
  simp only [run, Act.perform_make, Act.perform_pure, Except.map, Outcome.map_named]
  rfl

theorem ModelWriter.recorded_follows (w : ModelWriter μ σ) :
    w.recorded.write.Follows (fun p => (p.1.1, p.2.model)) w.write := by
  refine Act.follows_iff.2 fun ⟨⟨s, es⟩, m⟩ => ?_
  simp only [recorded, Act.perform_bind]
  rfl

namespace SaveEngine

variable [Model μ] {e : SaveEngine μ σ} {frames : Nat → Frame}

/-- A recorded engine does the same. -/
theorem recorded_decorates (hframes : e.HasFrames frames) :
    (e.recorded frames).Decorates Prod.fst Named.model e where
  connection _ := {
    sameId := rfl
    inTransaction := fun _ => rfl
    begin := Act.follows_iff.2 fun _ => rfl
    commit := Act.follows_iff.2 fun _ => rfl
    rollback := Act.follows_iff.2 fun _ => rfl }
  write route := (e.routes route).writer.recorded_follows
  frames := ⟨frames, fun route => TransactionScheme.ofFrame_frames (frames route), hframes⟩
  beforeValidate := Program.recorded_decorates _ _
  beforeSave := Program.recorded_decorates _ _
  afterSave := Program.recorded_decorates _ _
  hooks m := by
    rw [List.forall₂_iff_get]
    refine ⟨by simp [recorded], fun i _ _ => ?_⟩
    simp only [recorded, List.get_eq_getElem, List.getElem_mapIdx]
    exact ⟨Program.recorded_decorates _ _, Program.recorded_decorates _ _⟩
  model := Named.isDecorated

/-- A recorded save does what the save does. -/
theorem perform_save_eq (hframes : e.HasFrames frames) (bound route : Nat) (s : Saving σ)
    (models : List μ) :
    (e.save bound route).perform (s, models) =
      let out := ((e.recorded frames).save bound route).perform (s.recorded, Named.given models)
      (out.1, out.2.1.look Prod.fst, out.2.2.map (·.model)) := by
  have hsave := Act.follows_iff.1 ((recorded_decorates hframes).save bound route)
    (s.recorded, Named.given models)
  rw [Saving.beside, Named.given, Named.map_model_mapIdx] at hsave
  exact hsave

/-- So does a save whose batch may start again a number of times of its own. -/
theorem perform_saveWith_eq (hframes : e.HasFrames frames) (depth bound route : Nat)
    (s : Saving σ) (models : List μ) :
    (e.saveWith (e.save depth) bound route).perform (s, models) =
      let out := ((e.recorded frames).saveWith ((e.recorded frames).save depth) bound route).perform
        (s.recorded, Named.given models)
      (out.1, out.2.1.look Prod.fst, out.2.2.map (·.model)) := by
  have hdecorates := recorded_decorates hframes
  have hsave := Act.follows_iff.1 (hdecorates.saveWith (hdecorates.save depth) bound route)
    (s.recorded, Named.given models)
  rw [Saving.beside, Named.given, Named.map_model_mapIdx] at hsave
  exact hsave

/-- What happens in a save. -/
def history (e : SaveEngine μ σ) (frames : Nat → Frame) (bound route : Nat) (s : Saving σ)
    (models : List μ) : List (Happening μ) :=
  (((e.recorded frames).save bound route).perform (s.recorded, Named.given models)).2.1.history

/-- The batch at the end of a save, with the names of its models. -/
def finalBatch (e : SaveEngine μ σ) (frames : Nat → Frame) (bound route : Nat) (s : Saving σ)
    (models : List μ) : List (BatchEntry (Named μ)) :=
  (e.recorded frames).lastBatch (frames route) bound route s.recorded (Named.given models)

/-- The models that a save returns are the given ones of its batch. -/
theorem save_finalBatch (hframes : e.HasFrames frames) (bound : Nat) {route : Nat} {s : Saving σ}
    (hphase : s.phases route ≠ .afterSave) (models : List μ) :
    ((e.save bound route).perform (s, models)).2.2 =
      (givenModels models.length (e.finalBatch frames bound route s models)).map (·.model) := by
  have hlast := save_lastBatch (e := e.recorded frames)
    (fun route => TransactionScheme.ofFrame_frames (frames route)) bound (s := s.recorded) hphase
    (Named.given models)
  rw [perform_save_eq hframes, finalBatch]
  dsimp only
  rw [hlast, show (Named.given models).length = models.length from List.length_mapIdx]

end SaveEngine

end RecordStore
