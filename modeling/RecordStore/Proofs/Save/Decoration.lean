import RecordStore.Proofs.Save.Frame

/-!
# Decorated saves

Models can be decorated as well as worlds: with a name, say, under which they are noted. A program
that works on a model in a world also works on the decorated model in the decorated world
(`Program.decorate`), and does the same there (`Program.decorate_decorates`).

So does a whole save. If the stores of an engine decorate those of another one, and the code of its
models theirs, then its saves decorate those of the other one, with all saves that are nested in them
(`SaveEngine.Decorates.save`).
-/

namespace RecordStore

variable {α α' μ μ' σ τ : Type}

/-- Two parts of a pair, one on each side. -/
def Lens.prod (l : Lens τ σ) (l' : Lens α' α) : Lens (τ × α') (σ × α) where
  get p := (l.get p.1, l'.get p.2)
  set q p := (l.set q.1 p.1, l'.set q.2 p.2)
  get_set q p := by simp [l.get_set, l'.get_set]
  set_get p := by simp [l.set_get, l'.set_get]
  set_set q q' p := by simp [l.set_set, l'.set_set]

/-- The outcome with other models. -/
def Outcome.map (f : μ → μ') : Outcome μ → Outcome μ'
  | proceed => .proceed
  | skip => .skip
  | add models => .add (models.map f)

/-- A decorated world with the phases, in view. -/
def Saving.look (view : τ → σ) (s : Saving τ) : Saving σ := ⟨s.phases, view s.world⟩

theorem Saving.look_setPhase (view : τ → σ) (s : Saving τ) (route : Nat) (phase : SavePhase) :
    (s.look view).setPhase route phase = (s.setPhase route phase).look view := rfl

/-- A decorated save in progress with something decorated beside it, in view. -/
def Saving.beside (view : τ → σ) (item : α' → α) (p : Saving τ × α') : Saving σ × α :=
  (p.1.look view, item p.2)

/-- Savers that do the same with decorated models. -/
def Saver.Follows (view : τ → σ) (down : μ' → μ) (saver' : Saver μ' τ) (saver : Saver μ σ) : Prop :=
  ∀ route, (saver' route).Follows (Saving.beside view (List.map down)) (saver route)

/-! ### Programs -/

/-- How the world and the models of a program are decorated. -/
structure Decor (μ' μ τ σ : Type) where
  world : Lens τ σ
  model : Lens μ' μ
  /-- The decoration of a model that comes without one. -/
  fresh : μ → μ'
  get_fresh : ∀ m, model.get (fresh m) = m

namespace Program

/-- A program does the same, given savers that do. -/
def Decorates (view : τ → σ) (down : μ' → μ) (p' : Program μ' μ' τ) (p : Program μ μ σ) : Prop :=
  ∀ saver' saver, Saver.Follows view down saver' saver → ∀ own,
    (p'.run saver' own).Decorates (Saving.beside view down) (Outcome.map down) (p.run saver own)

/-- The program on a decorated model, in a decorated world. -/
def decorate (d : Decor μ' μ τ σ) : Program μ μ σ → Program μ' μ' τ
  | done outcome => done (outcome.map d.fresh)
  | fail e => fail e
  | look next => look fun m t => (next (d.model.get m) (d.world.get t)).decorate d
  | act f next => act (f.zoom (d.world.prod d.model)) fun r => (next r).decorate d
  | phase route next => phase route fun p => (next p).decorate d
  | save route models put next =>
    save route (fun m => (models (d.model.get m)).map d.fresh)
      (fun ms m => d.model.set (put (ms.map d.model.get) (d.model.get m)) m)
      fun r ms => (next r (ms.map d.model.get)).decorate d
  | execute count errands bodies check next =>
    execute count
      (fun i => ⟨(errands i).connection.map (·.zoom d.world), (errands i).capability⟩)
      (fun i => (bodies i).decorate d) (check.decorate d) fun r => (next r).decorate d

variable {d : Decor μ' μ τ σ}

theorem map_fresh (models : List μ) : (models.map d.fresh).map d.model.get = models := by
  simp [Function.comp_def, d.get_fresh]

/-- A decorated program does the same. -/
theorem decorate_decorates (p : Program μ μ σ) :
    (p.decorate d).Decorates d.world.get d.model.get p := by
  intro saver' saver hsaver own
  induction p generalizing own with
  | done outcome =>
    intro t
    cases outcome with
    | proceed | skip => rfl
    | add models =>
      simp only [decorate, run, Act.perform_pure, Except.map, Outcome.map, map_fresh]
  | fail e => exact fun _ => rfl
  | look next ih => exact fun t => ih _ _ own t
  | act f next ih =>
    rintro ⟨s, m⟩
    have hnext := ih (f.perform (d.world.get s.world, d.model.get m)).1 own
      ({ s with world := d.world.set (f.perform (d.world.get s.world, d.model.get m)).2.1 s.world },
        d.model.set (f.perform (d.world.get s.world, d.model.get m)).2.2 m)
    simp only [Saving.beside, Saving.look, d.world.get_set, d.model.get_set] at hnext
    exact hnext
  | phase route next ih => exact fun t => ih _ own t
  | save route models put next ih =>
    rintro ⟨s, m⟩
    have hsave := Act.follows_iff.1 (hsaver (route.getD own))
      (s, (models (d.model.get m)).map d.fresh)
    simp only [Saving.beside, map_fresh] at hsave
    simp only [decorate, run, Act.perform_make, Saving.beside, hsave]
    rcases (saver' (route.getD own)).perform (s, (models (d.model.get m)).map d.fresh) with
      ⟨r, s', ms⟩
    have hnext := ih r (ms.map d.model.get) own
      (s', d.model.set (put (ms.map d.model.get) (d.model.get m)) m)
    simp only [Saving.beside, d.model.get_set] at hnext
    exact hnext
  | execute count errands bodies check next ihBodies ihCheck ihNext =>
    -- Bodies and the check are run for their effect; their outcomes are dropped.
    have hdrop : ∀ {q' : Program μ' μ' τ} {q : Program μ μ σ},
        (q'.run saver' firstRoute).Decorates (Saving.beside d.world.get d.model.get)
          (Outcome.map d.model.get) (q.run saver firstRoute) →
        (do let _ ← q'.run saver' firstRoute : Act (Scope τ μ') Unit).Follows
          (Saving.beside d.world.get d.model.get)
          (do let _ ← q.run saver firstRoute : Act (Scope σ μ) Unit) :=
      fun hq => hq.bind fun _ => Act.decorates_pure ()
    have hunits : List.Forall₂ (WorkUnit.Decorates (Saving.beside d.world.get d.model.get))
        (workUnits (fun i => ⟨(errands i).connection.map (·.zoom d.world), (errands i).capability⟩)
          fun i => do let _ ← ((bodies i).decorate d).run saver' firstRoute)
        (workUnits errands fun i => do let _ ← (bodies i).run saver firstRoute) := by
      rw [workUnits, workUnits, List.forall₂_iff_get]
      refine ⟨by simp, fun i hi hi' => ?_⟩
      simp only [List.get_eq_getElem, List.getElem_ofFn]
      refine ⟨?_, rfl, hdrop (ihBodies _ firstRoute)⟩
      rcases (errands ⟨i, by simpa using hi⟩).connection with _ | c
      · exact .none
      · have hc : (c.zoom ((Lens.fst.comp Saving.worldLens).comp d.world)).Decorates
            (Saving.beside d.world.get d.model.get)
            (c.zoom (Lens.fst.comp Saving.worldLens) : Connection (Scope σ μ)) := by
          apply Connection.zoom_decorates
          · exact fun _ => rfl
          · simp [Lens.comp, Lens.fst, Saving.worldLens, Saving.beside, Saving.look,
              d.world.get_set]
        exact .some hc
    have hchain := Act.follows_iff.1
      (TransactionScheme.standard_decorates (hdrop (ihCheck firstRoute)) hunits)
    intro scope
    simp only [decorate, run, Act.perform_make, hchain]
    exact ihNext _ own _

end Program

/-! ### Engines -/

/-- A model under a decoration is the model, for all that an engine asks of it. -/
structure Model.IsDecorated [Model μ'] [Model μ] (down : μ' → μ) : Prop where
  isEdited : ∀ m, isEdited (down m) = isEdited m
  validate : ∀ m, validate (down m) = validate m
  clearEdits : ∀ m, clearEdits (down m) = down (clearEdits m)
  prior : ∀ m, PriorState.ofModel (down m) = PriorState.ofModel m
  restore : ∀ (p : PriorState) m, p.restore (down m) = down (p.restore m)

/-- The entry with another model. -/
def BatchEntry.map (f : μ' → μ) (p : BatchEntry μ') : BatchEntry μ where
  model := f p.model
  isValidated := p.isValidated
  hooksDone := p.hooksDone
  isSkipped := p.isSkipped
  prior := p.prior

/-- A hook that does the same with decorated models. -/
structure Hook.Decorates (view : τ → σ) (down : μ' → μ) (h' : Hook μ' τ) (h : Hook μ σ) :
    Prop where
  before : h'.before.Decorates view down h.before
  after : h'.after.Decorates view down h.after

/-- An engine that does the same with decorated models. -/
structure SaveEngine.Decorates [Model μ'] [Model μ] (view : τ → σ) (down : μ' → μ)
    (e' : SaveEngine μ' τ) (e : SaveEngine μ σ) : Prop where
  connection : ∀ route,
    (e'.routes route).writer.connection.Decorates view (e.routes route).writer.connection
  write : ∀ route, (e'.routes route).writer.write.Follows (fun p => (view p.1, down p.2))
    (e.routes route).writer.write
  frames : ∃ frames, e'.HasFrames frames ∧ e.HasFrames frames
  beforeValidate :
    e'.behaviour.beforeValidate.Decorates view down e.behaviour.beforeValidate
  beforeSave : e'.behaviour.beforeSave.Decorates view down e.behaviour.beforeSave
  afterSave : e'.behaviour.afterSave.Decorates view down e.behaviour.afterSave
  hooks : ∀ m, List.Forall₂ (Hook.Decorates view down) (e'.behaviour.hooks m)
    (e.behaviour.hooks (down m))
  model : Model.IsDecorated down

namespace SaveEngine

variable {view : τ → σ} {down : μ' → μ} {saver' : Saver μ' τ} {saver : Saver μ σ}

theorem phaseMove_follows (route : Nat) (next : SavePhase) :
    (Saving.moveTo route next).Follows (Saving.look view) (Saving.moveTo route next) := by
  refine Act.follows_iff.2 fun s => ?_
  simp only [Saving.moveTo, Act.perform_make, Saving.look]
  split <;> rfl

theorem moveTo_follows (route : Nat) (next : SavePhase) :
    (moveTo route next : Act (BatchWorld μ' τ) Unit).Follows
      (Saving.beside view (List.map (BatchEntry.map down)))
      (moveTo route next : Act (BatchWorld μ σ) Unit) :=
  (phaseMove_follows route next).zoom (fun _ => rfl) fun _ _ => rfl

theorem runBefore_decorates (hsaver : Saver.Follows view down saver' saver)
    {hooks' : List (Hook μ' τ)} {hooks : List (Hook μ σ)}
    (h : List.Forall₂ (Hook.Decorates view down) hooks' hooks) :
    (runBefore saver' hooks').Decorates (Saving.beside view down) (Outcome.map down)
      (runBefore saver hooks) := by
  induction h with
  | nil => exact Act.decorates_pure Outcome.proceed
  | cons hhook _ ih =>
    refine (hhook.before saver' saver hsaver firstRoute).bind fun outcome => ?_
    cases outcome with
    | proceed => exact ih
    | skip => exact Act.decorates_pure Outcome.skip
    | add models => exact Act.decorates_pure (Outcome.add models)

theorem runAfter_follows (hsaver : Saver.Follows view down saver' saver) (route : Nat)
    {hooks' : List (Hook μ' τ)} {hooks : List (Hook μ σ)}
    (h : List.Forall₂ (Hook.Decorates view down) hooks' hooks) :
    (runAfter saver' route hooks').Follows (Saving.beside view down)
      (runAfter saver route hooks) := by
  induction h with
  | nil => exact Act.decorates_pure ()
  | cons hhook _ ih => exact (hhook.after saver' saver hsaver route).bind fun _ => ih

theorem map_openBatch (models : List μ') :
    (openBatch models).map (BatchEntry.map down) = openBatch (models.map down) := by
  simp only [openBatch, List.map_map, Function.comp_def]
  rfl

theorem map_givenModels (count : Nat) (batch : List (BatchEntry μ')) :
    givenModels count (batch.map (BatchEntry.map down)) = (givenModels count batch).map down := by
  simp only [givenModels, List.length_map, ← List.map_drop, List.map_map]
  rfl

variable [Model μ'] [Model μ] {e' : SaveEngine μ' τ} {e : SaveEngine μ σ}

theorem validate_follows (hmodel : Model.IsDecorated down) :
    (validate : Act (Saving τ × μ') Unit).Follows (Saving.beside view down)
      (validate : Act (Saving σ × μ) Unit) := by
  refine Act.decorates_read_bind fun t => ?_
  change (Act.ofExcept (Model.validate t.2)).Follows _ (Act.ofExcept (Model.validate (down t.2)))
  rw [hmodel.validate]
  exact Act.decorates_ofExcept _

namespace Decorates

variable (h : e'.Decorates view down e)

include h

theorem writeModel (route : Nat) :
    (e'.write route).Follows (Saving.beside view down) (e.write route) := by
  refine Act.Decorates.bind ((h.write route).zoom (fun _ => rfl) fun _ _ => rfl) fun _ => ?_
  exact Act.decorates_change fun t => by simp only [Saving.beside, h.model.clearEdits]

theorem writePending (route : Nat) :
    (e'.writePending route).Follows (Saving.beside view down) (e.writePending route) := by
  refine Act.decorates_read_bind fun t => ?_
  change Act.Follows _ (if Model.isEdited t.2 then _ else _)
    (if Model.isEdited (down t.2) then _ else _)
  rw [h.model.isEdited]
  split
  · exact (validate_follows h.model).bind fun _ => h.writeModel route
  · exact Act.decorates_pure ()

variable (hsaver : Saver.Follows view down saver' saver)

include hsaver

theorem validateModel :
    (e'.validateModel saver').Follows (Saving.beside view down) (e.validateModel saver) :=
  (h.beforeValidate saver' saver hsaver firstRoute).bind fun _ => validate_follows h.model

theorem beforeModel : (e'.beforeSave saver').Decorates (Saving.beside view down)
    (Outcome.map down) (e.beforeSave saver) := by
  refine (h.beforeSave saver' saver hsaver firstRoute).bind fun outcome => ?_
  cases outcome with
  | proceed => exact Act.decorates_read_bind fun t => runBefore_decorates hsaver (h.hooks t.2)
  | skip => exact Act.decorates_pure Outcome.skip
  | add models => exact Act.decorates_pure (Outcome.add models)

theorem afterModel (route : Nat) : (e'.afterSave saver' route).Follows (Saving.beside view down)
    (e.afterSave saver route) :=
  (h.afterSave saver' saver hsaver route).bind fun _ =>
    Act.decorates_read_bind fun t => runAfter_follows hsaver route (h.hooks t.2)

theorem validateEntry : (e'.validateEntry saver').Follows
    (Saving.beside view (BatchEntry.map down)) (e.validateEntry saver) := by
  refine Act.decorates_read_bind fun t => ?_
  change Act.Follows _ (if !t.2.isValidated then _ else _) (if !t.2.isValidated then _ else _)
  split
  · refine Act.Decorates.bind ((h.validateModel hsaver).zoom (fun _ => rfl) fun _ _ => rfl)
      fun _ => ?_
    exact Act.decorates_change fun _ => rfl
  · exact Act.decorates_pure ()

theorem beforePhase (batch : List (BatchEntry μ')) (s : Saving τ) :
    e.beforePhase saver (batch.map (BatchEntry.map down)) (s.look view) =
      ((e'.beforePhase saver' batch s).1.map (Option.map (List.map down)),
        (e'.beforePhase saver' batch s).2.1.look view,
        (e'.beforePhase saver' batch s).2.2.map (BatchEntry.map down)) := by
  induction batch generalizing s with
  | nil => rfl
  | cons p rest ih =>
    rw [List.map_cons, SaveEngine.beforePhase, SaveEngine.beforePhase]
    by_cases hdone : p.hooksDone = true
    · simp only [BatchEntry.map, hdone, if_true, ih, List.map_cons]
    · have hmodel : (e.beforeSave saver).perform (s.look view, down p.model) = _ :=
        h.beforeModel hsaver (s, p.model)
      simp only [BatchEntry.map, hdone, hmodel]
      rcases (e'.beforeSave saver').perform (s, p.model) with ⟨_ | outcome, s', m⟩
      · rfl
      · cases outcome with
        | add models => rfl
        | proceed | skip =>
          have hrest := ih s'
          simp only [Except.map, Outcome.map, Saving.beside, hrest]
          rfl

theorem prepare (route restarts : Nat) : (e'.prepare saver' route restarts).Follows
    (Saving.beside view (List.map (BatchEntry.map down))) (e.prepare saver route restarts) := by
  induction restarts with
  | zero => exact Act.decorates_fail _
  | succ restarts ih =>
    refine Act.decorates_read_bind fun t => ?_
    -- What follows on the move to validation, if there is one.
    extract_lets rest' rest
    have hrest : ∀ r, (rest' r).Follows (Saving.beside view (List.map (BatchEntry.map down)))
        (rest r) := by
      intro r
      refine Act.Decorates.bind (h.validateEntry hsaver).forEach fun _ =>
        (moveTo_follows route _).bind fun _ => ?_
      refine @Act.Decorates.bind _ _ _ _ _ _ _ (Option.map (List.map down)) _ _ _ _ _
        (fun t => h.beforePhase hsaver t.2 t.1) fun added => ?_
      cases added with
      | none => exact Act.decorates_pure ()
      | some models =>
        refine Act.Decorates.bind (Act.decorates_change fun t => ?_) fun _ => ih
        simp [Saving.beside, Saving.look, Saving.setPhase, BatchEntry.map, Function.comp_def]
    change Act.Follows _ (if t.1.phases route ≠ .validate then _ else _)
      (if t.1.phases route ≠ .validate then _ else _)
    split
    · exact (moveTo_follows route _).bind hrest
    · exact hrest ()

theorem finishEntry (route : Nat) : (e'.finishEntry saver' route).Follows
    (Saving.beside view (BatchEntry.map down)) (e.finishEntry saver route) := by
  refine Act.decorates_read_bind fun t => ?_
  change Act.Follows _ (if !t.2.isSkipped then _ else _) (if !t.2.isSkipped then _ else _)
  split
  · exact ((h.afterModel hsaver route).bind fun _ => h.writePending route).zoom (fun _ => rfl)
      fun _ _ => rfl
  · exact Act.decorates_pure ()

omit hsaver in
theorem writeEntry (route : Nat) : (e'.writeEntry route).Follows
    (Saving.beside view (BatchEntry.map down)) (e.writeEntry route) := by
  refine Act.decorates_read_bind fun t => ?_
  change Act.Follows _ (if !t.2.isSkipped then _ else _) (if !t.2.isSkipped then _ else _)
  split
  · refine Act.Decorates.bind (Act.decorates_change fun t => ?_) fun _ => ?_
    · simp only [Saving.beside, BatchEntry.map, h.model.prior]
    · exact (h.writeModel route).zoom (fun _ => rfl) fun _ _ => rfl
  · exact Act.decorates_pure ()

theorem runPhases (route bound : Nat) : (e'.runPhases saver' route bound).Follows
    (Saving.beside view (List.map (BatchEntry.map down))) (e.runPhases saver route bound) :=
  (h.prepare hsaver route (bound + 1)).bind fun _ => (moveTo_follows route _).bind fun _ =>
    (h.writeEntry route).forEach.bind fun _ => (moveTo_follows route _).bind fun _ =>
      (h.finishEntry hsaver route).forEach

omit hsaver in
theorem map_closeBatch (r : Except StoreError Unit) (batch : List (BatchEntry μ')) :
    closeBatch r (batch.map (BatchEntry.map down)) =
      (closeBatch r batch).map (BatchEntry.map down) := by
  have hundo : ∀ p : BatchEntry μ', undo (p.map down) = (undo p).map down := by
    intro p
    rcases hprior : p.prior with _ | prior <;>
      simp only [undo, BatchEntry.map, hprior, h.model.restore]
  cases r with
  | ok => rfl
  | error => simp only [closeBatch, List.map_map, Function.comp_def, hundo]

theorem runBatch (frame : Frame) (route bound : Nat) :
    (e'.runBatch frame saver' route bound).Follows
      (Saving.beside view (List.map (BatchEntry.map down)))
      (e.runBatch frame saver route bound) :=
  frame.enclose_follows ((h.connection route).zoom (fun _ => rfl) fun _ _ => rfl)
    (h.runPhases hsaver route bound)

theorem commitBatch (route bound : Nat) : (e'.commitBatch saver' route bound).Follows
    (Saving.beside view (List.map down)) (e.commitBatch saver route bound) := by
  obtain ⟨frames, hframes', hframes⟩ := h.frames
  refine Act.follows_iff.2 fun ⟨s, models⟩ => ?_
  have hrun := Act.follows_iff.1 (h.runBatch hsaver (frames route) route bound)
    (s, openBatch models)
  rcases hrun' : (e'.runBatch (frames route) saver' route bound).perform (s, openBatch models) with
    ⟨r, s', batch⟩
  rw [hrun', Saving.beside, map_openBatch] at hrun
  rw [perform_commitBatch hframes' hrun']
  refine (perform_commitBatch hframes hrun).trans ?_
  simp only [Saving.beside, List.length_map, h.map_closeBatch, map_givenModels]

theorem saveWith (bound route : Nat) : (e'.saveWith saver' bound route).Follows
    (Saving.beside view (List.map down)) (e.saveWith saver bound route) := by
  have hpending := Act.follows_iff.1 (h.writePending route).forEach
  have hfully : (e'.saveFully saver' route bound).Follows (Saving.beside view (List.map down))
      (e.saveFully saver route bound) := by
    have hmove : ((Saving.moveTo route .validate).zoom .fst : Act (Saving τ × List μ') Unit).Follows
        (Saving.beside view (List.map down))
        ((Saving.moveTo route .validate).zoom .fst : Act (Saving σ × List μ) Unit) :=
      (phaseMove_follows route .validate).zoom (fun _ => rfl) fun _ _ => rfl
    exact hmove.bind fun _ => (h.validateModel hsaver).forEach.bind fun _ =>
      h.commitBatch hsaver route bound
  refine Act.follows_iff.2 fun ⟨s, models⟩ => ?_
  have hfully := Act.follows_iff.1 hfully (s.setPhase route .idle, models)
  simp only [Saving.beside] at hpending hfully ⊢
  simp only [SaveEngine.saveWith, Act.perform_make, List.isEmpty_map]
  change (if s.phases route = .afterSave then _ else _) = _
  split
  · exact hpending (s, models)
  · split
    · rfl
    · simp only [Saving.look_setPhase, hfully]
      rfl

omit hsaver in
/-- The saves of an engine do the same with decorated models. -/
theorem save (bound : Nat) : Saver.Follows view down (e'.save bound) (e.save bound) := by
  induction bound with
  | zero => exact fun _ => Act.decorates_fail _
  | succ bound ih => exact fun route => h.saveWith ih bound route

end Decorates

end SaveEngine

end RecordStore
