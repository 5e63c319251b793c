import RecordStore.Proofs.Save.Frame
import RecordStore.Proofs.TableStore

/-!
# Saves without hooks

Models without code of their own and without hooks go through a save unseen: validation only checks
them, nothing is added to their batch and nothing skipped, and nothing is left to write after the
write. So a batch of records that is taken through its phases comes to what the writes of its records
come to, one after the other (`SaveEngine.perform_runPhases`).
-/

namespace RecordStore.SaveEngine

variable {μ σ : Type} [Model μ] {e : SaveEngine μ σ} (hhookless : e.behaviour = {})
  (saver : Saver μ σ) (route : Nat)

/-- The entry of a model that is to be written next. -/
def ready (m : μ) : BatchEntry μ := ⟨m, true, true, false, none⟩

omit [Model μ] in
/-- A route moves forward beside a batch. -/
theorem perform_moveTo {s : Saving σ} {next : SavePhase}
    (h : (s.phases route).precedes next = true) (batch : List (BatchEntry μ)) :
    (moveTo route next : Act (BatchWorld μ σ) Unit).perform (s, batch) =
      (.ok (), s.setPhase route next, batch) := by
  rw [moveTo, Act.perform_zoom]
  simp only [Lens.fst, Saving.perform_moveTo h]

include hhookless

theorem perform_validateModel (s : Saving σ) (m : μ) :
    (e.validateModel saver).perform (s, m) = (Model.validate m, s, m) := by
  rw [validateModel, hhookless]
  rfl

/-- Validating models touches nothing, and comes to the first error. -/
theorem forEach_validateModel (s : Saving σ) (models : List μ) :
    (Act.forEach (e.validateModel saver)).perform (s, models) =
      (forM models Model.validate, s, models) := by
  rw [Act.forEach, Act.perform_make]
  induction models with
  | nil => rfl
  | cons m rest ih =>
    rw [Act.each, perform_validateModel hhookless, List.forM_cons]
    rcases Model.validate m with err | _
    · rfl
    · dsimp only at ih ⊢
      rw [ih]
      rfl

omit [Model μ] in
theorem perform_beforeSave (s : Saving σ) (m : μ) :
    (e.beforeSave saver).perform (s, m) = (.ok .proceed, s, m) := by
  rw [beforeSave, hhookless]
  rfl

omit [Model μ] in
theorem perform_afterSave (s : Saving σ) (m : μ) :
    (e.afterSave saver route).perform (s, m) = (.ok (), s, m) := by
  rw [afterSave, hhookless]
  rfl

omit [Model μ] in
theorem beforePhase_openBatch (models : List μ) (s : Saving σ) :
    e.beforePhase saver (openBatch models) s = (.ok none, s, models.map ready) := by
  induction models with
  | nil => rfl
  | cons m rest ih =>
    simp only [openBatch, List.map_cons] at ih ⊢
    rw [beforePhase]
    simp only [Bool.false_eq_true, if_false, perform_beforeSave hhookless, ih]
    rfl

omit hhookless in
theorem each_validateEntry_openBatch (models : List μ) (s : Saving σ) :
    Act.each (e.validateEntry saver) (openBatch models) s = (.ok (), s, openBatch models) := by
  induction models with
  | nil => rfl
  | cons m rest ih =>
    have hone : (e.validateEntry saver).perform (s, ⟨m, true, false, false, none⟩) =
        (.ok (), s, ⟨m, true, false, false, none⟩) := rfl
    simp only [openBatch, List.map_cons, Act.each, hone] at ih ⊢
    rw [ih]

/-- A batch in its validation phase is ready to be written at once. -/
theorem perform_prepare {s : Saving σ} (hphase : s.phases route = .validate) (models : List μ)
    (restarts : Nat) :
    (e.prepare saver route (restarts + 1)).perform (s, openBatch models) =
      (.ok (), s.setPhase route .beforeSave, models.map ready) := by
  have hprecedes : (s.phases route).precedes .beforeSave = true := by rw [hphase]; rfl
  have hmove := perform_moveTo route hprecedes (openBatch models)
  rw [prepare, Act.perform_bind, Act.perform_read]
  simp only [hphase, ne_eq, not_true_eq_false, if_false, Act.perform_bind, Act.forEach,
    Act.perform_make, each_validateEntry_openBatch, hmove, beforePhase_openBatch hhookless]
  rfl

/-- Nothing is left to do for a model that is not edited after its write. -/
theorem perform_finishEntry_of_unedited {p : BatchEntry μ} (hp : Model.isEdited p.model = false)
    (s : Saving σ) : (e.finishEntry saver route).perform (s, p) = (.ok (), s, p) := by
  rw [perform_finishEntry]
  split
  · rfl
  · simp only [Act.perform_bind, perform_afterSave hhookless, perform_writePending, hp,
      Bool.false_eq_true, if_false]

theorem each_finishEntry_unedited {batch : List (BatchEntry μ)}
    (hbatch : ∀ p ∈ batch, Model.isEdited p.model = false) (s : Saving σ) :
    Act.each (e.finishEntry saver route) batch s = (.ok (), s, batch) := by
  induction batch with
  | nil => rfl
  | cons p rest ih =>
    obtain ⟨hp, hrest⟩ := List.forall_mem_cons.1 hbatch
    rw [Act.each, perform_finishEntry_of_unedited hhookless saver route hp]
    dsimp only
    rw [ih hrest]

omit hhookless in
/-- The write of an entry that is ready. -/
theorem perform_writeReady (s : Saving σ) (m : μ) :
    (e.writeEntry route).perform (s, ready m) =
      let out := (e.routes route).writer.write.perform (s.world, m)
      (out.1, { s with world := out.2.1 }, {
        ready (if out.1.isOk then Model.clearEdits out.2.2 else out.2.2) with
          prior := some (PriorState.ofModel m) }) := by
  rw [perform_writeEntry, write, Act.perform_bind, Act.perform_zoom]
  simp only [ready, Bool.false_eq_true, if_false, worldLens]
  rcases (e.routes route).writer.write.perform (s.world, m) with ⟨_ | _, w, m'⟩ <;> rfl

omit hhookless in
/-- Writes leave all phases as they are, and what they have written is not edited. -/
theorem each_writeEntry_unedited (hclear : ∀ m : μ, Model.isEdited (Model.clearEdits m) = false)
    (models : List μ) (s : Saving σ) :
    let out := Act.each (e.writeEntry route) (models.map ready) s
    out.2.1.phases = s.phases ∧ (out.1 = .ok () → ∀ p ∈ out.2.2, Model.isEdited p.model = false) := by
  induction models generalizing s with
  | nil => exact ⟨rfl, fun _ _ hp => absurd hp List.not_mem_nil⟩
  | cons m rest ih =>
    simp only [List.map_cons, Act.each, perform_writeReady]
    rcases (e.routes route).writer.write.perform (s.world, m) with ⟨_ | _, w, m'⟩
    · exact ⟨rfl, fun h => by cases h⟩
    · obtain ⟨hphases, hunedited⟩ := ih { s with world := w }
      exact ⟨hphases, fun h => List.forall_mem_cons.2 ⟨hclear m', hunedited h⟩⟩

/-- A batch comes to what the writes of its models come to, if a write leaves no edits. -/
theorem perform_runPhases (hclear : ∀ m : μ, Model.isEdited (Model.clearEdits m) = false)
    {s : Saving σ} (hphase : s.phases route = .validate) (models : List μ) (bound : Nat) :
    let written := Act.each (e.writeEntry route) (models.map ready) (s.setPhase route .save)
    let out := (e.runPhases saver route bound).perform (s, openBatch models)
    out.1 = written.1 ∧ out.2.1.world = written.2.1.world ∧ out.2.2 = written.2.2 := by
  have hsave : (moveTo route .save).perform (s.setPhase route .beforeSave, models.map ready) =
      (.ok (), s.setPhase route .save, models.map ready) := by
    rw [perform_moveTo route (by rw [Saving.phases_setPhase]; rfl), Saving.setPhase_setPhase]
  obtain ⟨hkept, hunedited⟩ := each_writeEntry_unedited (e := e) route hclear models (s.setPhase route .save)
  simp only [runPhases, Act.perform_bind, perform_prepare hhookless saver route hphase, hsave]
  simp only [Act.forEach, Act.perform_make]
  rcases hwritten : Act.each (e.writeEntry route) (models.map ready) (s.setPhase route .save) with
    ⟨err | _, s', batch'⟩ <;> rw [hwritten] at hkept hunedited
  · exact ⟨rfl, rfl, rfl⟩
  · have hprecedes : (s'.phases route).precedes .afterSave = true := by
      rw [hkept, Saving.phases_setPhase]
      rfl
    have hafter := perform_moveTo route hprecedes batch'
    simp only [hafter, each_finishEntry_unedited hhookless saver route (hunedited rfl), Saving.setPhase,
      and_self]

end RecordStore.SaveEngine
