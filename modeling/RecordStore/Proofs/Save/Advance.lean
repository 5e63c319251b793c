import RecordStore.Proofs.Save.Stability

/-!
# Moving forward

A save moves the phase of its route forward, and a move that is not forward is refused. Saves nest
in each other along the same route, hooks send batches back to their start, and units of work are
run in transactions, all on one phase; still no move is ever refused. To say so, the moves are made
a parameter: a *mover* goes forward where it may, and does as it likes where the move would be
refused. A save by any mover is the same save (`SaveEngine.saveBy_eq_save`), so what is done about
refused moves is never done.

That holds along routes whose batches go through their phases once, as they do in the transactions
that are made of a unit on its connection and in those that only run it (`Frame.IsOrdinary`). A
transaction that repeats its units would be refused (`SaveEngine.runPhases_of_afterSave`).
-/

namespace RecordStore

variable {μ σ τ γ : Type}

/-- Does what `Saving.moveTo` does where that succeeds, and anything where it is refused. -/
def IsMover (route : Nat) (move : SavePhase → Act (Saving σ) Unit) : Prop :=
  ∀ next s, (s.phases route).precedes next = true →
    (move next).perform s = (.ok (), s.setPhase route next)

theorem isMover_moveTo (route : Nat) :
    IsMover route (Saving.moveTo route : SavePhase → Act (Saving σ) Unit) :=
  fun _ _ h => Saving.perform_moveTo h

/-- A mover goes forward beside anything. -/
theorem IsMover.perform_zoom {route : Nat} {move : SavePhase → Act (Saving σ) Unit}
    (hmove : IsMover route move) {next : SavePhase} {s : Saving σ} {β : Type} (b : β)
    (h : (s.phases route).precedes next = true) :
    ((move next).zoom .fst : Act (Saving σ × β) Unit).perform (s, b) =
      (.ok (), s.setPhase route next, b) := by
  rw [Act.perform_zoom]
  simp only [Lens.fst, hmove next s h]

theorem Saving.setPhase_self (s : Saving σ) (route : Nat) :
    s.setPhase route (s.phases route) = s := by
  simp only [setPhase]
  congr
  funext i
  split
  next h => rw [h]
  next => rfl

/-- A transaction that runs its unit once, on its connection or by itself. -/
def Frame.IsOrdinary (frame : Frame) : Prop := frame = .connected 1 ∨ frame = .plain

/-- In a frame that runs its body once, the body only matters in worlds that the control calls of
    the connection lead to. -/
theorem Frame.IsOrdinary.enclose_congr {frame : Frame} (h : frame.IsOrdinary) {c : Connection τ}
    {part : τ → γ} (hc : c.Moves Eq part) {body body' : Act τ Unit} {t : τ}
    (hbody : ∀ t', part t' = part t → body'.perform t' = body.perform t') :
    (frame.enclose c body').perform t = (frame.enclose c body).perform t := by
  rcases h with rfl | rfl
  · have honce : ∀ body : Act τ Unit, Act.times 1 body = body := fun body => bind_pure_unit
    simp only [enclose, Act.perform_make, honce]
    rw [hbody t rfl]
    rcases hf : c.begin.perform t with ⟨_ | _, t₁⟩
    · rfl
    · have hbegin := hc.begin t
      rw [hf] at hbegin
      simp only [hbody t₁ hbegin.symm]
  · exact hbody t rfl

namespace SaveEngine

variable [Model μ] {e : SaveEngine μ σ}

/-! ### Saves by a mover -/

section By

variable (e) (move : SavePhase → Act (Saving σ) Unit)

/-- What `prepare` does from validation on, by a mover, given how the batch starts again. -/
def passBy (saver : Saver μ σ) (route : Nat) (again : Act (BatchWorld μ σ) Unit) :
    Act (BatchWorld μ σ) Unit := do
  Act.forEach (e.validateEntry saver)
  (move .beforeSave).zoom .fst
  let added ← Act.make fun (s, batch) => e.beforePhase saver batch s
  match added with
  | none => pure ()
  | some models => do
    Act.change fun (s, batch) =>
      (s.setPhase route .idle, models.map (⟨·, false, false, false, none⟩) ++ batch)
    again

/-- `prepare`, by a mover. -/
def prepareBy (saver : Saver μ σ) (route : Nat) : Nat → Act (BatchWorld μ σ) Unit
  | 0 => Act.fail boundReached
  | restarts + 1 => do
    if (← Act.read (·.1.phases route)) ≠ .validate then (move .validate).zoom .fst
    e.passBy move saver route (prepareBy saver route restarts)

/-- `runPhases`, by a mover. -/
def runPhasesBy (saver : Saver μ σ) (route bound : Nat) : Act (BatchWorld μ σ) Unit := do
  e.prepareBy move saver route (bound + 1)
  (move .save).zoom .fst
  Act.forEach (e.writeEntry route)
  (move .afterSave).zoom .fst
  Act.forEach (e.finishEntry saver route)

/-- `commitBatch`, by a mover. -/
def commitBatchBy (saver : Saver μ σ) (route bound : Nat) : Act (Saving σ × List μ) Unit :=
  Act.make fun (s, models) =>
    let way := e.routes route
    let connection := way.writer.connection.zoom (Lens.fst.comp Saving.worldLens)
    let unit := WorkUnit.connectedTask connection (e.runPhasesBy move saver route bound)
    let (r, s', batch) := (way.scheme.execute [unit]).perform (s, openBatch models)
    (r, s', givenModels models.length (closeBatch r batch))

/-- `saveFully`, by a mover. -/
def saveFullyBy (saver : Saver μ σ) (route bound : Nat) : Act (Saving σ × List μ) Unit := do
  (move .validate).zoom .fst
  Act.forEach (e.validateModel saver)
  e.commitBatchBy move saver route bound

/-- `saveWith`, by a mover. -/
def saveWithBy (saver : Saver μ σ) (bound route : Nat) : Act (Saving σ × List μ) Unit :=
  Act.make fun (s, models) =>
    if s.phases route = .afterSave then (Act.forEach (e.writePending route)).perform (s, models)
    else if models.isEmpty then (.ok (), s, models)
    else
      let (r, s', models') :=
        (e.saveFullyBy move saver route bound).perform (s.setPhase route .idle, models)
      (r, s'.setPhase route (s.phases route), models')

end By

/-- `save`, where every route has its mover. -/
def saveBy (e : SaveEngine μ σ) (move : Nat → SavePhase → Act (Saving σ) Unit) : Nat → Saver μ σ
  | 0, _ => Act.fail boundReached
  | bound + 1, route => e.saveWithBy (move route) (saveBy e move bound) bound route

theorem prepareBy_moveTo (saver : Saver μ σ) (route restarts : Nat) :
    e.prepareBy (Saving.moveTo route) saver route restarts = e.prepare saver route restarts := by
  induction restarts with
  | zero => rfl
  | succ restarts ih =>
    rw [prepareBy, prepare, ih]
    rfl

theorem saveWithBy_moveTo (saver : Saver μ σ) (bound route : Nat) :
    e.saveWithBy (Saving.moveTo route) saver bound route = e.saveWith saver bound route := by
  have hphases : e.runPhasesBy (Saving.moveTo route) saver route bound =
      e.runPhases saver route bound := by
    rw [runPhasesBy, runPhases, prepareBy_moveTo]
    rfl
  have hcommit : e.commitBatchBy (Saving.moveTo route) saver route bound =
      e.commitBatch saver route bound := by
    rw [commitBatchBy, commitBatch, hphases]
    rfl
  rw [saveWithBy, saveWith, saveFullyBy, saveFully, hcommit]

/-! ### No move is refused -/

section Mover

variable {move : SavePhase → Act (Saving σ) Unit} {saver : Saver μ σ} {route : Nat}

omit [Model μ] in
theorem perform_moveTo_batch {next : SavePhase} {s : Saving σ} (batch : List (BatchEntry μ))
    (h : (s.phases route).precedes next = true) :
    (moveTo route next).perform (s, batch) = (.ok (), s.setPhase route next, batch) :=
  (isMover_moveTo route).perform_zoom batch h

variable (hmove : IsMover route move)

include hmove in
/-- A pass starts in validation, wherever it comes from. -/
theorem perform_prepareBy_succ (restarts : Nat) {s : Saving σ} (batch : List (BatchEntry μ))
    (hstart : s.phases route = .idle ∨ s.phases route = .validate) :
    (e.prepareBy move saver route (restarts + 1)).perform (s, batch) =
      (e.passBy move saver route (e.prepareBy move saver route restarts)).perform
        (s.setPhase route .validate, batch) := by
  rw [prepareBy]
  simp only [Act.perform_bind, Act.perform_read]
  rcases hstart with hphase | hphase
  · rw [if_pos (by simp [hphase])]
    rw [Act.perform_bind, hmove.perform_zoom batch (by rw [hphase]; rfl)]
  · rw [if_neg (by simp [hphase]), ← hphase, Saving.setPhase_self]

variable (hsaver : ∀ route, (saver route).Moves Eq fun p => p.1.phases)

include hmove hsaver

/-- The moves of a pass go forward, and if it is the last one, it ends before the write. -/
theorem perform_passBy {again again' : Act (BatchWorld μ σ) Unit} {s : Saving σ}
    (batch : List (BatchEntry μ)) (hphase : s.phases route = .validate)
    (hagain : ∀ s batch, s.phases route = .idle →
      again.perform (s, batch) = again'.perform (s, batch) ∧
      ∀ s' batch', again'.perform (s, batch) = (.ok (), s', batch') →
        s'.phases route = .beforeSave) :
    (e.passBy move saver route again).perform (s, batch) =
        (e.passBy (Saving.moveTo route) saver route again').perform (s, batch) ∧
      ∀ s' batch', (e.passBy (Saving.moveTo route) saver route again').perform (s, batch) =
        (.ok (), s', batch') → s'.phases route = .beforeSave := by
  have hcode := leadsModels_phases (e := e) hsaver route id
  simp only [passBy, Act.perform_bind]
  rcases hv : (Act.forEach (e.validateEntry saver)).perform (s, batch) with ⟨_ | _, s₁, batch₁⟩
  · exact ⟨rfl, fun _ _ h => by cases h⟩
  · have hkept : s.phases = s₁.phases := hcode.validateEntry.forEach_view hv
    have hforward : (s₁.phases route).precedes .beforeSave = true := by
      rw [← hkept, hphase]
      rfl
    simp only [hmove.perform_zoom batch₁ hforward,
      (isMover_moveTo route).perform_zoom batch₁ hforward, Act.perform_make]
    -- The code before the write fails, or is through, or the batch starts again.
    rcases hb : e.beforePhase saver batch₁ (s₁.setPhase route .beforeSave) with
      ⟨_ | _ | models, s₂, batch₂⟩
    · exact ⟨rfl, fun _ _ h => by cases h⟩
    · have hkept : (s₁.setPhase route .beforeSave).phases = s₂.phases := by
        have hmoves := (hcode.beforePhase batch₁ (s₁.setPhase route .beforeSave)
          fun _ _ => trivial).1
        rwa [hb] at hmoves
      refine ⟨rfl, fun s' batch' h => ?_⟩
      cases h
      rw [← hkept, Saving.phases_setPhase]
    · simp only [Act.perform_bind, Act.perform_change]
      exact hagain _ _ (Saving.phases_setPhase _ _ _)

theorem perform_prepareBy (restarts : Nat) {s : Saving σ} (batch : List (BatchEntry μ))
    (hstart : s.phases route = .idle ∨ s.phases route = .validate) :
    (e.prepareBy move saver route restarts).perform (s, batch) =
        (e.prepare saver route restarts).perform (s, batch) ∧
      ∀ s' batch', (e.prepare saver route restarts).perform (s, batch) = (.ok (), s', batch') →
        s'.phases route = .beforeSave := by
  rw [← prepareBy_moveTo]
  induction restarts generalizing s batch with
  | zero => exact ⟨rfl, fun _ _ h => by cases h⟩
  | succ restarts ih =>
    rw [perform_prepareBy_succ hmove restarts batch hstart,
      perform_prepareBy_succ (isMover_moveTo route) restarts batch hstart]
    -- A batch that starts again does so from the idle phase, where the passes that are left agree.
    exact perform_passBy hmove hsaver batch (Saving.phases_setPhase _ _ _)
      fun s batch hphase => ih batch (.inl hphase)

theorem perform_runPhasesBy (bound : Nat) {s : Saving σ} (batch : List (BatchEntry μ))
    (hphase : s.phases route = .validate) :
    (e.runPhasesBy move saver route bound).perform (s, batch) =
      (e.runPhases saver route bound).perform (s, batch) := by
  have hcode := leadsModels_phases (e := e) hsaver route id
  obtain ⟨hprepare, hprepared⟩ := perform_prepareBy (e := e) hmove hsaver (bound + 1) batch
    (.inr hphase)
  simp only [runPhasesBy, runPhases, Act.perform_bind, hprepare]
  rcases hp : (e.prepare saver route (bound + 1)).perform (s, batch) with ⟨_ | _, s₁, batch₁⟩
  · rfl
  · have hsave : (s₁.phases route).precedes .save = true := by
      rw [hprepared s₁ batch₁ hp]
      rfl
    simp only [hmove.perform_zoom batch₁ hsave, perform_moveTo_batch batch₁ hsave]
    rcases hw : (Act.forEach (e.writeEntry route)).perform (s₁.setPhase route .save, batch₁) with
      ⟨_ | _, s₂, batch₂⟩
    · rfl
    · have hkept : (s₁.setPhase route .save).phases = s₂.phases := hcode.writeEntry.forEach_view hw
      have hafter : (s₂.phases route).precedes .afterSave = true := by
        rw [← hkept, Saving.phases_setPhase]
        rfl
      simp only [hmove.perform_zoom batch₂ hafter, perform_moveTo_batch batch₂ hafter]

theorem perform_commitBatchBy {frame : Frame} (hscheme : (e.routes route).scheme.Frames frame)
    (hframe : frame.IsOrdinary) (bound : Nat) {s : Saving σ} (models : List μ)
    (hphase : s.phases route = .validate) :
    (e.commitBatchBy move saver route bound).perform (s, models) =
      (e.commitBatch saver route bound).perform (s, models) := by
  have hcontrol : (e.batchConnection route).Moves Eq fun t : BatchWorld μ σ => t.1.phases :=
    ⟨fun _ => rfl, fun _ => rfl, fun _ => rfl⟩
  have hbody : ∀ t : BatchWorld μ σ, t.1.phases = s.phases →
      (e.runPhasesBy move saver route bound).perform t =
        (e.runPhases saver route bound).perform t :=
    fun t ht => perform_runPhasesBy hmove hsaver bound t.2 ((congrFun ht route).trans hphase)
  have hbatch := hframe.enclose_congr hcontrol (t := (s, openBatch models)) hbody
  rw [← hscheme.perform_execute, ← hscheme.perform_execute] at hbatch
  simp only [commitBatchBy, commitBatch, Act.perform_make]
  rw [batchConnection] at hbatch
  rw [hbatch]
  rfl

theorem saveWithBy_eq {frame : Frame} (hscheme : (e.routes route).scheme.Frames frame)
    (hframe : frame.IsOrdinary) (bound : Nat) :
    e.saveWithBy move saver bound route = e.saveWith saver bound route := by
  have hfully : ∀ (s : Saving σ) models, s.phases route = .idle →
      (e.saveFullyBy move saver route bound).perform (s, models) =
        (e.saveFully saver route bound).perform (s, models) := by
    intro s models hphase
    have hstart : (s.phases route).precedes .validate = true := by
      rw [hphase]
      rfl
    simp only [saveFullyBy, saveFully, Act.perform_bind, hmove.perform_zoom models hstart,
      (isMover_moveTo route).perform_zoom models hstart]
    rcases hv : (Act.forEach (e.validateModel saver)).perform (s.setPhase route .validate, models)
      with ⟨_ | _, s₁, models₁⟩
    · rfl
    · have hkept : (s.setPhase route .validate).phases = s₁.phases :=
        (leadsModels_phases (e := e) hsaver route id).validateModel.forEach_view hv
      exact perform_commitBatchBy hmove hsaver hscheme hframe bound models₁
        (by rw [← hkept, Saving.phases_setPhase])
  have hperform : ∀ t : Saving σ × List μ,
      (e.saveWithBy move saver bound route).perform t =
        (e.saveWith saver bound route).perform t := by
    rintro ⟨s, models⟩
    simp only [saveWithBy, saveWith, Act.perform_make, hfully _ _ (Saving.phases_setPhase _ _ _)]
  exact funext hperform

end Mover

/-- A save by movers is the same save, if routes whose batches may go through their phases more than
    once move as ever. -/
theorem saveBy_eq_save {frames : Nat → Frame} (hframes : e.HasFrames frames)
    {move : Nat → SavePhase → Act (Saving σ) Unit} (hmove : ∀ route, IsMover route (move route))
    (hothers : ∀ route, (frames route).IsOrdinary ∨ move route = Saving.moveTo route)
    (bound : Nat) :
    e.saveBy move bound = e.save bound := by
  induction bound with
  | zero => rfl
  | succ bound ih =>
    -- Nested saves are by movers as well, but they are the same saves, so they keep the phases.
    funext route
    rw [saveBy, save, ih]
    rcases hothers route with hframe | hsame
    · exact saveWithBy_eq (hmove route) (save_keeps_phases hframes bound) (hframes route) hframe
        bound
    · rw [hsame, saveWithBy_moveTo]

end SaveEngine

end RecordStore
