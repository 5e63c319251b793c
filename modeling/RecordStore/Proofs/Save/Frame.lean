import RecordStore.Proofs.Decoration
import RecordStore.Proofs.Save.Nesting
import RecordStore.Proofs.Transaction.Moves

/-!
# The frame of a save

A save runs its batch as one unit of work, of which the scheme of its route makes a transaction. The
*frame* says which one: a transaction on the connection that runs the unit some number of times,
one that only runs the unit, or none. A scheme is tied to one world, a frame is not, so a save in a
decorated world has the same frame.

What a frame does is said in full by `Frame.enclose`: it begins a transaction unless one is open,
runs the batch, and commits or rolls back. What the control calls of the connection leave alone goes
through a frame as it goes through the batch (`Frame.enclose_course`). And what a whole save does is
said case by case by `SaveEngine.Course`.
-/

namespace RecordStore

variable {σ τ γ μ : Type}

/-! ### Repetition -/

namespace Act

/-- Repeats an action a number of times, up to the first failure. -/
def times : Nat → Act τ Unit → Act τ Unit
  | 0, _ => pure ()
  | n + 1, f => do f; times n f

theorem times_one (f : Act τ Unit) : times 1 f = f := bind_pure_unit

theorem Moves.times {R : γ → γ → Prop} [Std.Refl R] [IsTrans γ R] {view : τ → γ} {f : Act τ Unit}
    (h : f.Moves R view) (n : Nat) : (times n f).Moves R view := by
  induction n with
  | zero => exact moves_pure ()
  | succ n ih => exact h.bind fun _ => ih

theorem Decorates.times {view : τ → σ} {f' : Act τ Unit} {f : Act σ Unit} (h : f'.Follows view f)
    (n : Nat) : (times n f').Follows view (times n f) := by
  induction n with
  | zero => exact decorates_pure ()
  | succ n ih => exact h.bind fun _ => ih

end Act

theorem WorkUnit.runAll_replicate (n : Nat) (u : WorkUnit τ) :
    runAll (List.replicate n u) = Act.times n u.run := by
  induction n with
  | zero => rfl
  | succ n ih => rw [List.replicate_succ, runAll, ih, Act.times]

/-- The strand with its units a number of times. -/
def Strand.repeated (rounds : Nat) (g : Strand τ) : Strand τ :=
  { g with units := (List.replicate rounds g.units).flatten }

/-! ### Frames -/

/-- The transaction that is made of a single unit of work with a connection. -/
inductive Frame where
  | refused (e : StoreError)
  | plain
  | connected (rounds : Nat)

namespace Frame

/-- Makes the transaction. -/
def assemble : Frame → Assembly τ
  | refused e => fun _ => .error e
  | plain => Transaction.ofPlain
  | connected rounds => fun units =>
    (Strand.ofUnits units).map fun strands => .connected (strands.map (·.repeated rounds))

/-- How often the unit is run if nothing fails. -/
def rounds : Frame → Nat
  | refused _ => 0
  | plain => 1
  | connected rounds => rounds

/-- Runs the body of a unit with this connection as its transaction does. -/
def enclose (frame : Frame) (c : Connection τ) (body : Act τ Unit) : Act τ Unit :=
  match frame with
  | refused e => Act.fail e
  | plain => body
  | connected rounds => Act.make fun t =>
    if c.inTransaction t then (Act.times rounds body).perform t
    else
      match c.begin.perform t with
      | (.error e, t₁) => (.error e, t₁)
      | (.ok _, t₁) =>
        match (Act.times rounds body).perform t₁ with
        | (.error e, t₂) => (.error e, (c.rollback.perform t₂).2)
        | (.ok _, t₂) =>
          match c.commit.perform t₂ with
          | (.error e, t₃) => (.error e, (c.rollback.perform t₃).2)
          | (.ok _, t₃) => (.ok (), t₃)

end Frame

theorem Frame.assemble_connected {u : WorkUnit τ} {c : Connection τ} (hu : u.connection = some c)
    (rounds : Nat) : (connected rounds).assemble [u] =
      .ok (.connected [{ connection := c, units := List.replicate rounds u }]) := by
  have hunits : (List.replicate rounds [u]).flatten = List.replicate rounds u :=
    List.flatten_replicate_singleton
  rw [← hunits]
  exact congrArg (Except.map _) (Strand.ofUnits_single hu)

/-- Of a single unit with a connection, the scheme makes the transaction of this frame. -/
def TransactionScheme.Frames (scheme : TransactionScheme τ) (frame : Frame) : Prop :=
  ∀ (u : WorkUnit τ) (c : Connection τ), u.connection = some c →
    scheme.assemble .connected [u] = frame.assemble [u]

namespace TransactionScheme

theorem standard_frames : (standard : TransactionScheme τ).Frames (.connected 1) := fun u c hu => by
  rw [Frame.assemble_connected hu]
  exact congrArg (Except.map _) (Strand.ofUnits_single hu)

/-- The scheme that has one frame for all units. -/
def ofFrame (frame : Frame) : TransactionScheme τ := ⟨fun _ => frame.assemble⟩

theorem ofFrame_frames (frame : Frame) : (ofFrame frame : TransactionScheme τ).Frames frame :=
  fun _ _ _ => rfl

/-- A unit with a connection runs as its frame says. -/
theorem Frames.perform_execute {scheme : TransactionScheme τ} {frame : Frame}
    (hscheme : scheme.Frames frame) (c : Connection τ) (body : Act τ Unit) (t : τ) :
    (scheme.execute [.connectedTask c body]).perform t = (frame.enclose c body).perform t := by
  have hbody : WorkUnit.runAll [.connectedTask c body] = body := bind_pure_unit
  have hmade : scheme.transactions [.connectedTask c body] =
      (frame.assemble [.connectedTask c body]).map ([·]) := by
    rw [← hscheme _ c rfl, transactions_single]
    rfl
  simp only [execute, executeChecked, Act.perform_bind, Act.perform_ofExcept, hmade]
  cases frame with
  | refused e => rfl
  | plain =>
    have hplain := @Chain.execute_of_inTransaction _ t [.plain [.connectedTask c body]] (pure ())
      (by simp [Transaction.strands]) (by simp [Transaction.strands])
    refine hplain.trans ?_
    simp only [Chain.runAll, Transaction.run, Transaction.units, hbody, bind_pure_unit]
    rfl
  | connected rounds =>
    have hunits := WorkUnit.runAll_replicate rounds (.connectedTask c body)
    rw [Frame.assemble_connected rfl]
    by_cases hopen : c.inTransaction t = true
    · have hjoined := @Chain.execute_of_inTransaction _ t
        [.connected [{ connection := c, units := List.replicate rounds (.connectedTask c body) }]]
        (pure ()) (by simp [Transaction.strands]) (by simpa [Transaction.strands] using hopen)
      refine hjoined.trans ?_
      simp only [Chain.runAll, Transaction.run, Transaction.units, List.flatMap_cons,
        List.flatMap_nil, List.append_nil, hunits, bind_pure_unit, Frame.enclose, Act.perform_make,
        hopen, if_true]
      rfl
    · have hclosed : c.inTransaction t = false := Bool.eq_false_iff.2 hopen
      have hsingle := Chain.execute_single (pure ())
        (List.replicate rounds (.connectedTask c body)) hclosed
      rw [hunits, bind_pure_unit] at hsingle
      exact hsingle.trans (if_neg hopen).symm

end TransactionScheme

namespace Frame

variable {c : Connection τ} {body : Act τ Unit}

/-- A frame around a body moves along a relation if the body does and the connection. -/
theorem enclose_moves {R : γ → γ → Prop} [Std.Refl R] [IsTrans γ R] {view : τ → γ}
    (frame : Frame) (hc : c.Moves R view) (hbody : body.Moves R view) :
    (frame.enclose c body).Moves R view := by
  cases frame with
  | refused e => exact Act.moves_fail e
  | plain => exact hbody
  | connected rounds =>
    intro t
    have hbegin := hc.begin t
    have htimes : (Act.times rounds body).Moves R view := hbody.times rounds
    simp only [enclose, Act.perform_make]
    split
    · exact htimes t
    · rcases hf : c.begin.perform t with ⟨_ | _, t₁⟩ <;> rw [hf] at hbegin
      · exact hbegin
      · have hrun := IsTrans.trans _ _ _ hbegin (htimes t₁)
        simp only
        rcases hf : (Act.times rounds body).perform t₁ with ⟨_ | _, t₂⟩ <;> rw [hf] at hrun
        · exact IsTrans.trans _ _ _ hrun (hc.rollback t₂)
        · have hcommit := IsTrans.trans _ _ _ hrun (hc.commit t₂)
          simp only
          rcases hf : c.commit.perform t₂ with ⟨_ | _, t₃⟩ <;> rw [hf] at hcommit
          · exact IsTrans.trans _ _ _ hcommit (hc.rollback t₃)
          · exact hcommit

/-- What a frame around a body comes to, in a part of the world that the control calls of the
    connection leave alone. -/
inductive Course (frame : Frame) (body : Act τ Unit) (part : τ → γ) (t : τ) :
    Except StoreError Unit × τ → Prop
  /-- The body is not run. -/
  | unopened {e : StoreError} {t' : τ} : part t' = part t → Course frame body part t (.error e, t')
  | ran {t₁ t' : τ} {r : Except StoreError Unit} : part t₁ = part t →
    part t' = part ((Act.times frame.rounds body).perform t₁).2 →
    (r = .ok () → ((Act.times frame.rounds body).perform t₁).1 = .ok ()) →
    Course frame body part t (r, t')

theorem enclose_course {part : τ → γ} (frame : Frame) (hc : c.Moves Eq part) (t : τ) :
    Course frame body part t ((frame.enclose c body).perform t) := by
  cases frame with
  | refused e => exact .unopened rfl
  | plain =>
    have honce : Act.times 1 body = body := bind_pure_unit
    exact .ran rfl (by rw [rounds, honce]; rfl) (by rw [rounds, honce]; exact id)
  | connected rounds =>
    have hbegin := hc.begin t
    simp only [enclose, Act.perform_make]
    split
    · exact .ran rfl rfl id
    · rcases hf : c.begin.perform t with ⟨_ | _, t₁⟩ <;> rw [hf] at hbegin
      · exact .unopened hbegin.symm
      · simp only
        rcases hf : (Act.times rounds body).perform t₁ with ⟨_ | _, t₂⟩
        · refine .ran hbegin.symm ?_ nofun
          rw [Frame.rounds, hf]
          exact (hc.rollback t₂).symm
        · have hcommit := hc.commit t₂
          simp only
          rcases hf' : c.commit.perform t₂ with ⟨_ | _, t₃⟩ <;> rw [hf'] at hcommit
          · refine .ran hbegin.symm ?_ nofun
            rw [Frame.rounds, hf]
            exact (hcommit.trans (hc.rollback t₃)).symm
          · refine .ran hbegin.symm ?_ fun _ => ?_ <;> rw [Frame.rounds, hf]
            exact hcommit.symm

/-- A frame around a decorated body is decorated. -/
theorem enclose_follows {view : τ → σ} {c' : Connection σ} {body' : Act σ Unit} (frame : Frame)
    (hc : c.Decorates view c') (hbody : body.Follows view body') :
    (frame.enclose c body).Follows view (frame.enclose c' body') := by
  refine Act.follows_iff.2 fun t => ?_
  cases frame with
  | refused e => rfl
  | plain => exact Act.follows_iff.1 hbody t
  | connected rounds =>
    have htimes := Act.follows_iff.1 (hbody.times rounds)
    simp only [enclose, Act.perform_make, hc.inTransaction, htimes,
      Act.follows_iff.1 hc.begin t]
    split
    · rfl
    · rcases c.begin.perform t with ⟨_ | _, t₁⟩
      · rfl
      · simp only [htimes]
        rcases (Act.times rounds body).perform t₁ with ⟨_ | _, t₂⟩
        · simp only [Act.follows_iff.1 hc.rollback t₂]
        · simp only [Act.follows_iff.1 hc.commit t₂]
          rcases c.commit.perform t₂ with ⟨_ | _, t₃⟩
          · simp only [Act.follows_iff.1 hc.rollback t₃]
          · rfl

end Frame

/-! ### Saves -/

namespace Saving

theorem phases_setPhase (s : Saving σ) (route : Nat) (phase : SavePhase) :
    (s.setPhase route phase).phases route = phase := if_pos rfl

theorem setPhase_setPhase (s : Saving σ) (route : Nat) (phase phase' : SavePhase) :
    (s.setPhase route phase).setPhase route phase' = s.setPhase route phase' := by
  simp only [setPhase, Saving.mk.injEq, and_true]
  funext i
  split <;> rfl

/-- A route moves forward from a phase that precedes. -/
theorem perform_moveTo {s : Saving σ} {route : Nat} {next : SavePhase}
    (h : (s.phases route).precedes next = true) :
    (moveTo route next).perform s = (.ok (), s.setPhase route next) := by
  simp only [moveTo, Act.perform_make, h, if_true]

end Saving

namespace SaveEngine

variable [Model μ] {e : SaveEngine μ σ} {frames : Nat → Frame}

/-- The frames of saves along the routes. -/
def HasFrames (e : SaveEngine μ σ) (frames : Nat → Frame) : Prop :=
  ∀ route, (e.routes route).scheme.Frames (frames route)

/-- The connection of a route, beside a batch. -/
def batchConnection (e : SaveEngine μ σ) (route : Nat) : Connection (BatchWorld μ σ) :=
  (e.routes route).writer.connection.zoom (Lens.fst.comp Saving.worldLens)

/-- Takes a batch through its phases, in a frame. -/
def runBatch (e : SaveEngine μ σ) (frame : Frame) (saver : Saver μ σ) (route bound : Nat) :
    Act (BatchWorld μ σ) Unit :=
  frame.enclose (e.batchConnection route) (e.runPhases saver route bound)

/-- The batch of these models when it starts. -/
def openBatch (models : List μ) : List (BatchEntry μ) :=
  models.map (⟨·, true, false, false, none⟩)

/-- The batch when it is over: if it failed, models are as they were before they were written. -/
def closeBatch (r : Except StoreError Unit) (batch : List (BatchEntry μ)) : List (BatchEntry μ) :=
  match r with
  | .ok _ => batch
  | .error _ => batch.map undo

/-- The models at the end of a batch, where the given ones stand. -/
def givenModels (count : Nat) (batch : List (BatchEntry μ)) : List μ :=
  (batch.drop (batch.length - count)).map (·.model)

omit [Model μ] in
theorem givenModels_append {count : Nat} (front : List (BatchEntry μ)) {old : List (BatchEntry μ)}
    (hcount : old.length = count) : givenModels count (front ++ old) = old.map (·.model) := by
  rw [givenModels, List.length_append, hcount, Nat.add_sub_cancel, List.drop_left]

omit [Model μ] in
/-- A move that succeeds only sets the phase. -/
theorem perform_moveTo_eq_ok {route : Nat} {next : SavePhase} {t t' : BatchWorld μ σ}
    (h : (moveTo route next : Act (BatchWorld μ σ) Unit).perform t = (.ok (), t')) :
    t' = (t.1.setPhase route next, t.2) := by
  rw [moveTo, Act.perform_zoom, Saving.moveTo, Act.perform_make] at h
  dsimp only [Lens.fst] at h
  split at h
  · cases h
    rfl
  · cases h

/-! #### Entries -/

theorem perform_validate (s : Saving σ) (m : μ) :
    (validate : Act (Saving σ × μ) Unit).perform (s, m) = (Model.validate m, s, m) := rfl

theorem perform_writePending (e : SaveEngine μ σ) (route : Nat) (s : Saving σ) (m : μ) :
    (e.writePending route).perform (s, m) =
      if Model.isEdited m then (do validate; e.write route : Act (Saving σ × μ) Unit).perform (s, m)
      else (.ok (), s, m) := by
  rw [writePending, Act.perform_bind, Act.perform_read]
  dsimp only
  split <;> rfl

theorem perform_writeEntry (e : SaveEngine μ σ) (route : Nat) (s : Saving σ) (p : BatchEntry μ) :
    (e.writeEntry route).perform (s, p) =
      if p.isSkipped then (.ok (), s, p)
      else
        let out := (e.write route).perform (s, p.model)
        (out.1, out.2.1, { p with prior := some (PriorState.ofModel p.model), model := out.2.2 }) := by
  rw [writeEntry, Act.perform_bind, Act.perform_read]
  dsimp only
  by_cases hskip : p.isSkipped = true
  · rw [if_pos hskip, if_neg (by simp [hskip]), Act.perform_pure]
  · rw [if_neg hskip, if_pos (by simpa using hskip), Act.perform_bind, Act.perform_change]
    rfl

theorem perform_finishEntry (e : SaveEngine μ σ) (saver : Saver μ σ) (route : Nat) (s : Saving σ)
    (p : BatchEntry μ) :
    (e.finishEntry saver route).perform (s, p) =
      if p.isSkipped then (.ok (), s, p)
      else
        let out := (do e.afterSave saver route; e.writePending route :
          Act (Saving σ × μ) Unit).perform (s, p.model)
        (out.1, out.2.1, { p with model := out.2.2 }) := by
  rw [finishEntry, Act.perform_bind, Act.perform_read]
  dsimp only
  by_cases hskip : p.isSkipped = true
  · rw [if_pos hskip, if_neg (by simp [hskip]), Act.perform_pure]
  · rw [if_neg hskip, if_pos (by simpa using hskip)]
    rfl

/-- What comes after the write of a model is its code and, if that leaves it edited and valid, one
    more write. -/
theorem finish_cases {saver : Saver μ σ} {route : Nat} {s s' : Saving σ} {m m' : μ}
    {r : Except StoreError Unit} (hrun : (do e.afterSave saver route; e.writePending route :
      Act (Saving σ × μ) Unit).perform (s, m) = (r, s', m')) :
    ∃ r₁ s₁ m₁, (e.afterSave saver route).perform (s, m) = (r₁, s₁, m₁) ∧
      (s' = s₁ ∧ m' = m₁ ∨
        Model.validate m₁ = .ok () ∧ (e.write route).perform (s₁, m₁) = (r, s', m')) := by
  rw [Act.perform_bind] at hrun
  rcases hafter : (e.afterSave saver route).perform (s, m) with ⟨_ | _, s₁, m₁⟩ <;>
    rw [hafter] at hrun
  · cases hrun
    exact ⟨_, _, _, rfl, .inl ⟨rfl, rfl⟩⟩
  · refine ⟨_, s₁, m₁, rfl, ?_⟩
    dsimp only at hrun
    rw [perform_writePending] at hrun
    split at hrun
    · rw [Act.perform_bind, perform_validate] at hrun
      rcases hvalid : Model.validate m₁ with err | _ <;> rw [hvalid] at hrun
      · cases hrun
        exact .inl ⟨rfl, rfl⟩
      · exact .inr ⟨rfl, hrun⟩
    · cases hrun
      exact .inl ⟨rfl, rfl⟩

/-! #### Batches -/

/-- A batch that goes through its phases is prepared, then written, then finished. -/
theorem runPhases_eq_ok {saver : Saver μ σ} {route bound : Nat} {s s' : Saving σ}
    {batch batch' : List (BatchEntry μ)}
    (h : (e.runPhases saver route bound).perform (s, batch) = (.ok (), s', batch')) :
    ∃ s₁ s₂ batch₁ batch₂,
      (e.prepare saver route (bound + 1)).perform (s, batch) = (.ok (), s₁, batch₁) ∧
      Act.each (e.writeEntry route) batch₁ (s₁.setPhase route .save) = (.ok (), s₂, batch₂) ∧
      Act.each (e.finishEntry saver route) batch₂ (s₂.setPhase route .afterSave) =
        (.ok (), s', batch') := by
  obtain ⟨_, ⟨s₁, batch₁⟩, hprepare, h⟩ := Act.perform_bind_eq_ok h
  obtain ⟨_, t, hmove, h⟩ := Act.perform_bind_eq_ok h
  cases perform_moveTo_eq_ok hmove
  obtain ⟨_, ⟨s₂, batch₂⟩, hwrite, h⟩ := Act.perform_bind_eq_ok h
  obtain ⟨_, t, hmove, h⟩ := Act.perform_bind_eq_ok h
  cases perform_moveTo_eq_ok hmove
  exact ⟨s₁, s₂, batch₁, batch₂, hprepare, hwrite, h⟩

theorem perform_commitBatch (hframes : e.HasFrames frames) {saver : Saver μ σ} {route bound : Nat}
    {s s' : Saving σ} {models : List μ} {r : Except StoreError Unit} {batch : List (BatchEntry μ)}
    (hrun : (e.runBatch (frames route) saver route bound).perform (s, openBatch models) =
      (r, s', batch)) :
    (e.commitBatch saver route bound).perform (s, models) =
      (r, s', givenModels models.length (closeBatch r batch)) := by
  have hbatch := (hframes route).perform_execute (e.batchConnection route)
    (e.runPhases saver route bound) (s, openBatch models)
  rw [← runBatch, hrun] at hbatch
  simp only [commitBatch, Act.perform_make]
  rw [openBatch, batchConnection] at hbatch
  rw [hbatch]
  rfl

/-- A save of some models validates them and runs their batch, unless it starts in the after-save
    phase of its route. -/
theorem perform_saveWith {saver : Saver μ σ} {bound route : Nat} {s : Saving σ} {models : List μ}
    (hphase : s.phases route ≠ .afterSave) (hmodels : models ≠ []) :
    (e.saveWith saver bound route).perform (s, models) =
      let out := (do Act.forEach (e.validateModel saver); e.commitBatch saver route bound :
        Act (Saving σ × List μ) Unit).perform (s.setPhase route .validate, models)
      (out.1, out.2.1.setPhase route (s.phases route), out.2.2) := by
  have hmove : (Saving.moveTo route .validate).perform (s.setPhase route .idle) =
      (.ok (), s.setPhase route .validate) := by
    rw [Saving.perform_moveTo (by rw [Saving.phases_setPhase]; rfl), Saving.setPhase_setPhase]
  have hfully : (e.saveFully saver route bound).perform (s.setPhase route .idle, models) =
      (do Act.forEach (e.validateModel saver); e.commitBatch saver route bound :
        Act (Saving σ × List μ) Unit).perform (s.setPhase route .validate, models) := by
    rw [saveFully, Act.perform_bind, Act.perform_zoom]
    simp only [Lens.fst, hmove]
  simp only [saveWith, Act.perform_make, hphase, List.isEmpty_iff, hmodels, if_false, hfully]

/-- What comes of a save that does not start in the after-save phase of its route. -/
inductive Course (e : SaveEngine μ σ) (frame : Frame) (bound route : Nat) (s : Saving σ)
    (models : List μ) : Except StoreError Unit × Saving σ × List μ → Prop
  | tooDeep : bound = 0 → Course e frame bound route s models (.error boundReached, s, models)
  | empty : models = [] → Course e frame bound route s models (.ok (), s, models)
  | invalid {depth : Nat} {err : StoreError} {s₁ : Saving σ} {models₁ : List μ} :
    bound = depth + 1 →
    (Act.forEach (e.validateModel (e.save depth))).perform (s.setPhase route .validate, models) =
      (.error err, s₁, models₁) →
    Course e frame bound route s models
      (.error err, s₁.setPhase route (s.phases route), models₁)
  | ran {depth : Nat} {r : Except StoreError Unit} {s₁ s₂ : Saving σ} {models₁ : List μ}
    {batch : List (BatchEntry μ)} :
    bound = depth + 1 → models ≠ [] →
    (Act.forEach (e.validateModel (e.save depth))).perform (s.setPhase route .validate, models) =
      (.ok (), s₁, models₁) →
    (e.runBatch frame (e.save depth) route depth).perform (s₁, openBatch models₁) =
      (r, s₂, batch) →
    Course e frame bound route s models
      (r, s₂.setPhase route (s.phases route), givenModels models₁.length (closeBatch r batch))

theorem save_course (hframes : e.HasFrames frames) (bound : Nat) {route : Nat} {s : Saving σ}
    (hphase : s.phases route ≠ .afterSave) (models : List μ) :
    Course e (frames route) bound route s models ((e.save bound route).perform (s, models)) := by
  cases bound with
  | zero => exact .tooDeep rfl
  | succ depth =>
    by_cases hmodels : models = []
    · simp only [save, saveWith, Act.perform_make, hphase, hmodels, List.isEmpty_nil, if_true,
        if_false]
      exact .empty rfl
    · rw [save, perform_saveWith hphase hmodels, Act.perform_bind]
      rcases hvalid : (Act.forEach (e.validateModel (e.save depth))).perform
        (s.setPhase route .validate, models) with ⟨err | _, s₁, models₁⟩
      · exact .invalid rfl hvalid
      · rcases hrun : (e.runBatch (frames route) (e.save depth) route depth).perform
          (s₁, openBatch models₁) with ⟨r, s₂, batch⟩
        simp only [perform_commitBatch hframes hrun]
        exact .ran rfl hmodels hvalid hrun

/-- The batch at the end of a save that does not start in the after-save phase of its route. The
    models that were added stand in front of the given ones. -/
def lastBatch (e : SaveEngine μ σ) (frame : Frame) (bound route : Nat) (s : Saving σ)
    (models : List μ) : List (BatchEntry μ) :=
  match bound with
  | 0 => openBatch models
  | depth + 1 =>
    match (Act.forEach (e.validateModel (e.save depth))).perform
        (s.setPhase route .validate, models) with
    | (.error _, _, models₁) => openBatch models₁
    | (.ok _, s₁, models₁) =>
      if models.isEmpty then []
      else
        let (r, _, batch) := (e.runBatch frame (e.save depth) route depth).perform
          (s₁, openBatch models₁)
        closeBatch r batch

section LastBatch

variable {frame : Frame} {route depth : Nat} {s s₁ s₂ : Saving σ} {models models₁ : List μ}

theorem lastBatch_nil (bound : Nat) : e.lastBatch frame bound route s [] = [] := by
  cases bound <;> rfl

theorem lastBatch_of_invalid {err : StoreError}
    (hvalid : (Act.forEach (e.validateModel (e.save depth))).perform
      (s.setPhase route .validate, models) = (.error err, s₁, models₁)) :
    e.lastBatch frame (depth + 1) route s models = openBatch models₁ := by
  simp only [lastBatch, hvalid]

theorem lastBatch_of_ran {r : Except StoreError Unit} {batch : List (BatchEntry μ)}
    (hmodels : models ≠ [])
    (hvalid : (Act.forEach (e.validateModel (e.save depth))).perform
      (s.setPhase route .validate, models) = (.ok (), s₁, models₁))
    (hrun : (e.runBatch frame (e.save depth) route depth).perform (s₁, openBatch models₁) =
      (r, s₂, batch)) :
    e.lastBatch frame (depth + 1) route s models = closeBatch r batch := by
  simp only [lastBatch, hvalid, hrun, List.isEmpty_iff, hmodels, if_false]

/-- The models that a save returns are the given ones of its batch. -/
theorem save_lastBatch (hframes : e.HasFrames frames) (bound : Nat)
    (hphase : s.phases route ≠ .afterSave) (models : List μ) :
    ((e.save bound route).perform (s, models)).2.2 =
      givenModels models.length (e.lastBatch (frames route) bound route s models) := by
  have hopen : ∀ models : List μ, givenModels models.length (openBatch models) = models := by
    intro models
    have hlength : (openBatch models).length = models.length := List.length_map _
    refine (givenModels_append [] hlength).trans ?_
    rw [openBatch, List.map_map]
    exact List.map_id' _
  have hlength : ∀ {depth : Nat} {r : Except StoreError Unit} {s₁ : Saving σ} {models₁ : List μ},
      (Act.forEach (e.validateModel (e.save depth))).perform (s.setPhase route .validate, models) =
        (r, s₁, models₁) → models₁.length = models.length := by
    intro depth r s₁ models₁ hvalid
    have hlength := Act.length_each (e.validateModel (e.save depth)) models
      (s.setPhase route .validate)
    rw [Act.forEach, Act.perform_make] at hvalid
    rwa [hvalid] at hlength
  have hcourse := save_course hframes bound hphase models
  generalize (e.save bound route).perform (s, models) = out at hcourse
  cases hcourse with
  | tooDeep hbound =>
    subst hbound
    exact (hopen models).symm
  | empty hmodels => rw [hmodels, lastBatch_nil]; rfl
  | invalid hbound hvalid =>
    subst hbound
    rw [lastBatch_of_invalid hvalid, ← hlength hvalid]
    exact (hopen _).symm
  | ran hbound hmodels hvalid hrun =>
    subst hbound
    rw [lastBatch_of_ran hmodels hvalid hrun, hlength hvalid]

end LastBatch

end SaveEngine

end RecordStore
