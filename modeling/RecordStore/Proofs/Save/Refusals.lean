import RecordStore.Proofs.Save.Advance
import RecordStore.Proofs.Save.Stage
import RecordStore.Proofs.Transaction.Raises

/-!
# No move is refused

A save raises what its store raises, the connection of its route, and the code of the models
(`SaveEngine.saveBy_raises`); of itself it raises the error of a refused move, besides that of the
bound. But no move is refused, so a save never fails with a refusal, unless one is raised by what it
runs (`SaveEngine.save_refuses_no_move`).
-/

namespace RecordStore

variable {α μ σ τ : Type} {P : StoreError → Prop}

/-- The error of a move that is not forward. -/
def StoreError.isRefusal : StoreError → Bool
  | invalidStateTransition .. => true
  | _ => false

namespace Program

/-- The errors of a program are of a kind, if those are that it sees. -/
def Raises (P : StoreError → Prop) : Program α μ σ → Prop
  | done _ => True
  | fail e => P e
  | look next => ∀ a s, (next a s).Raises P
  | act f next => f.Raises P ∧ ∀ r, Raised P r → (next r).Raises P
  | phase _ next => ∀ p, (next p).Raises P
  | save _ _ _ next => ∀ r ms, Raised P r → (next r ms).Raises P
  | execute _ errands bodies check next =>
    (∀ i c, (errands i).connection = some c → c.Raises P) ∧ (∀ i, (bodies i).Raises P) ∧
      check.Raises P ∧ ∀ r, Raised P r → (next r).Raises P

theorem run_raises (hP : ChainErrors P) {saver : Saver μ σ}
    (hsaver : ∀ route, (saver route).Raises P)
    {p : Program α μ σ} (h : p.Raises P) (own : Nat) : (p.run saver own).Raises P := by
  induction p generalizing own with
  | done outcome => exact Act.raises_pure outcome
  | fail e => exact Act.raises_fail h
  | look next ih => exact fun t => ih t.2 t.1.world (h _ _) own t
  | act f next ih => exact fun t => ih _ (h.2 _ (h.1 (t.1.world, t.2))) own _
  | phase route next ih => exact fun t => ih _ (h _) own t
  | save route models put next ih =>
    exact fun t => ih _ _ (h _ _ (hsaver (route.getD own) (t.1, models t.2))) own _
  | execute count errands bodies check next ihBodies ihCheck ihNext =>
    obtain ⟨herrands, hbodies, hcheck, hnext⟩ := h
    intro t
    have hchain : (TransactionScheme.standard.executeChecked
        (workUnits errands fun i => do let _ ← (bodies i).run saver firstRoute)
        (do let _ ← check.run saver firstRoute)).Raises P := by
      refine TransactionScheme.standard_raises hP ?_ ?_ ?_
      · intro u hu c hc
        obtain ⟨i, rfl⟩ := List.mem_ofFn.1 hu
        obtain ⟨c', hc', rfl⟩ := Option.map_eq_some_iff.1 hc
        have hraises := herrands i c' hc'
        exact ⟨hraises.begin.zoom, hraises.commit.zoom⟩
      · intro u hu
        obtain ⟨i, rfl⟩ := List.mem_ofFn.1 hu
        exact (ihBodies i (hbodies i) firstRoute).bind fun _ => Act.raises_pure ()
      · exact (ihCheck hcheck firstRoute).bind fun _ => Act.raises_pure ()
    exact ihNext _ (hnext _ (hchain t)) own _

end Program

theorem Frame.IsOrdinary.enclose_raises {frame : Frame} (h : frame.IsOrdinary) {c : Connection τ}
    (hc : c.Raises P) {body : Act τ Unit} (hbody : body.Raises P) :
    (frame.enclose c body).Raises P := by
  rcases h with rfl | rfl
  · intro t
    have htimes : (Act.times 1 body).Raises P := (Act.times_one body).symm ▸ hbody
    simp only [enclose, Act.perform_make]
    split
    · exact htimes t
    · have hbegin := hc.begin t
      rcases hf : c.begin.perform t with ⟨e | _, t₁⟩ <;> rw [hf] at hbegin
      · exact raised_error (hbegin e rfl)
      · have hran := htimes t₁
        dsimp only
        rcases hf : (Act.times 1 body).perform t₁ with ⟨e | _, t₂⟩ <;> rw [hf] at hran
        · exact raised_error (hran e rfl)
        · have hcommit := hc.commit t₂
          dsimp only
          rcases hf : c.commit.perform t₂ with ⟨e | _, t₃⟩ <;> rw [hf] at hcommit
          · exact raised_error (hcommit e rfl)
          · exact raised_ok ()
  · exact hbody

namespace SaveEngine

variable [Model μ] {e : SaveEngine μ σ} {saver : Saver μ σ}

/-- The errors of the store, of the connections and of the code are of a kind. -/
structure Raises (P : StoreError → Prop) (e : SaveEngine μ σ) : Prop where
  validate : ∀ m : μ, Raised P (Model.validate m)
  write : ∀ route, (e.routes route).writer.write.Raises P
  connection : ∀ route, (e.routes route).writer.connection.Raises P
  beforeValidate : e.behaviour.beforeValidate.Raises P
  beforeSave : e.behaviour.beforeSave.Raises P
  afterSave : e.behaviour.afterSave.Raises P
  before : ∀ m, ∀ hook ∈ e.behaviour.hooks m, hook.before.Raises P
  after : ∀ m, ∀ hook ∈ e.behaviour.hooks m, hook.after.Raises P

namespace Raises

variable (h : e.Raises P) (hP : ChainErrors P)

include h

theorem validateAct : (SaveEngine.validate : Act (Saving σ × μ) Unit).Raises P :=
  (Act.raises_read _).bind fun m => Act.raises_ofExcept (h.validate m)

theorem writeModel (route : Nat) : (e.write route).Raises P :=
  (h.write route).zoom.bind fun _ => Act.raises_change _

theorem writePending (route : Nat) : (e.writePending route).Raises P := by
  refine (Act.raises_read _).bind fun isEdited => ?_
  split
  · exact h.validateAct.bind fun _ => h.writeModel route
  · exact Act.raises_pure ()

theorem writeEntry (route : Nat) : (e.writeEntry route).Raises P := by
  refine (Act.raises_read _).bind fun isSkipped => ?_
  split
  · exact (Act.raises_change _).bind fun _ => (h.writeModel route).zoom
  · exact Act.raises_pure ()

include hP

variable (hsaver : ∀ route, (saver route).Raises P)

include hsaver

theorem validateModel : (e.validateModel saver).Raises P :=
  (Program.run_raises hP hsaver h.beforeValidate firstRoute).bind fun _ => h.validateAct

theorem validateEntry : (e.validateEntry saver).Raises P := by
  refine (Act.raises_read _).bind fun isValidated => ?_
  split
  · exact (h.validateModel hP hsaver).zoom.bind fun _ => Act.raises_change _
  · exact Act.raises_pure ()

omit [Model μ] h in
theorem runBefore_raises {hooks : List (Hook μ σ)} (hhooks : ∀ hook ∈ hooks, hook.before.Raises P) :
    (runBefore saver hooks).Raises P := by
  induction hooks with
  | nil => exact Act.raises_pure _
  | cons hook rest ih =>
    obtain ⟨hhook, hrest⟩ := List.forall_mem_cons.1 hhooks
    refine (Program.run_raises hP hsaver hhook firstRoute).bind fun outcome => ?_
    cases outcome with
    | proceed => exact ih hrest
    | skip | add => exact Act.raises_pure _

omit [Model μ] h in
theorem runAfter_raises {hooks : List (Hook μ σ)} (hhooks : ∀ hook ∈ hooks, hook.after.Raises P)
    (route : Nat) : (runAfter saver route hooks).Raises P := by
  induction hooks with
  | nil => exact Act.raises_pure _
  | cons hook rest ih =>
    obtain ⟨hhook, hrest⟩ := List.forall_mem_cons.1 hhooks
    exact (Program.run_raises hP hsaver hhook route).bind fun _ => ih hrest

theorem beforeModel : (SaveEngine.beforeSave e saver).Raises P := by
  refine (Program.run_raises hP hsaver h.beforeSave firstRoute).bind fun outcome => ?_
  cases outcome with
  | proceed => exact fun t => runBefore_raises hP hsaver (h.before t.2) t
  | skip | add => exact Act.raises_pure _

theorem afterModel (route : Nat) : (SaveEngine.afterSave e saver route).Raises P :=
  (Program.run_raises hP hsaver h.afterSave route).bind fun _ =>
    fun t => runAfter_raises hP hsaver (h.after t.2) route t

theorem beforePhase (batch : List (BatchEntry μ)) (s : Saving σ) :
    Raised P (e.beforePhase saver batch s).1 := by
  induction batch generalizing s with
  | nil => exact raised_ok none
  | cons p rest ih =>
    rw [SaveEngine.beforePhase]
    split
    · exact ih s
    · have hfirst := h.beforeModel hP hsaver (s, p.model)
      rcases hf : (SaveEngine.beforeSave e saver).perform (s, p.model) with
        ⟨err | outcome, s', m⟩ <;> rw [hf] at hfirst
      · exact raised_error (hfirst err rfl)
      · cases outcome with
        | add models => exact raised_ok _
        | proceed | skip => exact ih s'

theorem finishEntry (route : Nat) : (e.finishEntry saver route).Raises P := by
  refine (Act.raises_read _).bind fun isSkipped => ?_
  split
  · exact ((h.afterModel hP hsaver route).bind fun _ => h.writePending route).zoom
  · exact Act.raises_pure ()

variable (hbound : P boundReached) {move : SavePhase → Act (Saving σ) Unit}
  (hmove : ∀ next, (move next).Raises P)

include hbound hmove

theorem prepareBy (route restarts : Nat) : (e.prepareBy move saver route restarts).Raises P := by
  induction restarts with
  | zero => exact Act.raises_fail hbound
  | succ restarts ih =>
    have hpass : (e.passBy move saver route (e.prepareBy move saver route restarts)).Raises P := by
      refine (h.validateEntry hP hsaver).forEach.bind fun _ => (hmove _).zoom.bind fun _ => ?_
      refine Act.Raises.bind (fun t => h.beforePhase hP hsaver t.2 t.1) fun added => ?_
      cases added with
      | none => exact Act.raises_pure ()
      | some models => exact (Act.raises_change _).bind fun _ => ih
    refine (Act.raises_read _).bind fun phase => ?_
    split
    · exact (hmove _).zoom.bind fun _ => hpass
    · exact hpass

theorem runPhasesBy (route bound : Nat) : (e.runPhasesBy move saver route bound).Raises P :=
  (h.prepareBy hP hsaver hbound hmove route (bound + 1)).bind fun _ => (hmove _).zoom.bind fun _ =>
    (h.writeEntry route).forEach.bind fun _ => (hmove _).zoom.bind fun _ =>
      (h.finishEntry hP hsaver route).forEach

theorem saveWithBy {route : Nat} {frame : Frame} (hscheme : (e.routes route).scheme.Frames frame)
    (hframe : frame.IsOrdinary) (bound : Nat) : (e.saveWithBy move saver bound route).Raises P := by
  have hconnection := h.connection route
  have hcommit : (e.commitBatchBy move saver route bound).Raises P := by
    rintro ⟨s, models⟩
    have hbatch := hframe.enclose_raises
      (c := (e.routes route).writer.connection.zoom (Lens.fst.comp Saving.worldLens))
      ⟨hconnection.begin.zoom, hconnection.commit.zoom⟩
      (h.runPhasesBy hP hsaver hbound hmove route bound) (s, openBatch models)
    rw [← hscheme.perform_execute] at hbatch
    exact hbatch
  have hfully : (e.saveFullyBy move saver route bound).Raises P :=
    (hmove _).zoom.bind fun _ => (h.validateModel hP hsaver).forEach.bind fun _ => hcommit
  rintro ⟨s, models⟩
  simp only [SaveEngine.saveWithBy, Act.perform_make]
  split
  · exact (h.writePending route).forEach (s, models)
  · split
    · exact raised_ok ()
    · exact hfully (s.setPhase route .idle, models)

end Raises

/-- A save by movers raises what these raise, and what its parts raise. -/
theorem Raises.saveBy (h : e.Raises P) (hP : ChainErrors P) (hbound : P boundReached)
    {frames : Nat → Frame} (hframes : e.HasFrames frames)
    (hordinary : ∀ route, (frames route).IsOrdinary)
    {move : Nat → SavePhase → Act (Saving σ) Unit}
    (hmove : ∀ route next, (move route next).Raises P)
    (bound route : Nat) : (e.saveBy move bound route).Raises P := by
  induction bound generalizing route with
  | zero => exact Act.raises_fail hbound
  | succ bound ih =>
    exact h.saveWithBy hP ih hbound (hmove route) (hframes route) (hordinary route) bound

/-- Moves forward, or gives up as a save beyond the bound does. -/
def moveOrGiveUp (route : Nat) (next : SavePhase) : Act (Saving σ) Unit :=
  Act.make fun s =>
    if (s.phases route).precedes next then (.ok (), s.setPhase route next)
    else (.error boundReached, s)

theorem isMover_moveOrGiveUp (route : Nat) : IsMover route (moveOrGiveUp (σ := σ) route) := by
  intro next s h
  simp only [moveOrGiveUp, Act.perform_make, h, if_true]

/-- Every save gives back the phases of all routes as it found them. No move that it makes along a
    route with ordinary transactions is refused, and neither is one of the saves nested in it: what
    is done where a move is refused makes no difference. And if all routes are such, and nothing
    that is run fails with a refusal of its own, then no save fails with one. -/
theorem save_refuses_no_move {frames : Nat → Frame} (hframes : e.HasFrames frames)
    (bound route : Nat) :
    (∀ s models, ((e.save bound route).perform (s, models)).2.1.phases = s.phases) ∧
    (∀ move : Nat → SavePhase → Act (Saving σ) Unit, (∀ route, IsMover route (move route)) →
      (∀ route, (frames route).IsOrdinary ∨ move route = Saving.moveTo route) →
      e.saveBy move bound route = e.save bound route) ∧
    ((∀ route, (frames route).IsOrdinary) → e.Raises (fun err => err.isRefusal = false) →
      (e.save bound route).Raises fun err => err.isRefusal = false) := by
  refine ⟨fun s models => ?_, fun move hmove hothers => ?_, fun hordinary hraises => ?_⟩
  · exact (save_keeps_phases hframes bound route (s, models)).symm
  · exact congrFun (saveBy_eq_save hframes hmove hothers bound) route
  · -- A mover that never raises a refusal makes the same save.
    have hgiveUp : ∀ route next,
        (moveOrGiveUp route next : Act (Saving σ) Unit).Raises
          fun err => err.isRefusal = false := by
      intro route next s
      rw [moveOrGiveUp, Act.perform_make]
      split
      · exact raised_ok ()
      · exact raised_error rfl
    have hsame := saveBy_eq_save hframes isMover_moveOrGiveUp (fun route => .inl (hordinary route))
      bound
    rw [← hsame]
    exact hraises.saveBy ⟨rfl, fun _ _ _ _ _ => rfl⟩ rfl hframes hordinary hgiveUp bound route

end SaveEngine

/-! ### Tables -/

theorem Identifier.check_raised (h : ∀ name, P (.invalidIdentifier name)) (name : String) :
    Raised P (check name) := by
  rw [check]
  split
  · exact raised_ok _
  · exact raised_error (h name)

theorem raised_mapM {f : α → Except StoreError τ} (h : ∀ a, Raised P (f a)) (as : List α) :
    Raised P (as.mapM f) := by
  intro err herr
  obtain ⟨a, -, ha⟩ := exists_of_mapM_eq_error herr
  exact h a err ha

namespace TableStore

/-- The errors that a table store raises by itself. -/
structure OwnErrors (P : StoreError → Prop) : Prop where
  invalidIdentifier : ∀ name, P (.invalidIdentifier name)
  invalidOperand : ∀ attr operator reason, P (.invalidOperand attr operator reason)
  notFound : ∀ table id, P (.notFound table id)

variable [Model μ] {t : TableStore σ}

/-- A store raises what its connection raises, and the models that take a key. -/
theorem write_raises (hP : OwnErrors P) (hset : ∀ name v (m : μ), Raised P (Model.set name v m))
    (hexecute : ∀ sql params, (t.connection.execute sql params).Raises P)
    (hid : t.connection.lastInsertId.Raises P) : (t.write : Act (σ × μ) Unit).Raises P := by
  have hchecks : ∀ {β : Type} (f : β → String) (bs : List β),
      Raised P (bs.mapM fun b => Identifier.check (f b)) := fun f bs =>
    raised_mapM (fun b => Identifier.check_raised hP.invalidIdentifier (f b)) bs
  have hkeyColumns : ∀ key, Raised P (t.keyColumns key) := by
    intro key
    rw [keyColumns]
    split
    · exact hchecks id _
    · exact raised_error (hP.invalidOperand _ _ _)
  have hproperty : ∀ name v, (setProperty name v : Act (σ × μ) Unit).Raises P := by
    rintro name v ⟨s, m⟩
    have hm := hset name v m
    rw [setProperty, Act.perform_make]
    dsimp only
    rcases hr : Model.set name v m with err | m' <;> rw [hr] at hm
    · exact raised_error (hm err rfl)
    · exact raised_ok ()
  have hinsert : (t.insert : Act (σ × μ) Unit).Raises P := by
    refine (Act.raises_read _).bind fun m => (Act.raises_ofExcept (hchecks _ _)).bind fun columns =>
      (hexecute _ _).zoom.bind fun _ => ?_
    split
    · split
      · exact hid.zoom.bind fun id => hproperty _ _
      · exact Act.raises_pure ()
    · exact Act.raises_pure ()
  have hupdate : (t.update : Act (σ × μ) Unit).Raises P := by
    refine (Act.raises_read _).bind fun m => ?_
    dsimp only
    split
    · exact Act.raises_pure ()
    · refine (Act.raises_ofExcept (hchecks _ _)).bind fun assigned =>
        (Act.raises_ofExcept (hkeyColumns _)).bind fun keys =>
          (hexecute _ _).zoom.bind fun affected => ?_
      split
      · exact Act.raises_fail (hP.notFound _ _)
      · exact Act.raises_pure ()
  refine (Act.raises_read _).bind fun m => ?_
  split
  · exact hupdate
  · exact hinsert

end TableStore

namespace Rehearsal.Stage

/-- A call that fails is not refused. -/
theorem answer_raises (i : Nat) (call : Call) (details : Details) (effect : Line → α × Line) :
    (answer i call details effect).Raises fun err => err.isRefusal = false := by
  intro s
  simp only [answer, Act.perform_make]
  split
  · exact raised_error rfl
  · exact raised_ok _

theorem itemEngine_raises : itemEngine.Raises fun err => err.isRefusal = false where
  validate m := by
    change Raised _ m.validate
    rw [Record.validate]
    split
    · exact raised_error rfl
    · exact raised_ok ()
  write route := by
    refine TableStore.write_raises ⟨fun _ => rfl, fun _ _ _ => rfl, fun _ _ => rfl⟩ ?_
      (fun _ _ => answer_raises _ _ _ _) (answer_raises _ _ _ _)
    intro name v m
    change Raised _ (m.set name v)
    rw [Record.set]
    split
    · exact raised_error rfl
    · split <;> exact raised_ok _
  connection route := ⟨answer_raises _ _ _ _, answer_raises _ _ _ _⟩
  beforeValidate := trivial
  beforeSave := trivial
  afterSave := trivial
  before m hook hhook := by
    simp only [itemEngine] at hhook
    split at hhook
    · rw [List.mem_singleton.1 hhook]
      trivial
    · cases hhook
  after m hook hhook := by
    simp only [itemEngine] at hhook
    split at hhook
    · rw [List.mem_singleton.1 hhook]
      exact fun _ _ _ => trivial
    · cases hhook

/-- The frames of the routes along which items are saved. -/
def itemFrames (route : Nat) : Frame := if route = 0 then .connected 1 else .plain

theorem itemFrames_isOrdinary (route : Nat) : (itemFrames route).IsOrdinary := by
  rw [itemFrames]
  split
  · exact .inl rfl
  · exact .inr rfl

theorem itemEngine_hasFrames : itemEngine.HasFrames itemFrames := by
  intro route
  simp only [itemEngine, itemFrames]
  split
  · exact TransactionScheme.standard_frames
  · exact fun _ _ _ => rfl

/-- An order that is saved while all routes write, with a part that is saved after it. -/
theorem order_refuses_no_move :
    ((itemEngine.save 2 0).perform
      ({ emptyStage with phases := fun _ => .save }, [item "order"])).2.1.phases =
        (fun _ => .save) ∧
    itemEngine.saveBy SaveEngine.moveOrGiveUp 2 0 = itemEngine.save 2 0 ∧
    (itemEngine.save 2 0).Raises fun err => err.isRefusal = false := by
  obtain ⟨hphases, hmoves, hraises⟩ :=
    SaveEngine.save_refuses_no_move itemEngine_hasFrames 2 0
  exact ⟨hphases _ _,
    hmoves _ SaveEngine.isMover_moveOrGiveUp fun route => .inl (itemFrames_isOrdinary route),
    hraises itemFrames_isOrdinary itemEngine_raises⟩

end Rehearsal.Stage

end RecordStore
