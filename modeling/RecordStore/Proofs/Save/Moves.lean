import RecordStore.Proofs.Moves
import RecordStore.Save.Engine

/-!
# Where saves lead

Everything that a save does to the world is done by the store that writes its models, by the code
of the models, and by the transactions that it runs in. So a relation along which these move is one
along which the whole save moves.

* A program moves along a relation if its actions do, the saves that it starts, and the chains that
  it runs (`Program.Along.moves`); whether it may start saves at all is part of the assumption.
* A store moves along a relation if the statements of its connection do
  (`TableStore.write_moves`).
* The phases of a save move along a relation if the store does, and the code of the models
  (`SaveEngine.IsSteady`, `SaveEngine.IsSteady.runPhases`).

Phases of routes are not part of the world in view.
-/

namespace RecordStore

variable {α μ σ : Type} {R : σ → σ → Prop}

/-! ### Programs -/

namespace Program

/-- What a program may do: act along a relation, and, if it may nest saves at all, start saves and
    run units on connections of some kind. -/
def Along (R : σ → σ → Prop) (onLine : Connection σ → Prop) (nests : Prop) : Program α μ σ → Prop
  | done _ => True
  | fail _ => True
  | look next => ∀ a s, (next a s).Along R onLine nests
  | act f next => (f.Moves R fun p => p.1) ∧ ∀ r, (next r).Along R onLine nests
  | phase _ next => ∀ p, (next p).Along R onLine nests
  | save _ _ _ next => nests ∧ ∀ r ms, (next r ms).Along R onLine nests
  | execute _ errands bodies check next =>
    nests ∧ (∀ i c, (errands i).connection = some c → onLine c) ∧
      (∀ i, (bodies i).Along R onLine nests) ∧ check.Along R onLine nests ∧
      ∀ r, (next r).Along R onLine nests

/-- The world of a program, without the phases and the subject. -/
abbrev inScope (scope : Scope σ α) : σ := scope.1.world

/-- A chain of units on connections of some kind moves along a relation if the units do. -/
def ChainsMove (R : σ → σ → Prop) (onLine : Connection σ → Prop) (α : Type) : Prop :=
  ∀ (units : List (WorkUnit (Scope σ α))) (check : Act (Scope σ α) Unit),
    (∀ u ∈ units, u.run.Moves R inScope) →
    (∀ u ∈ units, ∀ c, u.connection = some c →
      ∃ c', onLine c' ∧ c = c'.zoom (Lens.fst.comp Saving.worldLens)) →
    check.Moves R inScope → (TransactionScheme.standard.executeChecked units check).Moves R inScope

variable [Std.Refl R] [IsTrans σ R]

/-- A program moves along a relation if what it is made of does. -/
theorem Along.moves {saver : Saver μ σ} {onLine : Connection σ → Prop} {nests : Prop}
    (hsaver : nests → ∀ route, (saver route).Moves R fun p => p.1.world)
    (hchains : nests → ChainsMove R onLine α) {p : Program α μ σ} (h : p.Along R onLine nests)
    (own : Nat) : (p.run saver own).Moves R inScope := by
  induction p generalizing own with
  | done outcome => exact Act.moves_pure outcome
  | fail e => exact Act.moves_fail e
  | look next ih => exact fun ⟨s, a⟩ => ih a s.world (h a s.world) own (s, a)
  | act f next ih =>
    rintro ⟨s, a⟩
    have hact := h.1 (s.world, a)
    rcases hf : f.perform (s.world, a) with ⟨r, world, a'⟩
    rw [hf] at hact
    have hnext := ih r (h.2 r) own ({ s with world }, a')
    simp only [run, Act.perform_make, hf]
    exact IsTrans.trans _ _ _ hact hnext
  | phase route next ih => exact fun ⟨s, a⟩ => ih _ (h _) own (s, a)
  | save route models put next ih =>
    rintro ⟨s, a⟩
    have hsave := hsaver h.1 (route.getD own) (s, models a)
    rcases hf : (saver (route.getD own)).perform (s, models a) with ⟨r, s', ms⟩
    rw [hf] at hsave
    have hnext := ih r ms (h.2 r ms) own (s', put ms a)
    simp only [run, Act.perform_make, hf]
    exact IsTrans.trans _ _ _ hsave hnext
  | execute count errands bodies check next ihBodies ihCheck ihNext =>
    obtain ⟨hnests, herrands, hbodies, hcheck, hnext⟩ := h
    -- Bodies and the check are run for their effect; their outcomes are dropped.
    have hdrop : ∀ {q : Program α μ σ}, (q.run saver firstRoute).Moves R inScope →
        (do let _ ← q.run saver firstRoute : Act (Scope σ α) Unit).Moves R inScope :=
      fun hq => hq.bind fun _ => Act.moves_pure ()
    have hchain := hchains hnests
      (workUnits errands fun i => do let _ ← (bodies i).run saver firstRoute)
      (do let _ ← check.run saver firstRoute) (by
        intro u hu
        obtain ⟨i, rfl⟩ := List.mem_ofFn.1 hu
        exact hdrop (ihBodies i (hbodies i) firstRoute)) (by
        intro u hu c hc
        obtain ⟨i, rfl⟩ := List.mem_ofFn.1 hu
        obtain ⟨c', hc', rfl⟩ := Option.map_eq_some_iff.1 hc
        exact ⟨c', herrands i c' hc', rfl⟩) (hdrop (ihCheck hcheck firstRoute))
    exact fun scope => IsTrans.trans _ _ _ (hchain scope) (ihNext _ (hnext _) own _)

end Program

/-! ### Stores -/

namespace TableStore

variable [Model μ] [Std.Refl R] {t : TableStore σ}

theorem setProperty_moves (name : String) (value : Value) :
    (setProperty name value : Act (σ × μ) Unit).Moves R fun p => p.1 := by
  refine Act.moves_of_view_eq fun ⟨s, m⟩ => ?_
  simp only [setProperty, Act.perform_make]
  rcases Model.set name value m with _ | _ <;> rfl

variable [IsTrans σ R]

/-- A store only sends statements, and asks for the key that the last one generated. -/
theorem write_moves (hexecute : ∀ sql params, (t.connection.execute sql params).Moves R fun s => s)
    (hlast : t.connection.lastInsertId.Moves R fun s => s) :
    (t.write : Act (σ × μ) Unit).Moves R fun p => p.1 := by
  have hsend : ∀ sql params, ((t.connection.execute sql params).zoom .fst : Act (σ × μ) Nat).Moves
      R fun p => p.1 := fun sql params => (hexecute sql params).zoom fun _ => rfl
  refine (Act.moves_read _).bind fun m => ?_
  split
  · refine (Act.moves_read _).bind fun m => ?_
    dsimp only
    split
    · exact Act.moves_pure ()
    · refine (Act.moves_ofExcept _).bind fun assigned => (Act.moves_ofExcept _).bind fun keys => ?_
      refine (hsend _ _).bind fun affected => ?_
      split
      · exact Act.moves_fail _
      · exact Act.moves_pure ()
  · refine (Act.moves_read _).bind fun m => (Act.moves_ofExcept _).bind fun columns => ?_
    refine (hsend _ _).bind fun _ => ?_
    split
    · split
      · refine Act.Moves.bind ?_ fun id => setProperty_moves _ _
        exact hlast.zoom fun _ => rfl
      · exact Act.moves_pure ()
    · exact Act.moves_pure ()

end TableStore

/-! ### The phases of a save -/

namespace SaveEngine

variable {e : SaveEngine μ σ} {saver : Saver μ σ}

/-- The world of a save, without the phases and the models. -/
abbrev inSave (p : Saving σ × α) : σ := p.1.world

/-- The store and the code of the models move along a relation, given how nested saves are done. -/
structure IsSteady (e : SaveEngine μ σ) (saver : Saver μ σ) (R : σ → σ → Prop) : Prop where
  write : ∀ route, (e.routes route).writer.write.Moves R fun p => p.1
  beforeValidate : (e.behaviour.beforeValidate.run saver firstRoute).Moves R Program.inScope
  beforeSave : (e.behaviour.beforeSave.run saver firstRoute).Moves R Program.inScope
  afterSave : ∀ route, (e.behaviour.afterSave.run saver route).Moves R Program.inScope
  before : ∀ m, ∀ hook ∈ e.behaviour.hooks m,
    (hook.before.run saver firstRoute).Moves R Program.inScope
  after : ∀ m, ∀ hook ∈ e.behaviour.hooks m, ∀ route,
    (hook.after.run saver route).Moves R Program.inScope

variable [Std.Refl R]

/-- Moving forward leaves the world in view as it is. -/
theorem phaseMove_moves (route : Nat) (next : SavePhase) :
    (Saving.moveTo route next).Moves R fun s => s.world := by
  refine Act.moves_of_view_eq fun s => ?_
  simp only [Saving.moveTo, Act.perform_make]
  split <;> rfl

theorem moveTo_moves (route : Nat) (next : SavePhase) :
    (moveTo route next : Act (BatchWorld μ σ) Unit).Moves R inSave :=
  (phaseMove_moves route next).zoom fun _ => rfl

omit [Std.Refl R] in
/-- What does not depend on phases is kept by a move. -/
theorem moveTo_keeps (route : Nat) {Inv : BatchWorld μ σ → Prop}
    (hphase : ∀ s batch phase, Inv (s, batch) → Inv (s.setPhase route phase, batch))
    (next : SavePhase) : (moveTo route next : Act (BatchWorld μ σ) Unit).Keeps Inv := by
  rintro ⟨s, batch⟩ h
  simp only [moveTo, Act.perform_zoom, Saving.moveTo, Act.perform_make, id_eq]
  split
  · exact hphase s batch next h
  · exact h

variable [IsTrans σ R]

/-- Code moves along a relation if all of it does, for any part of the world and the model. -/
theorem runBefore_moves {γ : Type} {S : γ → γ → Prop} [Std.Refl S] [IsTrans γ S]
    {view : Saving σ × μ → γ} {hooks : List (Hook μ σ)}
    (hhooks : ∀ hook ∈ hooks, (hook.before.run saver firstRoute).Moves S view) :
    (runBefore saver hooks).Moves S view := by
  induction hooks with
  | nil => exact Act.moves_pure _
  | cons hook rest ih =>
    obtain ⟨hhook, hrest⟩ := List.forall_mem_cons.1 hhooks
    refine hhook.bind fun outcome => ?_
    cases outcome with
    | proceed => exact ih hrest
    | skip | add => exact Act.moves_pure _

theorem runAfter_moves {γ : Type} {S : γ → γ → Prop} [Std.Refl S] [IsTrans γ S]
    {view : Saving σ × μ → γ} {route : Nat} {hooks : List (Hook μ σ)}
    (hhooks : ∀ hook ∈ hooks, (hook.after.run saver route).Moves S view) :
    (runAfter saver route hooks).Moves S view := by
  induction hooks with
  | nil => exact Act.moves_pure _
  | cons hook rest ih =>
    obtain ⟨hhook, hrest⟩ := List.forall_mem_cons.1 hhooks
    exact hhook.bind fun _ => ih hrest

theorem IsSteady.beforeModel (h : e.IsSteady saver R) : (e.beforeSave saver).Moves R inSave := by
  refine h.beforeSave.bind fun outcome => ?_
  cases outcome with
  | proceed => exact fun t => runBefore_moves (h.before t.2) t
  | skip | add => exact Act.moves_pure _

theorem IsSteady.afterModel (h : e.IsSteady saver R) (route : Nat) :
    (e.afterSave saver route).Moves R inSave :=
  (h.afterSave route).bind fun _ => fun t =>
    runAfter_moves (fun hook hhook => h.after t.2 hook hhook route) t

theorem IsSteady.beforePhase (h : e.IsSteady saver R) (batch : List (BatchEntry μ))
    (s : Saving σ) : R s.world (e.beforePhase saver batch s).2.1.world := by
  induction batch generalizing s with
  | nil => exact Std.Refl.refl _
  | cons p rest ih =>
    rw [SaveEngine.beforePhase]
    split
    · exact ih s
    · have hmodel := h.beforeModel (s, p.model)
      rcases hf : (e.beforeSave saver).perform (s, p.model) with ⟨_ | outcome, s', m⟩ <;>
        rw [hf] at hmodel
      · exact hmodel
      · cases outcome with
        | add models => exact hmodel
        | proceed | skip => exact IsTrans.trans _ _ _ hmodel (ih s')

variable [Model μ]

theorem validate_moves : (validate : Act (Saving σ × μ) Unit).Moves R inSave :=
  (Act.moves_read _).bind fun _ => Act.moves_ofExcept _

theorem validateModel_moves
    (h : (e.behaviour.beforeValidate.run saver firstRoute).Moves R Program.inScope) :
    (e.validateModel saver).Moves R inSave := h.bind fun _ => validate_moves

/-- A batch is prepared along a relation if the parts of its preparation move along it, also if more
    models are put in front. -/
theorem prepare_moves {γ : Type} {S : γ → γ → Prop} [Std.Refl S] [IsTrans γ S]
    {view : BatchWorld μ σ → γ} {route : Nat}
    (hmove : ∀ next, (moveTo route next : Act (BatchWorld μ σ) Unit).Moves S view)
    (hvalidate : (Act.forEach (e.validateEntry saver)).Moves S view)
    (hbefore : ∀ s batch, S (view (s, batch)) (view (e.beforePhase saver batch s).2) ∧
      ∀ models, (e.beforePhase saver batch s).1 = .ok (some models) →
        S (view (s, batch)) (view ((e.beforePhase saver batch s).2.1.setPhase route .idle,
          models.map (⟨·, false, false, false, none⟩) ++ (e.beforePhase saver batch s).2.2)))
    (restarts : Nat) : (e.prepare saver route restarts).Moves S view := by
  induction restarts with
  | zero => exact Act.moves_fail _
  | succ restarts ih =>
    refine (Act.moves_read _).bind fun phase => ?_
    -- What follows on the move to validation, if there is one.
    extract_lets rest
    have hrest : ∀ r, (rest r).Moves S view := by
      intro r
      refine hvalidate.bind fun _ => (hmove _).bind fun _ => ?_
      -- What is added is only known together with the outcome that asks for it.
      rintro ⟨s, batch⟩
      obtain ⟨hkept, hmore⟩ := hbefore s batch
      rw [Act.perform_bind, Act.perform_make]
      dsimp only
      rcases hf : e.beforePhase saver batch s with ⟨_ | added, s', batch'⟩ <;>
        rw [hf] at hkept hmore
      · exact hkept
      · cases added with
        | none => exact hkept
        | some models => exact IsTrans.trans _ _ _ (hmore models rfl) (ih _)
    split
    · exact (hmove _).bind hrest
    · exact hrest ()

namespace IsSteady

variable (h : e.IsSteady saver R)

include h

theorem writeModel (route : Nat) : (e.write route).Moves R inSave := by
  refine Act.Moves.bind ?_ fun _ => ?_
  · exact (h.write route).zoom fun _ => rfl
  · exact Act.moves_change fun _ => rfl

theorem writePending (route : Nat) : (e.writePending route).Moves R inSave := by
  refine (Act.moves_read _).bind fun isEdited => ?_
  split
  · exact validate_moves.bind fun _ => h.writeModel route
  · exact Act.moves_pure ()

theorem validateEntry : (e.validateEntry saver).Moves R inSave := by
  refine (Act.moves_read _).bind fun isValidated => ?_
  split
  · refine Act.Moves.bind ?_ fun _ => ?_
    · exact (validateModel_moves h.beforeValidate).zoom fun _ => rfl
    · exact Act.moves_change fun _ => rfl
  · exact Act.moves_pure ()

theorem prepare (route restarts : Nat) : (e.prepare saver route restarts).Moves R inSave :=
  prepare_moves (moveTo_moves route) h.validateEntry.forEach
    (fun s batch => ⟨h.beforePhase batch s, fun _ _ => h.beforePhase batch s⟩) restarts

theorem writeEntry (route : Nat) : (e.writeEntry route).Moves R inSave := by
  refine (Act.moves_read _).bind fun isSkipped => ?_
  split
  · refine Act.Moves.bind ?_ fun _ => ?_
    · exact Act.moves_change fun _ => rfl
    · exact (h.writeModel route).zoom fun _ => rfl
  · exact Act.moves_pure ()

theorem finishEntry (route : Nat) : (e.finishEntry saver route).Moves R inSave := by
  refine (Act.moves_read _).bind fun isSkipped => ?_
  split
  · exact ((h.afterModel route).bind fun _ => h.writePending route).zoom fun _ => rfl
  · exact Act.moves_pure ()

/-- What a save does inside its transaction. -/
theorem runPhases (route bound : Nat) : (e.runPhases saver route bound).Moves R inSave :=
  (h.prepare route (bound + 1)).bind fun _ => (moveTo_moves route _).bind fun _ =>
    (h.writeEntry route).forEach.bind fun _ => (moveTo_moves route _).bind fun _ =>
      (h.finishEntry route).forEach

end IsSteady

end SaveEngine

end RecordStore
