import RecordStore.Proofs.Save.Programs

/-!
# What saves keep

A save leads its world along a relation and each of its models along another one, if the stores that
write do so, and the code of the models, for the kind of models that is saved (`Lead`). That is shown
phase by phase (`SaveEngine.IsStable`), for a batch to which models of the same kind may be added, and
then, by induction on how deep saves nest, for all saves (`SaveEngine.save_leads`).

So every save leaves the phases of all routes as it found them (`SaveEngine.save_keeps_phases`).
-/

namespace RecordStore

variable {α β γ μ σ τ : Type}

/-- If what stands beside a world is of a kind, it stays so and goes along a relation, while the
    world goes along another one. -/
def Lead (A : α → Prop) (R : γ → γ → Prop) (Q : α → α → Prop) (x y : γ × α) : Prop :=
  A x.2 → R x.1 y.1 ∧ Q x.2 y.2 ∧ A y.2

section Lead

variable {A : α → Prop} {R : γ → γ → Prop} {Q : α → α → Prop}

instance [Std.Refl R] [Std.Refl Q] : Std.Refl (Lead A R Q) :=
  ⟨fun _ hA => ⟨Std.Refl.refl _, Std.Refl.refl _, hA⟩⟩

instance [IsTrans γ R] [IsTrans α Q] : IsTrans (γ × α) (Lead A R Q) where
  trans := by
    intro x y z hxy hyz hA
    obtain ⟨hR, hQ, hy⟩ := hxy hA
    obtain ⟨hR', hQ', hz⟩ := hyz hy
    exact ⟨IsTrans.trans _ _ _ hR hR', IsTrans.trans _ _ _ hQ hQ', hz⟩

instance forall₂_refl [Std.Refl Q] : Std.Refl (List.Forall₂ Q) :=
  ⟨List.forall₂_refl⟩

theorem forall₂_comp {δ : Type} {Q : α → β → Prop} {S : β → δ → Prop} {T : α → δ → Prop}
    (hcomp : ∀ a b d, Q a b → S b d → T a d) {as : List α} {bs : List β} {ds : List δ}
    (h : List.Forall₂ Q as bs) (h' : List.Forall₂ S bs ds) : List.Forall₂ T as ds := by
  induction h generalizing ds with
  | nil =>
    cases h'
    exact .nil
  | cons hq _ ih =>
    cases h' with
    | cons hs h' => exact .cons (hcomp _ _ _ hq hs) (ih h')

instance forall₂_trans [IsTrans α Q] : IsTrans (List α) (List.Forall₂ Q) :=
  ⟨fun _ _ _ => forall₂_comp fun a b c => IsTrans.trans (r := Q) a b c⟩

/-- A world with something beside it, in view. -/
abbrev seen (view : τ → γ) (p : τ × α) : γ × α := (view p.1, p.2)

/-- A loop leads its list where its rounds lead the elements. -/
theorem Act.Moves.forEach_lead [Std.Refl R] [IsTrans γ R] [Std.Refl Q] {view : τ → γ}
    {f : Act (τ × α) Unit} (h : f.Moves (Lead A R Q) (seen view)) :
    (Act.forEach f).Moves (Lead (fun as => ∀ a ∈ as, A a) R (List.Forall₂ Q)) (seen view) := by
  rintro ⟨t, as⟩ hA
  change R (view t) (view (each f as t).2.1) ∧ List.Forall₂ Q as (each f as t).2.2 ∧
    ∀ a ∈ (each f as t).2.2, A a
  induction as generalizing t with
  | nil => exact ⟨Std.Refl.refl _, .nil, by simp [each]⟩
  | cons a rest ih =>
    obtain ⟨ha, hrest⟩ := List.forall_mem_cons.1 hA
    obtain ⟨hR, hQ, hA'⟩ := h (t, a) ha
    rcases hf : f.perform (t, a) with ⟨_ | _, t', a'⟩ <;> rw [hf] at hR hQ hA' <;>
      simp only [each, hf]
    · exact ⟨hR, .cons hQ (List.forall₂_refl _),
        List.forall_mem_cons.2 ⟨hA', hrest⟩⟩
    · obtain ⟨hR', hQ', hkept⟩ := ih t' hrest
      exact ⟨IsTrans.trans _ _ _ hR hR', .cons hQ hQ', List.forall_mem_cons.2 ⟨hA', hkept⟩⟩

/-- A loop whose rounds need nothing of the elements moves the world as these do. -/
theorem Act.Moves.forEach_view [Std.Refl R] [IsTrans γ R] [Std.Refl Q] {view : τ → γ}
    {f : Act (τ × α) Unit} (h : f.Moves (Lead (fun _ => True) R Q) (seen view)) {t t' : τ}
    {as as' : List α} {r : Except StoreError Unit}
    (hrun : (Act.forEach f).perform (t, as) = (r, t', as')) : R (view t) (view t') := by
  have hlead := (h.forEach_lead (t, as) fun _ _ => trivial).1
  rwa [hrun] at hlead

/-- The elements of a list go where the rounds of a loop lead them. -/
theorem Act.Moves.forEach_beside [Std.Refl Q] {f : Act (τ × α) Unit} (h : f.Moves Q (·.2)) :
    (Act.forEach f).Moves (List.Forall₂ Q) (·.2) := by
  have hlead : f.Moves (Lead (fun _ => True) Eq Q) (seen fun _ => ()) :=
    fun t _ => ⟨rfl, h t, trivial⟩
  exact fun t => (hlead.forEach_lead t fun _ _ => trivial).2.1

end Lead

/-- A list goes where its elements go, and may grow at the front. -/
def Grown (Q : α → β → Prop) (as : List α) (bs : List β) : Prop :=
  ∃ front old, bs = front ++ old ∧ List.Forall₂ Q as old

section Grown

variable {Q : α → β → Prop}

theorem Grown.of_forall₂ {as : List α} {bs : List β} (h : List.Forall₂ Q as bs) : Grown Q as bs :=
  ⟨[], bs, rfl, h⟩

theorem Grown.mono {S : α → β → Prop} (hQS : ∀ a b, Q a b → S a b) {as : List α} {bs : List β}
    (h : Grown Q as bs) : Grown S as bs := by
  obtain ⟨front, old, rfl, hold⟩ := h
  exact ⟨front, old, rfl, hold.imp hQS⟩

theorem Grown.comp {δ : Type} {S : β → δ → Prop} {T : α → δ → Prop}
    (hcomp : ∀ a b d, Q a b → S b d → T a d) {as : List α} {bs : List β} {ds : List δ}
    (h : Grown Q as bs) (h' : Grown S bs ds) : Grown T as ds := by
  obtain ⟨front, old, rfl, hold⟩ := h
  obtain ⟨front', old', rfl, hold'⟩ := h'
  have hdrop := List.forall₂_drop_append _ front old hold'.flip
  refine ⟨front' ++ old'.take front.length, old'.drop front.length, ?_,
    forall₂_comp hcomp hold hdrop.flip⟩
  rw [List.append_assoc, List.take_append_drop]

instance {Q : α → α → Prop} [Std.Refl Q] : Std.Refl (Grown Q) :=
  ⟨fun _ => .of_forall₂ (Std.Refl.refl _)⟩

instance {Q : α → α → Prop} [IsTrans α Q] : IsTrans (List α) (Grown Q) :=
  ⟨fun _ _ _ => Grown.comp fun a b c => IsTrans.trans (r := Q) a b c⟩

end Grown

/-! ### The parts of a save -/

namespace SaveEngine

variable {e : SaveEngine μ σ} {saver : Saver μ σ} {route : Nat} {view : Saving σ → γ}
  {A : μ → Prop} {R : γ → γ → Prop} {Q : μ → μ → Prop}

/-- Code before the write leads its model, and asks only for models of the same kind. -/
structure Leads (view : Saving σ → γ) (A : μ → Prop) (R : γ → γ → Prop) (Q : μ → μ → Prop)
    (f : Act (Saving σ × μ) (Outcome μ)) : Prop where
  moves : f.Moves (Lead A R Q) (seen view)
  added : ∀ p ms, A p.2 → (f.perform p).1 = .ok (.add ms) → ∀ m ∈ ms, A m

/-- The code of the models leads them along relations. -/
structure LeadsCode (e : SaveEngine μ σ) (saver : Saver μ σ) (route : Nat)
    (view : Saving σ → γ) (A : μ → Prop) (R : γ → γ → Prop) (Q : μ → μ → Prop) : Prop where
  beforeValidate :
    (e.behaviour.beforeValidate.run saver firstRoute).Moves (Lead A R Q) (seen view)
  beforeSave : Leads view A R Q (e.behaviour.beforeSave.run saver firstRoute)
  afterSave : (e.behaviour.afterSave.run saver route).Moves (Lead A R Q) (seen view)
  before : ∀ m, ∀ hook ∈ e.behaviour.hooks m,
    Leads view A R Q (hook.before.run saver firstRoute)
  after : ∀ m, ∀ hook ∈ e.behaviour.hooks m,
    (hook.after.run saver route).Moves (Lead A R Q) (seen view)

/-- So does the store. -/
structure LeadsModels [Model μ] (e : SaveEngine μ σ) (saver : Saver μ σ) (route : Nat)
    (view : Saving σ → γ) (A : μ → Prop) (R : γ → γ → Prop) (Q : μ → μ → Prop) : Prop
    extends e.LeadsCode saver route view A R Q where
  write : ((e.routes route).writer.write.zoom worldLens).Moves (Lead A R Q) (seen view)
  clearEdits : ∀ m, A m → Q m (Model.clearEdits m) ∧ A (Model.clearEdits m)

/-- So does what is done when a batch fails, and the phases are not in view. -/
structure IsStable [Model μ] (e : SaveEngine μ σ) (saver : Saver μ σ) (route : Nat)
    (view : Saving σ → γ) (A : μ → Prop) (R : γ → γ → Prop) (Q : μ → μ → Prop) : Prop
    extends e.LeadsModels saver route view A R Q where
  control : ((e.routes route).writer.connection.zoom Saving.worldLens).Moves R view
  restore : ∀ (p : PriorState) m, A m → Q m (p.restore m) ∧ A (p.restore m)
  setPhase : ∀ s phase, view (s.setPhase route phase) = view s

variable [Std.Refl R] [IsTrans γ R] [Std.Refl Q] [IsTrans μ Q]

omit [IsTrans γ R] [IsTrans μ Q] in
theorem leads_pure {o : Outcome μ} (ho : ∀ ms, o ≠ .add ms) : Leads view A R Q (pure o) where
  moves := Act.moves_pure o
  added p ms _ hadd := (ho ms (by simpa using hadd)).elim

theorem runBefore_leads {hooks : List (Hook μ σ)}
    (hhooks : ∀ hook ∈ hooks, Leads view A R Q (hook.before.run saver firstRoute)) :
    Leads view A R Q (runBefore saver hooks) := by
  induction hooks with
  | nil => exact leads_pure nofun
  | cons hook rest ih =>
    obtain ⟨hhook, hrest⟩ := List.forall_mem_cons.1 hhooks
    constructor
    · refine hhook.moves.bind fun outcome => ?_
      cases outcome with
      | proceed => exact (ih hrest).moves
      | skip | add => exact Act.moves_pure _
    · intro p ms hA hadd
      have hmoves := hhook.moves p hA
      rw [runBefore, Act.perform_bind] at hadd
      rcases hf : (hook.before.run saver firstRoute).perform p with ⟨_ | outcome, p'⟩ <;>
        rw [hf] at hadd hmoves
      · cases hadd
      · cases outcome with
        | proceed => exact (ih hrest).added p' ms hmoves.2.2 hadd
        | skip => cases hadd
        | add ms' =>
          cases hadd
          exact hhook.added p ms hA (by rw [hf])

variable [Model μ]

theorem validate_moves_lead :
    (validate : Act (Saving σ × μ) Unit).Moves (Lead A R Q) (seen view) :=
  (Act.moves_read _).bind fun _ => Act.moves_ofExcept _

namespace LeadsCode

variable (h : e.LeadsCode saver route view A R Q)

include h

omit [Model μ] in
theorem beforeModel : Leads view A R Q (e.beforeSave saver) := by
  constructor
  · refine h.beforeSave.moves.bind fun outcome => ?_
    cases outcome with
    | proceed => exact fun t => (runBefore_leads (h.before t.2)).moves t
    | skip | add => exact Act.moves_pure _
  · intro p ms hA hadd
    have hmoves := h.beforeSave.moves p hA
    rw [SaveEngine.beforeSave, Act.perform_bind] at hadd
    rcases hf : (e.behaviour.beforeSave.run saver firstRoute).perform p with ⟨_ | outcome, p'⟩ <;>
      rw [hf] at hadd hmoves
    · cases hadd
    · cases outcome with
      | proceed => exact (runBefore_leads (h.before p'.2)).added p' ms hmoves.2.2 hadd
      | skip => cases hadd
      | add ms' =>
        cases hadd
        exact h.beforeSave.added p ms hA (by rw [hf])

omit [Model μ] in
theorem afterModel : (e.afterSave saver route).Moves (Lead A R Q) (seen view) :=
  h.afterSave.bind fun _ => fun t => runAfter_moves (h.after t.2) t

theorem validateModel : (e.validateModel saver).Moves (Lead A R Q) (seen view) :=
  h.beforeValidate.bind fun _ => validate_moves_lead

end LeadsCode

namespace LeadsModels

variable (h : e.LeadsModels saver route view A R Q)

include h

omit [Std.Refl Q] in
theorem writeModel : (e.write route).Moves (Lead A R Q) (seen view) :=
  h.write.bind fun _ => fun (_, m) hA =>
    have hclear := h.clearEdits m hA
    ⟨Std.Refl.refl _, hclear.1, hclear.2⟩

theorem writePending : (e.writePending route).Moves (Lead A R Q) (seen view) := by
  refine (Act.moves_read _).bind fun isEdited => ?_
  split
  · exact validate_moves_lead.bind fun _ => h.writeModel
  · exact Act.moves_pure ()

end LeadsModels

/-! ### Batches -/

/-- Entries whose models are of a kind. -/
abbrev OfKind (A : μ → Prop) (p : BatchEntry μ) : Prop := A p.model

/-- Entries whose models are related. -/
def Along (Q : μ → μ → Prop) (p p' : BatchEntry μ) : Prop := Q p.model p'.model

instance : Std.Refl (Along Q) := ⟨fun _ => Std.Refl.refl (r := Q) _⟩

instance : IsTrans (BatchEntry μ) (Along Q) where
  trans := by
    intro p p' p'' h h'
    exact IsTrans.trans (r := Q) _ _ _ h h'

/-- What a batch does: its models are led along, and more of the kind may come in front. -/
abbrev BatchMoves (view : Saving σ → γ) (A : μ → Prop) (R : γ → γ → Prop) (Q : μ → μ → Prop)
    {β : Type} (f : Act (BatchWorld μ σ) β) : Prop :=
  f.Moves (Lead (fun batch => ∀ p ∈ batch, OfKind A p) R (Grown (Along Q))) (seen view)

omit [Std.Refl R] [IsTrans γ R] [Std.Refl Q] [IsTrans μ Q] [Model μ] in
theorem zoom_modelLens_moves {β : Type} {f : Act (Saving σ × μ) β}
    (h : f.Moves (Lead A R Q) (seen view)) :
    (f.zoom modelLens).Moves (Lead (OfKind A) R (Along Q)) (seen view) :=
  fun (s, p) hA => h (s, p.model) hA

omit [IsTrans μ Q] [Model μ] in
theorem forEach_batchMoves {f : Act (Saving σ × BatchEntry μ) Unit}
    (h : f.Moves (Lead (OfKind A) R (Along Q)) (seen view)) :
    BatchMoves view A R Q (Act.forEach f) := by
  intro t hA
  obtain ⟨hR, hQ, hkept⟩ := h.forEach_lead t hA
  exact ⟨hR, .of_forall₂ hQ, hkept⟩

namespace LeadsCode

variable (h : e.LeadsCode saver route view A R Q)

include h

theorem validateEntry :
    (e.validateEntry saver).Moves (Lead (OfKind A) R (Along Q)) (seen view) := by
  refine (Act.moves_read _).bind fun isValidated => ?_
  split
  · refine (zoom_modelLens_moves h.validateModel).bind fun _ => ?_
    exact fun _ hA => ⟨Std.Refl.refl _, Std.Refl.refl (r := Q) _, hA⟩
  · exact Act.moves_pure ()

omit [Model μ] in
theorem beforePhase (batch : List (BatchEntry μ)) (s : Saving σ) (hA : ∀ p ∈ batch, OfKind A p) :
    R (view s) (view (e.beforePhase saver batch s).2.1) ∧
      List.Forall₂ (Along Q) batch (e.beforePhase saver batch s).2.2 ∧
      (∀ p ∈ (e.beforePhase saver batch s).2.2, OfKind A p) ∧
      ∀ ms, (e.beforePhase saver batch s).1 = .ok (some ms) → ∀ m ∈ ms, A m := by
  induction batch generalizing s with
  | nil => exact ⟨Std.Refl.refl _, .nil, hA, fun _ h => by cases h⟩
  | cons p rest ih =>
    obtain ⟨hp, hrest⟩ := List.forall_mem_cons.1 hA
    rw [SaveEngine.beforePhase]
    by_cases hdone : p.hooksDone = true
    · obtain ⟨hR, hQ, hkept, hadded⟩ := ih s hrest
      simp only [hdone, if_true]
      exact ⟨hR, .cons (Std.Refl.refl _) hQ, List.forall_mem_cons.2 ⟨hp, hkept⟩, hadded⟩
    · obtain ⟨hR, hQ, hm⟩ := h.beforeModel.moves (s, p.model) hp
      have hadded := h.beforeModel.added (s, p.model)
      simp only [hdone]
      rcases hf : (e.beforeSave saver).perform (s, p.model) with ⟨_ | outcome, s', m⟩ <;>
        rw [hf] at hR hQ hm hadded
      · exact ⟨hR, .cons hQ (List.forall₂_refl _), List.forall_mem_cons.2 ⟨hm, hrest⟩,
          fun _ h => by cases h⟩
      · cases outcome with
        | add models =>
          refine ⟨hR, .cons hQ (List.forall₂_refl _), List.forall_mem_cons.2 ⟨hm, hrest⟩, ?_⟩
          intro ms hms
          cases hms
          exact hadded _ hp rfl
        | proceed | skip =>
          obtain ⟨hR', hQ', hkept, hadded'⟩ := ih s' hrest
          exact ⟨IsTrans.trans _ _ _ hR hR', .cons hQ hQ', List.forall_mem_cons.2 ⟨hm, hkept⟩,
            hadded'⟩

end LeadsCode

namespace LeadsModels

variable (h : e.LeadsModels saver route view A R Q)

include h

theorem writeEntry : (e.writeEntry route).Moves (Lead (OfKind A) R (Along Q)) (seen view) := by
  refine (Act.moves_read _).bind fun isSkipped => ?_
  split
  · refine Act.Moves.bind ?_ fun _ => zoom_modelLens_moves h.writeModel
    exact fun _ hA => ⟨Std.Refl.refl _, Std.Refl.refl (r := Q) _, hA⟩
  · exact Act.moves_pure ()

theorem finishEntry :
    (e.finishEntry saver route).Moves (Lead (OfKind A) R (Along Q)) (seen view) := by
  refine (Act.moves_read _).bind fun isSkipped => ?_
  split
  · exact zoom_modelLens_moves (h.afterModel.bind fun _ => h.writePending)
  · exact Act.moves_pure ()

end LeadsModels

namespace IsStable

variable (h : e.IsStable saver route view A R Q)

include h

omit [IsTrans γ R] [Std.Refl Q] [IsTrans μ Q] in
theorem moveTo (next : SavePhase) : (Saving.moveTo route next).Moves R view := by
  refine Act.moves_of_view_eq fun s => ?_
  simp only [Saving.moveTo, Act.perform_make]
  split
  · exact h.setPhase s next
  · rfl

omit [IsTrans γ R] [IsTrans μ Q] in
theorem batchMoveTo (next : SavePhase) :
    BatchMoves view A R Q (SaveEngine.moveTo route next : Act (BatchWorld μ σ) Unit) :=
  fun (s, _) hA => ⟨h.moveTo next s, Std.Refl.refl _, hA⟩

theorem prepare (restarts : Nat) : BatchMoves view A R Q (e.prepare saver route restarts) := by
  refine prepare_moves h.batchMoveTo (forEach_batchMoves h.validateEntry) (fun s batch => ?_) restarts
  refine ⟨fun hA => ?_, fun models hmodels hA => ?_⟩ <;>
    obtain ⟨hR, hQ, hkept, hadded⟩ := h.beforePhase batch s hA
  · exact ⟨hR, .of_forall₂ hQ, hkept⟩
  · refine ⟨?_, ⟨_, _, rfl, hQ⟩, List.forall_mem_append.2 ⟨?_, hkept⟩⟩
    · dsimp only [seen]
      rw [h.setPhase]
      exact hR
    · intro p hp
      obtain ⟨m, hm, rfl⟩ := List.mem_map.1 hp
      exact hadded models hmodels m hm

theorem runPhases (bound : Nat) : BatchMoves view A R Q (e.runPhases saver route bound) :=
  (h.prepare (bound + 1)).bind fun _ => (h.batchMoveTo _).bind fun _ =>
    (forEach_batchMoves h.writeEntry).bind fun _ => (h.batchMoveTo _).bind fun _ =>
      forEach_batchMoves h.finishEntry

theorem runBatch (frame : Frame) (bound : Nat) :
    BatchMoves view A R Q (e.runBatch frame saver route bound) := by
  have hconnection : (e.batchConnection route).Moves
      (Lead (fun batch => ∀ p ∈ batch, OfKind A p) R (Grown (Along Q))) (seen view) := {
    begin := fun (s, _) hA => ⟨h.control.begin s, Std.Refl.refl _, hA⟩
    commit := fun (s, _) hA => ⟨h.control.commit s, Std.Refl.refl _, hA⟩
    rollback := fun (s, _) hA => ⟨h.control.rollback s, Std.Refl.refl _, hA⟩ }
  exact frame.enclose_moves hconnection (h.runPhases bound)

/-! ### Whole saves -/

omit [Std.Refl R] [IsTrans γ R] in
/-- The given models of a closed batch come from those with which it was opened. -/
theorem givenModels_closeBatch {models : List μ} {batch : List (BatchEntry μ)}
    (hgrown : Grown (Along Q) (openBatch models) batch) (hkept : ∀ p ∈ batch, OfKind A p)
    (r : Except StoreError Unit) :
    List.Forall₂ Q models (givenModels models.length (closeBatch r batch)) ∧
      ∀ m ∈ givenModels models.length (closeBatch r batch), A m := by
  obtain ⟨front, old, rfl, hold⟩ := hgrown
  have hundo : ∀ p : BatchEntry μ, A p.model → Q p.model (undo p).model ∧ A (undo p).model := by
    intro p hp
    rcases hprior : p.prior with _ | prior <;> simp only [undo, hprior]
    · exact ⟨Std.Refl.refl _, hp⟩
    · exact h.restore prior p.model hp
  have hall : ∀ p ∈ old, A p.model := (List.forall_mem_append.1 hkept).2
  have hmodels : ∀ {old : List (BatchEntry μ)}, List.Forall₂ (Along Q) (openBatch models) old →
      List.Forall₂ Q models (old.map (·.model)) := by
    intro old hold
    rw [openBatch, List.forall₂_map_left_iff] at hold
    exact List.forall₂_map_right_iff.2 hold
  have hlength : old.length = models.length := by simpa [openBatch] using hold.length_eq.symm
  cases r with
  | ok =>
    rw [closeBatch, givenModels_append front hlength]
    exact ⟨hmodels hold, by simpa using hall⟩
  | error =>
    rw [closeBatch, List.map_append, givenModels_append _ (by rw [List.length_map, hlength])]
    have hundone : List.Forall₂ (Along Q) old (old.map undo) :=
      List.forall₂_map_right_iff.2 (List.forall₂_same.2 fun p hp => (hundo p (hall p hp)).1)
    refine ⟨hmodels (IsTrans.trans _ _ _ hold hundone), ?_⟩
    simp only [List.map_map, List.forall_mem_map, Function.comp_apply]
    exact fun p hp => (hundo p (hall p hp)).2

/-- What a save does: its models are led along. -/
theorem saveWith_leads {frames : Nat → Frame} (hframes : e.HasFrames frames) (bound : Nat) :
    (e.saveWith saver bound route).Moves
      (Lead (fun models => ∀ m ∈ models, A m) R (List.Forall₂ Q)) (seen view) := by
  have hcommit : (e.commitBatch saver route bound).Moves
      (Lead (fun models => ∀ m ∈ models, A m) R (List.Forall₂ Q)) (seen view) := by
    rintro ⟨s, models⟩ hA
    obtain ⟨hR, hgrown, hkept⟩ := h.runBatch (frames route) bound (s, openBatch models)
      (by simpa [openBatch, OfKind] using hA)
    rcases hrun : (e.runBatch (frames route) saver route bound).perform (s, openBatch models) with
      ⟨r, s', batch⟩
    rw [hrun] at hR hgrown hkept
    rw [perform_commitBatch hframes hrun]
    exact ⟨hR, h.givenModels_closeBatch hgrown hkept r⟩
  have hmove : ((Saving.moveTo route .validate).zoom .fst : Act (Saving σ × List μ) Unit).Moves
      (Lead (fun models => ∀ m ∈ models, A m) R (List.Forall₂ Q)) (seen view) :=
    fun t hA => ⟨h.moveTo .validate t.1, Std.Refl.refl _, hA⟩
  have hfully := hmove.bind fun _ => h.validateModel.forEach_lead.bind fun _ => hcommit
  rintro ⟨s, models⟩ hA
  simp only [saveWith, Act.perform_make]
  split
  · exact h.writePending.forEach_lead (s, models) hA
  · split
    · exact ⟨Std.Refl.refl _, Std.Refl.refl _, hA⟩
    · obtain ⟨hR, hQ, hkept⟩ := hfully (s.setPhase route .idle, models) hA
      rw [seen, h.setPhase] at hR
      refine ⟨?_, hQ, hkept⟩
      simp only [h.setPhase]
      exact hR

end IsStable

/-- Every save leads its models along, however deep others are nested in it, if the phases are not in
    view at all. -/
theorem save_leads {frames : Nat → Frame} (hframes : e.HasFrames frames)
    (hstable : ∀ saver : Saver μ σ,
      (∀ route, (saver route).Moves (Lead (fun models => ∀ m ∈ models, A m) R (List.Forall₂ Q))
        (seen view)) →
      ∀ route, e.IsStable saver route view A R Q) (bound route : Nat) :
    (e.save bound route).Moves (Lead (fun models => ∀ m ∈ models, A m) R (List.Forall₂ Q))
      (seen view) := by
  induction bound generalizing route with
  | zero => exact Act.moves_fail boundReached
  | succ bound ih => exact (hstable _ ih route).saveWith_leads hframes bound

/-! ### Phases -/

/-- The phases, without that of one route. -/
def otherPhases (route : Nat) (s : Saving σ) : Nat → SavePhase :=
  Function.update s.phases route .idle

omit [Model μ] in
theorem otherPhases_setPhase (route : Nat) (s : Saving σ) (phase : SavePhase) :
    otherPhases route (s.setPhase route phase) = otherPhases route s := by
  funext i
  by_cases hi : i = route <;> simp [otherPhases, Saving.setPhase, hi]

/-- Anything goes. -/
def anyway (_ _ : α) : Prop := True

instance : Std.Refl (anyway : α → α → Prop) := ⟨fun _ => trivial⟩

instance : IsTrans α anyway := ⟨fun _ _ _ _ _ => trivial⟩

omit [Model μ] in
/-- No program changes a phase but by its saves. -/
theorem run_keeps_phases (hsaver : ∀ route, (saver route).Moves Eq fun p => p.1.phases)
    (p : Program μ μ σ) (own : Nat) : (p.run saver own).Moves Eq fun p => p.1.phases := by
  refine p.all_true.moves ?_ ?_ ?_ own
  · exact fun _ _ _ => rfl
  · exact fun _ _ => ⟨fun _ => rfl, fun _ => rfl, fun _ => rfl⟩
  · exact fun models _ _ route s a => hsaver route (s, models a)

/-- Nothing that is done with a model changes a phase. -/
theorem leadsModels_phases (hsaver : ∀ route, (saver route).Moves Eq fun p => p.1.phases)
    (route : Nat) (view : (Nat → SavePhase) → γ) :
    e.LeadsModels saver route (fun s => view s.phases) (fun _ => True) Eq anyway := by
  have hrun : ∀ (p : Program μ μ σ) own, (p.run saver own).Moves
      (Lead (fun _ => True) Eq anyway) (seen fun s => view s.phases) :=
    fun p own t _ => ⟨congrArg view (run_keeps_phases hsaver p own t), trivial, trivial⟩
  have hleads : ∀ p : Program μ μ σ,
      Leads (fun s => view s.phases) (fun _ => True) Eq anyway (p.run saver firstRoute) :=
    fun p => ⟨hrun p firstRoute, fun _ _ _ _ _ _ => trivial⟩
  exact {
    write := fun _ _ => ⟨rfl, trivial, trivial⟩
    clearEdits := fun _ _ => ⟨trivial, trivial⟩
    beforeValidate := hrun _ _
    beforeSave := hleads _
    afterSave := hrun _ _
    before := fun _ _ _ => hleads _
    after := fun _ _ _ => hrun _ _ }

theorem isStable_otherPhases (hsaver : ∀ route, (saver route).Moves Eq fun p => p.1.phases)
    (route : Nat) : e.IsStable saver route (otherPhases route) (fun _ => True) Eq anyway where
  toLeadsModels := leadsModels_phases hsaver route fun phases => Function.update phases route .idle
  control := ⟨fun _ => rfl, fun _ => rfl, fun _ => rfl⟩
  restore _ _ _ := ⟨trivial, trivial⟩
  setPhase := otherPhases_setPhase route

/-- A save leaves all phases as they were. -/
theorem save_keeps_phases {frames : Nat → Frame} (hframes : e.HasFrames frames)
    (bound route : Nat) : (e.save bound route).Moves Eq fun p => p.1.phases := by
  induction bound generalizing route with
  | zero => exact Act.moves_fail boundReached
  | succ bound ih =>
    rintro ⟨s, models⟩
    have hothers := ((isStable_otherPhases ih route).saveWith_leads hframes bound (s, models)
      fun _ _ => trivial).1
    have hown : ((e.saveWith (e.save bound) bound route).perform (s, models)).2.1.phases route =
        s.phases route := by
      simp only [saveWith, Act.perform_make]
      split
      · have hpending := (leadsModels_phases (e := e) ih route id).writePending.forEach_lead
        exact congrFun (hpending (s, models) fun _ _ => trivial).1.symm route
      · split
        · rfl
        · exact Saving.phases_setPhase _ _ _
    funext i
    by_cases hi : i = route
    · rw [hi]
      exact hown.symm
    · have heq := congrFun hothers i
      simp only [otherPhases, Function.update_of_ne hi] at heq
      exact heq

/-! ### Rounds -/

section Rounds

variable {bound : Nat} {s s' : Saving σ} {batch batch' : List (BatchEntry μ)}

/-- A batch that went through its phases is in the last of them. -/
theorem phases_of_runPhases (hsaver : ∀ route, (saver route).Moves Eq fun p => p.1.phases)
    (h : (e.runPhases saver route bound).perform (s, batch) = (.ok (), s', batch')) :
    s'.phases route = .afterSave := by
  obtain ⟨s₁, s₂, batch₁, batch₂, -, -, hfinish⟩ := runPhases_eq_ok h
  have hkept := (leadsModels_phases (e := e) hsaver route id).finishEntry.forEach_lead
    (s₂.setPhase route .afterSave, batch₂) fun _ _ => trivial
  have hphases : (s₂.setPhase route .afterSave).phases = s'.phases := by
    have heq := hkept.1
    rw [Act.forEach, Act.perform_make, hfinish] at heq
    exact heq
  rw [← hphases, Saving.phases_setPhase]

/-- A batch that is in its last phase does not go through them again. -/
theorem runPhases_of_afterSave (h : s.phases route = .afterSave) :
    (e.runPhases saver route bound).perform (s, batch) =
      (.error (.invalidStateTransition SavePhase.afterSave.text SavePhase.validate.text),
        s, batch) := by
  have hmove : (moveTo route .validate : Act (BatchWorld μ σ) Unit).perform (s, batch) =
      (.error (.invalidStateTransition SavePhase.afterSave.text SavePhase.validate.text),
        s, batch) := by
    rw [moveTo, Act.perform_zoom, Saving.moveTo, Act.perform_make]
    simp only [Lens.fst, h]
    rfl
  rw [runPhases, Act.perform_bind, prepare, Act.perform_bind, Act.perform_read]
  simp only [h, ne_eq, reduceCtorEq, not_false_eq_true, if_true, Act.perform_bind, hmove]

/-- Repeating the phases of a batch adds nothing to the first time. -/
theorem times_runPhases (hsaver : ∀ route, (saver route).Moves Eq fun p => p.1.phases) (n : Nat)
    (t : BatchWorld μ σ) :
    ((Act.times (n + 1) (e.runPhases saver route bound)).perform t).2 =
        ((e.runPhases saver route bound).perform t).2 ∧
      (((Act.times (n + 1) (e.runPhases saver route bound)).perform t).1 = .ok () →
        ((e.runPhases saver route bound).perform t).1 = .ok ()) := by
  obtain ⟨s, batch⟩ := t
  rw [Act.times, Act.perform_bind]
  rcases h : (e.runPhases saver route bound).perform (s, batch) with ⟨err | _, s', batch'⟩
  · exact ⟨rfl, fun h => by cases h⟩
  · refine ⟨?_, fun _ => rfl⟩
    cases n with
    | zero => rfl
    | succ n =>
      simp only [Act.times, Act.perform_bind, runPhases_of_afterSave (phases_of_runPhases hsaver h)]

/-- In a part of the world that control calls leave alone, a batch either comes to nothing, or goes
    through its phases once. -/
theorem runBatch_once {part : BatchWorld μ σ → γ} (frame : Frame)
    (hsaver : ∀ route, (saver route).Moves Eq fun p => p.1.phases)
    (hcontrol : (e.batchConnection route).Moves Eq part) {t t' : BatchWorld μ σ}
    {r : Except StoreError Unit}
    (hrun : (e.runBatch frame saver route bound).perform t = (r, t')) :
    (part t' = part t ∧ (r = .ok () → frame.rounds = 0)) ∨
      ∃ t₁, part t₁ = part t ∧
        part t' = part ((e.runPhases saver route bound).perform t₁).2 ∧
        (r = .ok () → ((e.runPhases saver route bound).perform t₁).1 = .ok ()) := by
  have hcourse : frame.Course (e.runPhases saver route bound) part t (r, t') :=
    hrun ▸ frame.enclose_course hcontrol t
  cases hcourse with
  | unopened hkept => exact .inl ⟨hkept, nofun⟩
  | @ran t₁ _ _ hbefore hafter hok =>
    rcases hrounds : frame.rounds with _ | n <;> rw [hrounds] at hafter hok
    · exact .inl ⟨hafter.trans hbefore, fun _ => rfl⟩
    · obtain ⟨hstate, honce⟩ := @times_runPhases _ _ e saver route _ bound hsaver n t₁
      rw [hstate] at hafter
      exact .inr ⟨t₁, hbefore, hafter, fun h => honce (hok h)⟩

end Rounds

end SaveEngine

end RecordStore
