import RecordStore.Proofs.Save.FirstWrites

/-!
# Records whose code is careful

Code is *careful* if it leaves the key of its record alone and takes no flag from it. If the code
that runs before the write is careful, then whatever the code after it does, and whatever is saved in
the meantime, a save that fails returns its records with the keys they were given with, and with
every flag they were given with (`SaveEngine.IsCareful.failed_save_restores`).

Before the write a record is *kept* (`Record.Kept`); from the write on, what it was is noted. So each
record of a batch can be restored at any time (`Restorable`), wherever the batch breaks off.
-/

namespace RecordStore

variable {σ : Type}

namespace Record

/-- The key of a record is untouched, and it has lost no flag. -/
structure Kept (before after : Record) : Prop where
  schema : after.schema = before.schema
  keys : ∀ name, before.schema.isKey name = true →
    after.values.get? name = before.values.get? name
  edits : ∀ name ∈ before.edits, name ∈ after.edits

/-- A record has the key it had, save that null may stand for no value, and has lost no flag. -/
structure Restored (before after : Record) : Prop where
  schema : after.schema = before.schema
  keys : ∀ name ∈ before.schema.columns, before.schema.isKey name = true →
    after.values.get? name = before.values.get? name ∨
      after.differs before.values.get? name = false ∨
      after.values.get? name = some (PriorState.orNull (before.values.get? name))
  edits : ∀ name ∈ before.edits, name ∈ after.edits

instance : Std.Refl Kept := ⟨fun _ => ⟨rfl, fun _ _ => rfl, fun _ => id⟩⟩

instance : IsTrans Record Kept where
  trans _ _ _ h h' := ⟨h'.schema.trans h.schema,
    fun name hkey => (h'.keys name (h.schema ▸ hkey)).trans (h.keys name hkey),
    fun name hname => h'.edits name (h.edits name hname)⟩

variable {before middle after : Record}

theorem Kept.restored (h : before.Kept after) : before.Restored after :=
  ⟨h.schema, fun name _ hkey => .inl (h.keys name hkey), h.edits⟩

theorem Restored.refl (r : Record) : r.Restored r := (Std.Refl.refl (r := Kept) r).restored

/-- A record that was kept until it was noted, and then given back. -/
theorem Kept.restored_of_givenBack (h : before.Kept middle) (hback : middle.GivenBack after) :
    before.Restored after := by
  refine ⟨hback.schema.trans h.schema, fun name hname hkey => .inr ?_,
    fun name hname => hback.edits name (h.edits name hname)⟩
  have hsame := h.keys name hkey
  have hkeys := hback.keys name (h.schema ▸ hname) (h.schema ▸ hkey)
  rwa [differs, hsame, ← differs] at hkeys

end Record

/-- A program leaves its record's key alone and takes no flag from it. -/
def Program.IsCareful (p : Program Record Record σ) : Prop :=
  p.All (fun f => f.Moves Record.Kept fun q => q.2) (fun _ => True) fun _ put =>
    ∀ ms (r : Record), r.Kept (put ms r)

theorem Program.IsCareful.moves {p : Program Record Record σ} (hp : p.IsCareful)
    (saver : Saver Record σ) (own : Nat) : (p.run saver own).Moves Record.Kept fun t => t.2 := by
  refine Program.All.moves ?_ ?_ ?_ hp own
  · exact fun _ hf t => hf (t.1.world, t.2)
  · exact fun _ _ => ⟨fun _ => Std.Refl.refl _, fun _ => Std.Refl.refl _, fun _ => Std.Refl.refl _⟩
  · exact fun _ _ hput _ _ r => hput _ r

namespace SaveEngine

/-- The code that runs before the write is careful, and none changes a schema. -/
structure IsCareful (e : SaveEngine Record σ) : Prop extends e.KeepsSchemas where
  carefulValidate : e.behaviour.beforeValidate.IsCareful
  carefulSave : e.behaviour.beforeSave.IsCareful
  carefulBefore : ∀ m, ∀ hook ∈ e.behaviour.hooks m, hook.before.IsCareful

end SaveEngine

/-! ### Schemas -/

section Schemas

/-- What a save does to the schemas of its records: nothing. -/
abbrev LeadsSchemas : Unit × List Record → Unit × List Record → Prop :=
  Lead (fun models => ∀ m ∈ models, True) Eq (List.Forall₂ (Agree Record.schema))

variable {saver : Saver Record σ}
  (hsaver : ∀ route, (saver route).Moves LeadsSchemas (seen fun _ => ()))

include hsaver

theorem Program.KeepsSchema.moves {p : Program Record Record σ} (hp : p.KeepsSchema) (own : Nat) :
    (p.run saver own).Moves Eq fun t => t.2.schema := by
  refine All.moves ?_ ?_ ?_ hp own
  · exact fun _ hf t => hf (t.1.world, t.2)
  · exact fun _ _ => ⟨fun _ => rfl, fun _ => rfl, fun _ => rfl⟩
  · intro models put hput route s r
    obtain ⟨-, hmodels, -⟩ := hsaver route (s, models r) fun _ _ => trivial
    exact (hput _ _ (map_eq_of_forall₂_agree hmodels).symm).symm

theorem SaveEngine.KeepsSchemas.leadsModels {e : SaveEngine Record σ} (he : e.KeepsSchemas)
    (route : Nat) :
    e.LeadsModels saver route (fun _ => ()) (fun _ => True) Eq (Agree Record.schema) := by
  have hmoves : ∀ {p : Program Record Record σ}, p.KeepsSchema → ∀ own, (p.run saver own).Moves
      (Lead (fun _ => True) Eq (Agree Record.schema)) (seen fun _ => ()) :=
    fun hp own t _ => ⟨rfl, hp.moves hsaver own t, trivial⟩
  have hleads : ∀ {p : Program Record Record σ}, p.KeepsSchema →
      Leads (fun _ => ()) (fun _ => True) Eq (Agree Record.schema) (p.run saver firstRoute) :=
    fun hp => ⟨hmoves hp _, fun _ _ _ _ _ _ => trivial⟩
  exact {
    write := fun t _ => ⟨rfl, he.write route (t.1.world, t.2), trivial⟩
    clearEdits := fun _ _ => ⟨rfl, trivial⟩
    beforeValidate := hmoves he.beforeValidate _
    beforeSave := hleads he.beforeSave
    afterSave := hmoves he.afterSave _
    before := fun m hook hhook => hleads (he.before m hook hhook)
    after := fun m hook hhook => hmoves (he.after m hook hhook) _ }

end Schemas

namespace SaveEngine

variable {e : SaveEngine Record σ} {frames : Nat → Frame}

theorem KeepsSchemas.save_leadsSchemas (he : e.KeepsSchemas) (hframes : e.HasFrames frames)
    (bound route : Nat) : (e.save bound route).Moves LeadsSchemas (seen fun _ => ()) :=
  save_leads hframes (fun _ hsaver route => {
    he.leadsModels hsaver route with
    control := ⟨fun _ => rfl, fun _ => rfl, fun _ => rfl⟩
    restore := fun p m _ => ⟨(Record.schema_restore p m).symm, trivial⟩
    setPhase := fun _ _ => rfl }) bound route

end SaveEngine

/-! ### Entries -/

/-- An entry whose record is kept, and of which nothing more is noted. -/
structure BatchEntry.Kept (p p' : BatchEntry Record) : Prop where
  prior : p'.prior = p.prior
  model : p.model.Kept p'.model

/-- A record of a batch that was not written: it is kept. -/
structure Unnoted (m : Record) (p : BatchEntry Record) : Prop where
  prior : p.prior = none
  kept : m.Kept p.model

/-- A record of a batch can be restored: it is kept, or was so until it was noted. -/
def Restorable (m : Record) (p : BatchEntry Record) : Prop :=
  Unnoted m p ∨ ∃ before, p.prior = some (PriorState.ofModel before) ∧ m.Kept before ∧
    p.model.schema = before.schema

/-- An entry that is not skipped is noted. -/
def BatchEntry.Settled (p : BatchEntry Record) : Prop := p.isSkipped = true ∨ p.prior ≠ none

/-- An entry stays as it is, or is noted and written. -/
def BatchEntry.Begun (p p' : BatchEntry Record) : Prop :=
  p' = p ∨ p'.prior = some (PriorState.ofModel p.model) ∧ p'.model.schema = p.model.schema

/-- An entry stays as it is but for a record of the same schema, and one that is skipped keeps its
    record. -/
structure BatchEntry.Finishes (p p' : BatchEntry Record) : Prop where
  prior : p'.prior = p.prior
  schema : p'.model.schema = p.model.schema
  skipped : p.isSkipped = true → p'.model = p.model

instance : Std.Refl BatchEntry.Kept := ⟨fun _ => ⟨rfl, Std.Refl.refl _⟩⟩

instance : IsTrans (BatchEntry Record) BatchEntry.Kept where
  trans _ _ _ h h' := ⟨h'.prior.trans h.prior, IsTrans.trans _ _ _ h.model h'.model⟩

instance : Std.Refl BatchEntry.Begun := ⟨fun _ => .inl rfl⟩

instance : Std.Refl BatchEntry.Finishes := ⟨fun _ => ⟨rfl, rfl, fun _ => rfl⟩⟩

section Entries

variable {m m' : Record} {p p' : BatchEntry Record}

theorem Unnoted.keep (h : Unnoted m p) (hkept : p.Kept p') : Unnoted m p' :=
  ⟨hkept.prior.trans h.prior, IsTrans.trans _ _ _ h.kept hkept.model⟩

theorem Unnoted.begin (h : Unnoted m p) (hbegun : p.Begun p') : Restorable m p' := by
  rcases hbegun with rfl | ⟨hprior, hschema⟩
  · exact .inl h
  · exact .inr ⟨p.model, hprior, h.kept, hschema⟩

/-- What can be restored is restored when the batch fails. -/
theorem Restorable.undo (h : Restorable m p) : m.Restored (SaveEngine.undo p).model := by
  rcases h with ⟨hprior, hp⟩ | ⟨before, hprior, hbefore, hschema⟩
  · simp only [SaveEngine.undo, hprior]
    exact hp.restored
  · simp only [SaveEngine.undo, hprior]
    exact hbefore.restored_of_givenBack (Record.restore_givenBack hschema)

/-- What comes after the writes does not touch what was not written. -/
theorem Restorable.finish (h : Restorable m p) (hsettled : p.Settled) (hfinish : p.Finishes p') :
    Restorable m p' := by
  rcases h with ⟨hprior, hp⟩ | ⟨before, hprior, hbefore, hschema⟩
  · have hskip := hsettled.resolve_right (absurd hprior)
    exact .inl ⟨hfinish.prior.trans hprior, hfinish.skipped hskip ▸ hp⟩
  · exact .inr ⟨before, hfinish.prior.trans hprior, hbefore, hfinish.schema.trans hschema⟩

end Entries

/-! ### Batches -/

namespace SaveEngine

variable {e : SaveEngine Record σ} {saver : Saver Record σ}

namespace IsCareful

variable (he : e.IsCareful)

include he

theorem validateModel_kept (saver : Saver Record σ) :
    (e.validateModel saver).Moves Record.Kept (·.2) :=
  (he.carefulValidate.moves saver firstRoute).bind fun _ =>
    (Act.moves_read _).bind fun _ => Act.moves_ofExcept _

theorem beforeSave_kept (saver : Saver Record σ) :
    (e.beforeSave saver).Moves Record.Kept (·.2) := by
  refine (he.carefulSave.moves saver firstRoute).bind fun outcome => ?_
  cases outcome with
  | proceed =>
    exact fun t => runBefore_moves
      (fun hook hhook => (he.carefulBefore t.2 hook hhook).moves saver firstRoute) t
  | skip | add => exact Act.moves_pure _

theorem validateEntry_kept (saver : Saver Record σ) :
    (e.validateEntry saver).Moves BatchEntry.Kept (·.2) := by
  refine (Act.moves_read _).bind fun isValidated => ?_
  split
  · refine Act.Moves.bind (fun t => ?_) fun _ _ => ⟨rfl, Std.Refl.refl _⟩
    exact ⟨rfl, he.validateModel_kept saver (t.1, t.2.model)⟩
  · exact Act.moves_pure ()

theorem beforePhase_kept (saver : Saver Record σ) (batch : List (BatchEntry Record)) (s : Saving σ) :
    List.Forall₂ BatchEntry.Kept batch (e.beforePhase saver batch s).2.2 := by
  induction batch generalizing s with
  | nil => exact .nil
  | cons p rest ih =>
    rw [beforePhase]
    split
    · exact .cons (Std.Refl.refl _) (ih s)
    · have hmodel := he.beforeSave_kept saver (s, p.model)
      rcases hf : (e.beforeSave saver).perform (s, p.model) with ⟨_ | outcome, s', m⟩ <;>
        rw [hf] at hmodel
      · exact .cons ⟨rfl, hmodel⟩ (Std.Refl.refl _)
      · cases outcome with
        | add models => exact .cons ⟨rfl, hmodel⟩ (Std.Refl.refl _)
        | proceed | skip => exact .cons ⟨rfl, hmodel⟩ (ih s')

theorem prepare_kept (saver : Saver Record σ) (route restarts : Nat) :
    (e.prepare saver route restarts).Moves (Grown BatchEntry.Kept) (·.2) := by
  refine prepare_moves (fun next _ => Std.Refl.refl _) (fun t => ?_) (fun s batch => ?_) restarts
  · exact .of_forall₂ ((he.validateEntry_kept saver).forEach_beside t)
  · have hkept := he.beforePhase_kept saver batch s
    exact ⟨.of_forall₂ hkept, fun models _ => ⟨_, _, rfl, hkept⟩⟩

end IsCareful

section Phases

variable (he : e.KeepsSchemas)
  (hsaver : ∀ route, (saver route).Moves LeadsSchemas (seen fun _ => ()))

include he hsaver

theorem KeepsSchemas.writeEntry_begun (route : Nat) :
    (e.writeEntry route).Moves BatchEntry.Begun (·.2) := by
  rintro ⟨s, p⟩
  have hschema := ((he.leadsModels hsaver route).writeModel (s, p.model) trivial).2.1
  rw [perform_writeEntry]
  split
  · exact Std.Refl.refl _
  · exact .inr ⟨rfl, hschema.symm⟩

theorem KeepsSchemas.finishEntry_finishes (route : Nat) :
    (e.finishEntry saver route).Moves BatchEntry.Finishes (·.2) := by
  rintro ⟨s, p⟩
  have hleads := he.leadsModels hsaver route
  have hschema := ((hleads.afterModel.bind fun _ => hleads.writePending) (s, p.model) trivial).2.1
  rw [perform_finishEntry]
  split
  · exact Std.Refl.refl _
  · exact ⟨rfl, hschema.symm, fun hskip => absurd hskip ‹_›⟩

omit he hsaver in
/-- When all entries are written, each is skipped or noted. -/
theorem each_writeEntry_settled {route : Nat} {s s' : Saving σ} {batch batch' : List (BatchEntry Record)}
    (hrun : Act.each (e.writeEntry route) batch s = (.ok (), s', batch')) :
    ∀ p ∈ batch', p.Settled := by
  have hstep : ∀ (s : Saving σ) (pre : List (BatchEntry Record)) p (_ : List (BatchEntry Record)) s' p',
      (∀ q ∈ pre, q.Settled) → (e.writeEntry route).perform (s, p) = (.ok (), s', p') →
        ∀ q ∈ pre ++ [p'], q.Settled := by
    intro s pre p _ s' p' hpre hwrite
    have hp : p'.Settled := by
      rw [perform_writeEntry] at hwrite
      split at hwrite
      next hskip =>
        cases hwrite
        exact .inl hskip
      next =>
        obtain ⟨-, hrest⟩ := Prod.mk.inj hwrite
        obtain ⟨-, rfl⟩ := Prod.mk.inj hrest
        exact .inr nofun
    exact List.forall_mem_append.2 ⟨hpre, List.forall_mem_singleton.2 hp⟩
  exact Act.each_invariant (fun _ pre _ => ∀ q ∈ pre, q.Settled) hstep hrun nofun

end Phases

/-- Records that can be restored when a batch starts can be restored wherever it breaks off. -/
theorem IsCareful.runPhases_restorable (he : e.IsCareful)
    (hsaver : ∀ route, (saver route).Moves LeadsSchemas (seen fun _ => ())) (route bound : Nat)
    {models : List Record} {t : BatchWorld Record σ} (h : Grown Unnoted models t.2) :
    Grown Restorable models ((e.runPhases saver route bound).perform t).2.2 := by
  have hrestorable : ∀ t : BatchWorld Record σ, Grown Unnoted models t.2 →
      Grown Restorable models t.2 := fun t => .mono fun _ _ => .inl
  have hprepare : (e.prepare saver route (bound + 1)).Keeps fun t => Grown Unnoted models t.2 :=
    fun t h => h.comp (fun _ _ _ hm => hm.keep) (he.prepare_kept saver route (bound + 1) t)
  have hwrite : (Act.forEach (e.writeEntry route)).Ensures (fun t => Grown Unnoted models t.2)
      (fun t => Grown Restorable models t.2 ∧ ∀ p ∈ t.2, p.Settled)
      fun t => Grown Restorable models t.2 := by
    rintro ⟨s, batch⟩ h
    have hbegun := (he.writeEntry_begun hsaver route).forEach_beside (s, batch)
    have hleft := h.comp (fun _ _ _ hm => hm.begin) (.of_forall₂ hbegun)
    rw [Act.forEach, Act.perform_make] at hleft ⊢
    rcases hrun : Act.each (e.writeEntry route) batch s with ⟨_ | _, s', batch'⟩ <;>
      rw [hrun] at hleft
    · exact hleft
    · exact ⟨hleft, each_writeEntry_settled hrun⟩
  have hfinish : (Act.forEach (e.finishEntry saver route)).Ensures
      (fun t => Grown Restorable models t.2 ∧ ∀ p ∈ t.2, p.Settled)
      (fun t => Grown Restorable models t.2) fun t => Grown Restorable models t.2 := by
    refine Act.ensures_same_iff.2 ?_
    rintro ⟨s, batch⟩ ⟨h, hsettled⟩
    have hfinishes := (he.finishEntry_finishes hsaver route).forEach_beside (s, batch)
    have hboth := (List.forall₂_and_left _ _).2 ⟨hsettled, hfinishes⟩
    exact h.comp (fun _ _ _ hm hboth => hm.finish hboth.1 hboth.2) (.of_forall₂ hboth)
  have hmoveSave : (moveTo route .save : Act (BatchWorld Record σ) Unit).Keeps
      fun t => Grown Unnoted models t.2 := fun _ h => h
  have hmoveAfter : (moveTo route .afterSave : Act (BatchWorld Record σ) Unit).Keeps
      fun t => Grown Restorable models t.2 ∧ ∀ p ∈ t.2, p.Settled := fun _ h => h
  have hphases := (hprepare.ensures hrestorable).bind fun _ =>
    (hmoveSave.ensures hrestorable).bind fun _ => hwrite.bind fun _ =>
      (hmoveAfter.ensures fun _ h => h.1).bind fun _ => hfinish
  exact Act.ensures_same_iff.1 hphases t h

/-- A failed save gives its records back with the keys and the flags that they were given with. -/
theorem IsCareful.failed_save_restores (he : e.IsCareful) {frames : Nat → Frame}
    (hframes : e.HasFrames frames) (bound : Nat) {route : Nat} {s : Saving σ}
    (hphase : s.phases route ≠ .afterSave) (models : List Record) {err : StoreError}
    (hfail : ((e.save bound route).perform (s, models)).1 = .error err) :
    List.Forall₂ Record.Restored models ((e.save bound route).perform (s, models)).2.2 := by
  have hvalidated : ∀ {depth : Nat} {r : Except StoreError Unit} {s₁ : Saving σ}
      {models₁ : List Record}, (Act.forEach (e.validateModel (e.save depth))).perform
        (s.setPhase route .validate, models) = (r, s₁, models₁) →
      List.Forall₂ Record.Kept models models₁ := by
    intro depth r s₁ models₁ hvalid
    have hkept := (he.validateModel_kept (e.save depth)).forEach_beside
      (s.setPhase route .validate, models)
    rwa [hvalid] at hkept
  have hcourse := save_course hframes bound hphase models
  generalize (e.save bound route).perform (s, models) = out at hcourse hfail
  cases hcourse with
  | tooDeep hbound => exact List.forall₂_same.2 fun m _ => .refl m
  | empty hmodels => cases hfail
  | invalid hbound hvalid => exact (hvalidated hvalid).imp fun _ _ h => h.restored
  | @ran depth r s₁ s₂ models₁ batch hbound hmodels hvalid hrun =>
    obtain rfl : r = .error err := hfail
    have hkept := hvalidated hvalid
    have hopen : Grown Unnoted models (openBatch models₁) := by
      exact .of_forall₂ (List.forall₂_map_right_iff.2 (hkept.imp fun m m₁ h => ⟨rfl, h⟩))
    have hcontrol : (e.batchConnection route).Moves Eq fun t => t.2 :=
      ⟨fun _ => rfl, fun _ => rfl, fun _ => rfl⟩
    have hleft : Grown Restorable models batch := by
      rcases runBatch_once (frames route) (save_keeps_phases hframes depth) hcontrol hrun with
        ⟨hsame, -⟩ | ⟨t₁, hbefore, hafter, -⟩
      · rw [show batch = openBatch models₁ from hsame]
        exact hopen.mono fun _ _ => .inl
      · rw [show batch = _ from hafter]
        exact he.runPhases_restorable (he.save_leadsSchemas hframes depth) route depth
          (hbefore ▸ hopen)
    obtain ⟨front, old, rfl, hold⟩ := hleft
    have hlength : old.length = models₁.length := hold.length_eq.symm.trans hkept.length_eq
    rw [closeBatch, List.map_append, givenModels_append _ (by rw [List.length_map, hlength]),
      List.map_map]
    exact List.forall₂_map_right_iff.2 (hold.imp fun _ _ h => h.undo)

end SaveEngine

end RecordStore
