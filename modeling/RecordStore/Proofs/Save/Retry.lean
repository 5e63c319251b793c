import RecordStore.Proofs.Save.Hookless
import RecordStore.Proofs.Save.PriorState
import RecordStore.Proofs.Save.Stability
import RecordStore.Proofs.Save.Stage

/-!
# Saving again

Records without hooks that a failed save has given back are as they were, but that null may stand
for a key that was absent (`SaveEngine.failed_save_keyLike`). What a save sends in which no call
fails is decided by its records alone, and does not tell the two apart (`SaveEngine.save_sends`). So
a save that is tried again sends what it would have sent the first time
(`SaveEngine.save_again_sends_the_same`).
-/

namespace RecordStore

variable {σ τ γ : Type}

theorem Schema.isKey_of_mem_keys {schema : Schema} (hcolumns : schema.columns.Nodup) {name : String}
    (h : name ∈ schema.keys) : name ∈ schema.columns ∧ schema.isKey name = true := by
  obtain ⟨p, hp, rfl⟩ := List.mem_map.1 h
  obtain ⟨hp, hkey⟩ := List.mem_filter.1 hp
  exact ⟨List.mem_map_of_mem hp, (isKey_name hcolumns hp).trans hkey⟩

/-- The same value as null, or as none, is the same. -/
theorem PriorState.eq_of_sameValue_null {v before : Option Value} (h : sameValue v before = true)
    (hnull : (before.getD .null).isNull = true) : v = before := by
  rcases before with _ | w
  · rcases v with _ | v
    · rfl
    · cases h
  · rcases v with _ | v
    · cases h
    · obtain rfl : w = .null := by cases w <;> first | rfl | cases hnull
      rw [Value.eq_null_of_beq h]

namespace Record

/-- Every value of the record is equal to itself: there is no NaN in it, which JSON does not have. -/
def IsProper (r : Record) : Prop := ∀ field ∈ r.values, (field.2 == field.2) = true

instance (r : Record) : Decidable r.IsProper :=
  inferInstanceAs (Decidable (∀ field ∈ r.values, (field.2 == field.2) = true))

theorem IsProper.not_differs {before after : Record} (h : before.IsProper) {name : String}
    (hsame : after.values.get? name = before.values.get? name) :
    after.differs before.values.get? name = false := by
  rw [differs, hsame]
  rcases hget : before.values.get? name with _ | v
  · rfl
  · simpa [PriorState.sameValue] using h _ (Row.mem_of_get? hget)

theorem Written.clearEdits {before after : Record} (h : before.Written after) :
    before.Written (Model.clearEdits after) := ⟨h.schema, h.values⟩

/-- A written record that is put back is as it was, but that null may stand for an absent key. -/
theorem Written.restore_keyLike {before after : Record} (h : before.Written after)
    (hcolumns : before.schema.columns.Nodup) (hproper : before.IsProper) :
    before.KeyLike ((PriorState.ofModel before).restore after) := by
  obtain ⟨hschema, hvalues, hedited⟩ := restore_spec h.schema
  refine ⟨hschema.trans h.schema, ?_, fun name => ?_⟩
  · have hmem : ∀ name, name ∈ ((PriorState.ofModel before).restore after).edits ↔
        name ∈ before.edits := by
      refine fun name => (hedited name).trans (or_iff_left ?_)
      rintro ⟨-, hplain, hdiffers⟩
      rcases h.values name with hsame | ⟨hkey, -⟩
      · rw [hproper.not_differs hsame] at hdiffers
        cases hdiffers
      · rw [(Schema.isKey_of_mem_keys hcolumns hkey).2] at hplain
        cases hplain
    simp only [edits, hschema, h.schema, List.mem_filter, List.contains_iff_mem] at hmem ⊢
    refine List.filter_congr fun name hname => ?_
    simpa [hname] using hmem name
  · rw [hvalues]
    rcases h.values name with hsame | ⟨hkey, hnull⟩
    · rw [hproper.not_differs hsame]
      simp [hsame]
    · obtain ⟨hname, hkey⟩ := Schema.isKey_of_mem_keys hcolumns hkey
      by_cases hdiffers : after.differs before.values.get? name = true
      · rw [if_pos ⟨hname, hkey, hdiffers⟩]
        rcases before.values.get? name with _ | v
        · exact .inr ⟨hkey, rfl, rfl⟩
        · exact .inl rfl
      · rw [if_neg fun hput => hdiffers hput.2.2]
        refine .inl (PriorState.eq_of_sameValue_null ?_ hnull)
        simpa [differs] using hdiffers

end Record

/-! ### Records that are given back -/

namespace SaveEngine

variable {e : SaveEngine Record σ} {t : TableStore σ} {route : Nat}

section Batch

variable (hwriter : (e.routes route).writer = t.modelWriter) (hcolumns : t.schema.columns.Nodup)
  {models : List Record} (hschemas : ∀ m ∈ models, m.schema = t.schema)
  (hproper : ∀ m ∈ models, m.IsProper)

include hwriter hcolumns hschemas hproper

/-- Wherever the writes of a batch break off, its records can be given back. -/
theorem each_writeEntry_keyLike (s : Saving σ) :
    List.Forall₂ (fun m p => m.KeyLike (undo p).model) models
      (Act.each (e.writeEntry route) (models.map ready) s).2.2 := by
  have hready : ∀ models : List Record,
      List.Forall₂ (fun m p => m.KeyLike (undo p).model) models (models.map ready) := by
    intro models
    exact List.forall₂_map_right_iff.2 (List.forall₂_same.2 fun m _ => .refl m)
  induction models generalizing s with
  | nil => exact .nil
  | cons m rest ih =>
    obtain ⟨hschema, hschemas⟩ := List.forall_mem_cons.1 hschemas
    obtain ⟨hfirst, hproper⟩ := List.forall_mem_cons.1 hproper
    have hwritten := t.write_written s.world hschema
    have hback : ∀ after, m.Written after → m.KeyLike ((PriorState.ofModel m).restore after) :=
      fun after h => h.restore_keyLike (hschema ▸ hcolumns) hfirst
    have hwrite : (e.routes route).writer.write = t.write := congrArg ModelWriter.write hwriter
    simp only [List.map_cons, Act.each, perform_writeReady, hwrite]
    rcases hw : t.write.perform (s.world, m) with ⟨_ | _, w, m'⟩ <;> rw [hw] at hwritten
    · exact .cons (hback _ hwritten) (hready rest)
    · exact .cons (hback _ hwritten.clearEdits) (ih hschemas hproper _)

variable (hhookless : e.behaviour = {})

include hhookless

theorem runBatch_keyLike {frame : Frame} {saver : Saver Record σ} {bound : Nat} {s s' : Saving σ}
    {r : Except StoreError Unit} {batch : List (BatchEntry Record)}
    (hsaver : ∀ route, (saver route).Moves Eq fun p => p.1.phases)
    (hphase : s.phases route = .validate)
    (hrun : (e.runBatch frame saver route bound).perform (s, openBatch models) = (r, s', batch)) :
    List.Forall₂ (fun m p => m.KeyLike (undo p).model) models batch := by
  have hcontrol : (e.batchConnection route).Moves Eq
      fun t : BatchWorld Record σ => (t.1.phases, t.2) := ⟨fun _ => rfl, fun _ => rfl, fun _ => rfl⟩
  rcases runBatch_once frame hsaver hcontrol hrun with ⟨hsame, -⟩ | ⟨⟨s₁, batch₁⟩, hbefore, hafter, -⟩
  · obtain ⟨-, rfl⟩ := Prod.mk.inj hsame
    exact List.forall₂_map_right_iff.2 (List.forall₂_same.2 fun m _ => .refl m)
  · obtain ⟨hphases, rfl⟩ := Prod.mk.inj hbefore
    obtain ⟨-, hbatch⟩ := Prod.mk.inj hafter
    dsimp only at hphases hbatch
    rw [hbatch, (perform_runPhases hhookless saver route (fun _ => rfl)
      (by rw [hphases, hphase]) models bound).2.2]
    exact each_writeEntry_keyLike hwriter hcolumns hschemas hproper _

end Batch

/-- A save that fails leaves its records as they were, but that null may stand for an absent key. -/
theorem failed_save_keyLike {frames : Nat → Frame} (hframes : e.HasFrames frames)
    (hhookless : e.behaviour = {}) (hwriter : (e.routes route).writer = t.modelWriter)
    (hcolumns : t.schema.columns.Nodup) (bound : Nat) {s : Saving σ}
    (hphase : s.phases route ≠ .afterSave) {models : List Record}
    (hschemas : ∀ m ∈ models, m.schema = t.schema) (hproper : ∀ m ∈ models, m.IsProper)
    {err : StoreError} (hfail : ((e.save bound route).perform (s, models)).1 = .error err) :
    List.Forall₂ Record.KeyLike models ((e.save bound route).perform (s, models)).2.2 := by
  have hrefl : List.Forall₂ Record.KeyLike models models :=
    List.forall₂_same.2 fun m _ => .refl m
  have hcourse := save_course hframes bound hphase models
  generalize (e.save bound route).perform (s, models) = out at hcourse hfail
  cases hcourse with
  | tooDeep | empty => exact hrefl
  | invalid hbound hvalid =>
    obtain ⟨-, hsame⟩ := Prod.mk.inj ((forEach_validateModel hhookless ..).symm.trans hvalid)
    obtain ⟨-, rfl⟩ := Prod.mk.inj hsame
    exact hrefl
  | @ran depth r s₁ s₂ models₁ batch hbound hne hvalid hrun =>
    obtain rfl : r = .error err := hfail
    obtain ⟨-, hsame⟩ := Prod.mk.inj ((forEach_validateModel hhookless ..).symm.trans hvalid)
    obtain ⟨rfl, rfl⟩ := Prod.mk.inj hsame
    have hback := runBatch_keyLike hwriter hcolumns hschemas hproper hhookless
      (save_keeps_phases hframes depth) (Saving.phases_setPhase ..) hrun
    have hgiven := givenModels_append [] ((List.length_map undo).trans hback.length_eq.symm)
    rw [List.nil_append, List.map_map] at hgiven
    rw [closeBatch, hgiven]
    exact List.forall₂_map_right_iff.2 hback

end SaveEngine

/-! ### What a save sends -/

namespace Account

variable {a : Account σ}

/-- The account in a world of which its own is a part. -/
def zoom (l : Lens τ σ) (a : Account σ) : Account τ where
  sent t := a.sent (l.get t)
  failed t := a.failed (l.get t)

theorem Enters.zoom {f : Act σ γ} {statements : List SentStatement} (h : a.Enters f statements)
    (l : Lens τ σ) : (a.zoom l).Enters (f.zoom l) statements where
  sent t := by
    change a.sent (l.get (l.set _ t)) = _
    rw [l.get_set]
    exact h.sent (l.get t)
  failed t := by
    change a.failed (l.get (l.set _ t)) = _
    rw [l.get_set]
    exact h.failed (l.get t)

theorem Covers.zoom {c : Connection σ} (h : a.Covers c) (l : Lens τ σ) :
    (a.zoom l).Covers (c.zoom l) where
  begin := h.begin.zoom l
  commit := h.commit.zoom l
  rollback := h.rollback.zoom l
  execute sql params := (h.execute sql params).zoom l
  lastInsertId := h.lastInsertId.zoom l

end Account

/-- A frame in which no call fails runs its body, and sends nothing else. -/
theorem Frame.enclose_unfailing {a : Account τ} {c : Connection τ} {body : Act τ Unit} {part : τ → γ}
    (frame : Frame) (hc : a.Covers c) (hpart : c.Moves Eq part)
    {t : τ} (hbody : ∀ t₁, part t₁ = part t →
      a.failed t₁ ≤ a.failed ((Act.times frame.rounds body).perform t₁).2)
    (hkept : a.failed ((frame.enclose c body).perform t).2 = a.failed t) :
    ∃ t₁, part t₁ = part t ∧ a.sent t₁ = a.sent t ∧
      a.failed ((Act.times frame.rounds body).perform t₁).2 = a.failed t₁ ∧
      a.sent ((frame.enclose c body).perform t).2 =
        a.sent ((Act.times frame.rounds body).perform t₁).2 ∧
      ∀ err, ((Act.times frame.rounds body).perform t₁).1 = .error err →
        ((frame.enclose c body).perform t).1 = .error err := by
  cases frame with
  | refused e => exact ⟨t, rfl, rfl, rfl, rfl, fun _ h => by cases h⟩
  | plain =>
    have honce : Act.times 1 body = body := bind_pure_unit
    rw [Frame.rounds, honce]
    exact ⟨t, rfl, rfl, hkept, rfl, fun _ h => h⟩
  | connected rounds =>
    simp only [Frame.enclose, Act.perform_make, Frame.rounds] at hkept hbody ⊢
    split at hkept
    next hopen => 
      rw [if_pos hopen]
      exact ⟨t, rfl, rfl, hkept, rfl, fun _ h => h⟩
    next hclosed =>
      rw [if_neg hclosed]
      have hstart := hpart.begin t
      rcases hbegin : c.begin.perform t with ⟨_ | _, t₁⟩ <;> rw [hbegin] at hstart hkept
      · have hfailed := (hc.begin.of_error hbegin).2
        exact absurd (hfailed.symm.trans hkept) (Nat.succ_ne_self _)
      · obtain ⟨hsent, hfailed⟩ := hc.begin.of_ok hbegin
        rw [List.append_nil] at hsent
        have hrun := hbody t₁ hstart.symm
        refine ⟨t₁, hstart.symm, hsent, ?_⟩
        rcases hbody : (Act.times rounds body).perform t₁ with ⟨err | _, t₂⟩ <;>
          simp only [hbody] at hkept hrun ⊢
        · obtain ⟨hsilent, hback⟩ := hc.rollback.silent t₂
          exact ⟨by omega, hsilent, fun _ h => h⟩
        · rcases hcommit : c.commit.perform t₂ with ⟨err | _, t₃⟩ <;>
            simp only [hcommit] at hkept ⊢
          · have hlost := (hc.commit.of_error hcommit).2
            have hback := (hc.rollback.silent t₃).2
            omega
          · obtain ⟨hsent', hfailed'⟩ := hc.commit.of_ok hcommit
            exact ⟨by omega, hsent'.trans (List.append_nil _), fun _ h => by cases h⟩

namespace SaveEngine

variable {e : SaveEngine Record σ} {t : TableStore σ} {route : Nat} {a : Account σ}
  (hwriter : (e.routes route).writer = t.modelWriter) (ha : a.Covers t.connection)

include hwriter ha

theorem each_writeEntry_foresees {models : List Record} (hschemas : ∀ m ∈ models, m.schema = t.schema)
    (s : Saving σ) :
    let out := Act.each (e.writeEntry route) (models.map ready) s
    a.Foresees t.table s.world (out.1, out.2.1.world)
      (forM models fun m => (t.statementOf m).map fun _ => ()) (t.statementsOf models) := by
  induction models generalizing s with
  | nil => exact .pure _
  | cons m rest ih =>
    obtain ⟨hschema, hrest⟩ := List.forall_mem_cons.1 hschemas
    have hwrite : (e.routes route).writer.write = t.write := congrArg ModelWriter.write hwriter
    have hfirst := ha.write hschema s.world
    simp only [List.map_cons, Act.each, perform_writeReady, hwrite, List.forM_cons]
    rcases hw : t.write.perform (s.world, m) with ⟨err | _, w, m'⟩ <;> rw [hw] at hfirst
    · refine ⟨hfirst.grows, fun hkept hrows => ?_⟩
      obtain ⟨hresult, hsent⟩ := hfirst.comes hkept hrows
      rcases hstatement : t.statementOf m with err' | statement <;> rw [hstatement] at hresult
      · cases hresult
        exact ⟨rfl, by simpa only [TableStore.statementsOf, hstatement] using hsent⟩
      · cases hresult
    · have hnext := ih hrest { s with world := w }
      refine ⟨Nat.le_trans hfirst.grows hnext.grows, fun hkept hrows => ?_⟩
      have hfirstKept : a.failed w = a.failed s.world :=
        Nat.le_antisymm (hkept ▸ hnext.grows) hfirst.grows
      obtain ⟨hresult, hsent⟩ := hfirst.comes hfirstKept (fun _ h => by cases h)
      obtain ⟨hresult', hsent'⟩ := hnext.comes (hkept.trans hfirstKept.symm) hrows
      rcases hstatement : t.statementOf m with err' | statement <;> rw [hstatement] at hresult
      · cases hresult
      · simp only [TableStore.statementsOf, hstatement, List.append_nil] at hsent ⊢
        refine ⟨hresult', ?_⟩
        rw [hsent', hsent, List.append_assoc]

variable (hhookless : e.behaviour = {})

include hhookless

variable {saver : Saver Record σ} (hsaver : ∀ route, (saver route).Moves Eq fun p => p.1.phases)
  {models : List Record} (hschemas : ∀ m ∈ models, m.schema = t.schema)

include hsaver hschemas

/-- Repeated phases of a batch send the statements of its records once, if at all. -/
theorem times_runPhases_sends (rounds bound : Nat) {s : Saving σ}
    (hphase : s.phases route = .validate) :
    let out := (Act.times rounds (e.runPhases saver route bound)).perform (s, openBatch models)
    a.failed s.world ≤ a.failed out.2.1.world ∧
      (a.failed out.2.1.world = a.failed s.world →
        (∀ key, out.1 ≠ .error (.notFound t.table key)) →
        a.sent out.2.1.world =
          a.sent s.world ++ if rounds = 0 then [] else t.statementsOf models) := by
  rcases rounds with _ | n
  · exact ⟨Nat.le_refl _, fun _ _ => (List.append_nil _).symm⟩
  · obtain ⟨hresult, hworld, -⟩ :=
      perform_runPhases hhookless saver route (fun _ => rfl) hphase models bound
    have honce := each_writeEntry_foresees hwriter ha hschemas (s.setPhase route .save)
    dsimp only at honce
    rw [← hworld, ← hresult] at honce
    have hstate : ((Act.times (n + 1) (e.runPhases saver route bound)).perform
        (s, openBatch models)).2 = ((e.runPhases saver route bound).perform (s, openBatch models)).2 :=
      (times_runPhases hsaver n _).1
    simp only [hstate, if_neg (Nat.succ_ne_zero n)]
    refine ⟨honce.grows, fun hkept hrows => (honce.comes hkept fun key hmissing => hrows key ?_).2⟩
    -- An error ends the repetition, so it is what the repetition comes to.
    rcases hrun : (e.runPhases saver route bound).perform (s, openBatch models) with ⟨_ | _, t'⟩ <;>
      rw [hrun] at hmissing
    · rw [Act.times, Act.perform_bind, hrun]
      exact hmissing
    · cases hmissing

/-- A batch in which no call fails and no row is missing sends the statements of its records, once
    if at all. -/
theorem runBatch_sends {frame : Frame} {bound : Nat} {s s' : Saving σ} {r : Except StoreError Unit}
    {batch : List (BatchEntry Record)} (hphase : s.phases route = .validate)
    (hrun : (e.runBatch frame saver route bound).perform (s, openBatch models) = (r, s', batch))
    (hkept : a.failed s'.world = a.failed s.world) (hrows : ∀ key, r ≠ .error (.notFound t.table key)) :
    a.sent s'.world = a.sent s.world ++ if frame.rounds = 0 then [] else t.statementsOf models := by
  have hconnection : e.batchConnection route =
      t.connection.zoom (Lens.fst.comp Saving.worldLens) := by
    rw [batchConnection, hwriter]
    rfl
  have hphases : (e.batchConnection route).Moves Eq
      fun t : BatchWorld Record σ => (t.1.phases, t.2) := ⟨fun _ => rfl, fun _ => rfl, fun _ => rfl⟩
  have htimes := fun {s₁ : Saving σ} (hsame : s₁.phases = s.phases) =>
    times_runPhases_sends hwriter ha hhookless hsaver hschemas frame.rounds bound
      (show s₁.phases route = .validate from hsame ▸ hphase)
  have hgrows : ∀ t₁ : BatchWorld Record σ, (t₁.1.phases, t₁.2) = (s.phases, openBatch models) →
      a.failed t₁.1.world ≤
        a.failed ((Act.times frame.rounds (e.runPhases saver route bound)).perform t₁).2.1.world := by
    rintro ⟨s₁, batch₁⟩ hsame
    obtain ⟨hsame, rfl⟩ := Prod.mk.inj hsame
    exact (htimes hsame).1
  obtain ⟨⟨s₁, batch₁⟩, hbefore, hsent₁, hkept₁, hsent, herror⟩ := frame.enclose_unfailing
    (hconnection ▸ ha.zoom (Lens.fst.comp Saving.worldLens)) hphases hgrows
    (by rw [← runBatch, hrun]; exact hkept)
  obtain ⟨hsame, rfl⟩ := Prod.mk.inj hbefore
  rw [← runBatch, hrun] at hsent herror
  have hrun := (htimes hsame).2 hkept₁ fun key hmissing => hrows key (herror _ hmissing)
  have hsent₁ : a.sent s₁.world = a.sent s.world := hsent₁
  rw [hsent₁] at hrun
  exact hsent.trans hrun

end SaveEngine

/-- What a save of these models sends if nothing fails. -/
def TableStore.plan {μ : Type} [Model μ] (t : TableStore σ) (frame : Frame) (models : List μ) :
    List SentStatement :=
  if (forM models Model.validate : Except StoreError Unit).isOk then
    if frame.rounds = 0 then [] else t.statementsOf models
  else []

/-- The plan does not tell null from no value in a key. -/
theorem Record.plan_keyLike {t : TableStore σ} (hcolumns : t.schema.columns.Nodup) (frame : Frame)
    {models models' : List Record} (hschemas : ∀ m ∈ models, m.schema = t.schema)
    (h : List.Forall₂ KeyLike models models') : t.plan frame models' = t.plan frame models := by
  have hvalidate : forM models' Model.validate = forM models Model.validate := by
    clear hschemas
    induction h with
    | nil => rfl
    | cons hfirst _ ih => rw [List.forM_cons, List.forM_cons, hfirst.validate, ih]
  rw [TableStore.plan, TableStore.plan, hvalidate, statementsOf_keyLike hcolumns hschemas h]

namespace SaveEngine

variable (e : SaveEngine Record σ) (a : Account σ) (bound route : Nat) (s : Saving σ)
  (models : List Record)

/-- A save in which no call fails, and no row of the table is missing. -/
structure IsSmooth (table : String) : Prop where
  calls : a.failed ((e.save bound route).perform (s, models)).2.1.world = a.failed s.world
  rows : ∀ key, ((e.save bound route).perform (s, models)).1 ≠ .error (.notFound table key)

/-- A save sends these statements. -/
def Sends (statements : List SentStatement) : Prop :=
  a.sent ((e.save bound route).perform (s, models)).2.1.world = a.sent s.world ++ statements

variable {e a route s models} {t : TableStore σ} {frames : Nat → Frame}
  (hframes : e.HasFrames frames) (hhookless : e.behaviour = {})
  (hwriter : (e.routes route).writer = t.modelWriter) (ha : a.Covers t.connection)

include hframes hhookless hwriter ha

/-- What a smooth save sends is decided by its records. -/
theorem smooth_save_sends (hphase : s.phases route ≠ .afterSave)
    (hschemas : ∀ m ∈ models, m.schema = t.schema)
    (h : e.IsSmooth a (bound + 1) route s models t.table) :
    e.Sends a (bound + 1) route s models (t.plan (frames route) models) := by
  obtain ⟨hkept, hrows⟩ := h
  have hcourse := save_course hframes (bound + 1) hphase models
  rw [Sends]
  generalize (e.save (bound + 1) route).perform (s, models) = out at hcourse hkept hrows
  cases hcourse with
  | tooDeep hbound => cases hbound
  | empty hmodels =>
    simp [hmodels, TableStore.plan, TableStore.statementsOf]
  | invalid hbound hvalid =>
    obtain ⟨hresult, hsame⟩ := Prod.mk.inj ((forEach_validateModel hhookless ..).symm.trans hvalid)
    obtain ⟨rfl, rfl⟩ := Prod.mk.inj hsame
    rw [TableStore.plan, hresult]
    exact (List.append_nil _).symm
  | @ran depth r s₁ s₂ models₁ batch hbound hne hvalid hrun =>
    obtain ⟨hresult, hsame⟩ := Prod.mk.inj ((forEach_validateModel hhookless ..).symm.trans hvalid)
    obtain ⟨rfl, rfl⟩ := Prod.mk.inj hsame
    have hsends := runBatch_sends hwriter ha hhookless (save_keeps_phases hframes depth) hschemas
      (Saving.phases_setPhase ..) hrun hkept hrows
    rw [TableStore.plan, hresult]
    exact hsends

/-- After a save that failed, wherever it did, a smooth save of the records that it returned sends
    the statements that a smooth save of the given ones sends. -/
theorem save_again_sends_the_same (hcolumns : t.schema.columns.Nodup)
    (hschemas : ∀ m ∈ models, m.schema = t.schema) (hproper : ∀ m ∈ models, m.IsProper)
    (hphase : s.phases route ≠ .afterSave) {err : StoreError}
    (hfail : ((e.save (bound + 1) route).perform (s, models)).1 = .error err)
    {first again : Saving σ} (hphaseFirst : first.phases route ≠ .afterSave)
    (hphaseAgain : again.phases route ≠ .afterSave)
    (hfirst : e.IsSmooth a (bound + 1) route first models t.table)
    (hagain : e.IsSmooth a (bound + 1) route again
      ((e.save (bound + 1) route).perform (s, models)).2.2 t.table) :
    ∃ statements, e.Sends a (bound + 1) route first models statements ∧
      e.Sends a (bound + 1) route again ((e.save (bound + 1) route).perform (s, models)).2.2
        statements := by
  have hlike := failed_save_keyLike hframes hhookless hwriter hcolumns (bound + 1) hphase hschemas
    hproper hfail
  have hplan := Record.plan_keyLike hcolumns (frames route) hschemas hlike
  refine ⟨t.plan (frames route) models, ?_, ?_⟩
  · exact smooth_save_sends bound hframes hhookless hwriter ha hphaseFirst hschemas hfirst
  · rw [← hplan]
    exact smooth_save_sends bound hframes hhookless hwriter ha hphaseAgain
      (Record.schemas_keyLike hlike hschemas) hagain

end SaveEngine

/-! ### On a stage -/

namespace Rehearsal

/-- The statement that an entry of the journal tells of. -/
def Entry.statement? : Entry → Option SentStatement
  | .call _ _ .execute (.statement sql params) => some (sql, params)
  | _ => none

/-- Whether an entry of the journal tells of a failed call. -/
def Entry.isFailure : Entry → Bool
  | .failed .. => true
  | _ => false

namespace Stage

/-- The account that the journal of a stage gives. -/
def account : Account Stage where
  sent s := s.journal.filterMap (·.statement?)
  failed s := s.journal.countP (·.isFailure)

theorem answer_enters_account {α : Type} {i : Nat} {call : Call} {details : Details}
    (effect : Line → α × Line) {statements : List SentStatement}
    (h : ∀ name, (Entry.call i name call details).statement?.toList = statements) :
    account.Enters (answer i call details effect) statements where
  sent s := by
    simp only [answer, Act.perform_make]
    split
    · simp [account, Entry.statement?, Except.isOk, Except.toBool]
    · have hone : ∀ entry : Entry, [entry].filterMap (·.statement?) = entry.statement?.toList := by
        intro entry
        cases hentry : entry.statement? <;> simp [hentry]
      simp [account, Except.isOk, Except.toBool, hone, h]
  failed s := by
    simp only [answer, Act.perform_make]
    split <;> simp [account, Entry.isFailure, Except.isOk, Except.toBool]

theorem turn_enters_account (i : Nat) (call : Call) (isOpen : Bool) :
    account.Enters (turn i call .none isOpen) [] :=
  answer_enters_account (fun line => ((), { line with isOpen })) fun _ => by cases call <;> rfl

theorem connection_accounted (id : ConnectionId) (i : Nat) : account.Covers (connection id i) where
  begin := turn_enters_account i .begin true
  commit := turn_enters_account i .commit false
  rollback := turn_enters_account i .rollback false
  execute _ _ := answer_enters_account nextAffected fun _ => rfl
  lastInsertId := answer_enters_account
    (fun line => (line.nextId, { line with nextId := line.nextId + 1 })) fun _ => rfl

/-- The table of items, on line 0. -/
def itemStore : TableStore Stage where
  connection := connection default 0
  compiler := { table := "item", schema := itemSchema }

/-- Saves of items that have no hooks. -/
def plainEngine : SaveEngine Record Stage where
  routes _ := { writer := itemStore.modelWriter }
  behaviour := {}

/-- An item that was loaded and renamed. -/
def renamedItem : Record where
  schema := itemSchema
  values := [("id", .int 7), ("name", .string "b")]
  edited := ["name"]

/-- A stage on whose first line the second statement fails. -/
def interrupting : Saving Stage where
  world := { lines := fun _ => { failures := fun call =>
    if call = .execute then .after 1 else .never } }

/-- Items of which one was written and one was not are sent again as they would have been. -/
theorem items_sent_again :
    ((plainEngine.save 1 0).perform (interrupting, [item "a", renamedItem])).1 =
        .error (Call.execute.failure "db") ∧
      ∃ statements, plainEngine.Sends account 1 0 emptyStage [item "a", renamedItem] statements ∧
        plainEngine.Sends account 1 0 emptyStage
          ((plainEngine.save 1 0).perform (interrupting, [item "a", renamedItem])).2.2 statements := by
  have hfail : ((plainEngine.save 1 0).perform (interrupting, [item "a", renamedItem])).1 =
      .error (Call.execute.failure "db") := by
    decide +kernel
  have hsmooth : ∀ models, ((plainEngine.save 1 0).perform (emptyStage, models)).1 = .ok () →
      account.failed ((plainEngine.save 1 0).perform (emptyStage, models)).2.1.world = 0 →
      plainEngine.IsSmooth account 1 0 emptyStage models "item" :=
    fun models hok hcalls => ⟨hcalls, fun _ hmissing => by rw [hok] at hmissing; cases hmissing⟩
  refine ⟨hfail, SaveEngine.save_again_sends_the_same 0 (t := itemStore)
    (fun _ => TransactionScheme.standard_frames) rfl rfl (connection_accounted default 0)
    (by decide) ?_ ?_ (by decide) hfail (by decide) (by decide) (hsmooth _ ?_ ?_) (hsmooth _ ?_ ?_)⟩
  · decide
  · decide
  all_goals decide +kernel

end Stage

end Rehearsal

end RecordStore
