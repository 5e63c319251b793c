import RecordStore.Proofs.Except
import RecordStore.Proofs.LoadedRecords
import RecordStore.Proofs.RowCalls

/-!
# Saving again

A save without hooks leaves its records *settled*: they have a key, and no edits, and they are valid
(`Record.Settled`). There is nothing to write of a settled record, so when it is saved again, no
statement is sent, and what is left is the transaction around nothing
(`SaveEngine.save_again_sends_nothing`).

That takes a key which is complete after the write. A single key is, as it is generated where it was
left open. A key of several columns has to be given: if one of them was left open, it stays open,
the record counts as new ever after, and every save inserts it once more
(`Rehearsal.Stage.openBolts_sent_twice`).
-/

namespace RecordStore

variable {σ τ γ : Type}

/-! ### Settled records -/

/-- A record of which there is nothing to write. -/
structure Record.Settled (schema : Schema) (r : Record) : Prop where
  schema : r.schema = schema
  hasKey : Model.hasKey r = true
  unedited : r.edited = []
  valid : Model.validate r = .ok ()

namespace Record

theorem validate_eq_ok_iff {r : Record} : Model.validate r = .ok () ↔
    ∀ p ∈ r.schema.properties, p.isRequired = true →
      (r.values.getOrNull p.name).isNull = false := by
  have hvalidate : Model.validate r = Record.validate r := rfl
  rw [hvalidate, Record.validate]
  split
  next p hmissing =>
    refine ⟨fun h => (by cases h), fun h => ?_⟩
    have hp := List.find?_some hmissing
    rw [Bool.and_eq_true] at hp
    exact absurd (h p (List.mem_of_find?_eq_some hmissing) hp.1) (by simp [hp.2])
  next hnone =>
    refine ⟨fun _ p hp hrequired => ?_, fun _ => rfl⟩
    simpa [hrequired] using List.find?_eq_none.1 hnone p hp

theorem hasKey_iff {r : Record} : Model.hasKey r = true ↔
    r.schema.keys ≠ [] ∧ ∀ key ∈ r.schema.keys, (r.values.getOrNull key).isNull = false := by
  have hkeyValues : Model.keyValues r =
      r.schema.keys.map fun key => (key, r.values.getOrNull key) := rfl
  rw [Model.hasKey, hkeyValues]
  simp

/-- Neither a write nor the loss of its flags makes a record invalid. -/
theorem Written.valid {before after : Record} (h : before.Written after)
    (hvalid : Model.validate before = .ok ()) :
    Model.validate (Model.clearEdits after) = .ok () := by
  rw [validate_eq_ok_iff] at hvalid ⊢
  intro p hp hrequired
  have hbefore := hvalid p (h.schema ▸ hp) hrequired
  have hafter : after.values.get? p.name = before.values.get? p.name := by
    rcases h.values p.name with hsame | ⟨-, hnull⟩
    · exact hsame
    · rw [hnull] at hbefore
      cases hbefore
  rw [Row.getOrNull] at hbefore ⊢
  exact (congrArg (fun v => (Option.getD v .null).isNull) hafter).trans hbefore

/-- A key that was open is there once it has been set. -/
theorem hasKey_of_set {r r' : Record} {key : String} {id : Int} (hkeys : r.schema.keys = [key])
    (hopen : (r.values.getOrNull key).isNull = true) (hset : r.set key (.int id) = .ok r') :
    Model.hasKey r' = true := by
  have hnull : (r.values.get? key).any (· == .int id) = false := by
    rw [Row.getOrNull] at hopen
    rcases hvalue : r.values.get? key with _ | v
    · rfl
    · rw [hvalue] at hopen
      cases v <;> first | rfl | cases hopen
  rw [set] at hset
  split at hset
  · cases hset
  · rw [if_neg (by simp [hnull])] at hset
    cases hset
    rw [hasKey_iff]
    dsimp only
    rw [hkeys]
    refine ⟨List.cons_ne_nil _ _, fun other hother => ?_⟩
    rw [List.mem_singleton.1 hother, Row.getOrNull, Row.get?_insert_self]
    rfl

end Record

namespace TableStore

variable {t : TableStore σ} {r r' : Record} {s s' : σ}

theorem write_settled (h : r.Settled t.schema) (s : σ) :
    t.write.perform (s, r) = (.ok (), s, r) := by
  have hchanged : r.changed = [] := by
    rw [Record.changed, h.unedited]
    exact List.filter_eq_nil_iff.2 fun _ _ => by simp
  rw [perform_write, Act.perform_bind, Act.perform_ofExcept,
    statementOf_unchanged h.schema h.hasKey hchanged]
  rfl

/-- The one column of a key is open in a record without a key. -/
theorem openKey_of_single {key : String} (hr : r.schema = t.schema) (hkeys : t.schema.keys = [key])
    (hnew : Model.hasKey r = false) : t.OpenKey r key := by
  refine ⟨hkeys, ?_⟩
  by_contra hvalue
  refine Bool.eq_false_iff.1 hnew (Record.hasKey_iff.2 ?_)
  have hgiven : (r.values.getOrNull key).isNull = false := Bool.eq_false_iff.2 hvalue
  rw [hr, hkeys]
  exact ⟨List.cons_ne_nil _ _, fun other hother => List.mem_singleton.1 hother ▸ hgiven⟩

/-- A write that succeeds leaves a record with a key, if it had one, or if it has a single one. -/
theorem write_leaves_key (hr : r.schema = t.schema)
    (hkey : Model.hasKey r = true ∨ ∃ key, t.schema.keys = [key])
    (hwrite : t.write.perform (s, r) = (.ok (), s', r')) : Model.hasKey r' = true := by
  have hcourse := t.write_course s r
  rw [hwrite] at hcourse
  generalize t.writeCalls s r = calls at hcourse
  cases hcourse with
  | idle hstatement =>
    -- A record without a key is always inserted, so this one has a key.
    by_contra hnew
    cases statementOf_eq_insert (Bool.eq_false_iff.2 hnew) hstatement
  | updated _ hkey => exact hkey
  | inserted _ hnew hclosed =>
    rcases hkey with hkey | ⟨key, hkeys⟩
    · cases hkey.symm.trans hnew
    · exact absurd (openKey_of_single hr hkeys hnew) (hclosed key)
  | numbered _ _ hopen _ _ hset =>
    exact Record.hasKey_of_set (by rw [hr]; exact hopen.1) hopen.2 hset

/-- A valid record is settled by a write that succeeds. -/
theorem write_settles (hr : r.schema = t.schema)
    (hkey : Model.hasKey r = true ∨ ∃ key, t.schema.keys = [key])
    (hvalid : Model.validate r = .ok ())
    (hwrite : t.write.perform (s, r) = (.ok (), s', r')) :
    (Model.clearEdits r').Settled t.schema := by
  have hwritten := t.write_written s hr
  rw [hwrite] at hwritten
  have hkept : Model.hasKey r' = true := write_leaves_key hr hkey hwrite
  exact ⟨hwritten.schema.trans hr, hkept, rfl, hwritten.valid hvalid⟩

end TableStore

/-! ### Loops -/

namespace Act

variable {α : Type} {f : Act (σ × α) Unit} {as as' : List α} {s s' : σ}

/-- What every successful round makes of its element holds of all elements in the end. -/
theorem each_makes {P Q : α → Prop}
    (hround : ∀ s a s' a', P a → f.perform (s, a) = (.ok (), s', a') → Q a')
    (has : ∀ a ∈ as, P a) (hrun : each f as s = (.ok (), s', as')) : ∀ a ∈ as', Q a := by
  refine (each_invariant (fun _ pre rest => (∀ a ∈ pre, Q a) ∧ ∀ a ∈ rest, P a) ?_ hrun
    ⟨by simp, has⟩).1
  intro s pre a rest s' a' hInv hf
  obtain ⟨ha, hrest⟩ := List.forall_mem_cons.1 hInv.2
  exact ⟨List.forall_mem_append.2 ⟨hInv.1, by simpa using hround s a s' a' ha hf⟩, hrest⟩

/-- Rounds that leave the world as it is leave it so in a row. -/
theorem each_of_idle {g : α → α} (hround : ∀ a ∈ as, f.perform (s, a) = (.ok (), s, g a)) :
    each f as s = (.ok (), s, as.map g) := by
  induction as with
  | nil => rfl
  | cons a rest ih =>
    obtain ⟨ha, hrest⟩ := List.forall_mem_cons.1 hround
    rw [each, ha]
    dsimp only
    rw [ih hrest]
    rfl

end Act

/-! ### Frames around nothing -/

/-- A frame around a body that sends nothing sends nothing itself, and succeeds unless one of its own
    calls fails. -/
theorem Frame.enclose_silent {a : Account τ} {c : Connection τ} (body : Act τ Unit) {part : τ → γ}
    {frame : Frame} (hframe : ∀ err, frame ≠ .refused err) (hc : a.Covers c)
    (hpart : c.Moves Eq part) {t : τ}
    (hbody : ∀ t₁, part t₁ = part t →
      ((Act.times frame.rounds body).perform t₁).1 = .ok () ∧
        a.sent ((Act.times frame.rounds body).perform t₁).2 = a.sent t₁ ∧
        a.failed ((Act.times frame.rounds body).perform t₁).2 = a.failed t₁) :
    a.sent ((frame.enclose c body).perform t).2 = a.sent t ∧
      (a.failed ((frame.enclose c body).perform t).2 = a.failed t →
        ((frame.enclose c body).perform t).1 = .ok ()) := by
  cases frame with
  | refused err => exact absurd rfl (hframe err)
  | plain =>
    rw [Frame.rounds, Act.times_one] at hbody
    obtain ⟨hresult, hsent, -⟩ := hbody t rfl
    exact ⟨hsent, fun _ => hresult⟩
  | connected rounds =>
    rw [Frame.rounds] at hbody
    simp only [Frame.enclose, Act.perform_make]
    split
    · obtain ⟨hresult, hsent, -⟩ := hbody t rfl
      exact ⟨hsent, fun _ => hresult⟩
    have hstart := hpart.begin t
    rcases hbegin : c.begin.perform t with ⟨_ | _, t₁⟩ <;> rw [hbegin] at hstart
    · obtain ⟨hsent, hfailed⟩ := hc.begin.of_error hbegin
      exact ⟨hsent, fun hkept => absurd (hfailed.symm.trans hkept) (Nat.succ_ne_self _)⟩
    obtain ⟨hsent₁, hfailed₁⟩ := hc.begin.of_ok hbegin
    obtain ⟨hresult, hsent₂, hfailed₂⟩ := hbody t₁ hstart.symm
    have hquiet : a.sent t₁ = a.sent t := hsent₁.trans (List.append_nil _)
    rcases hrun : (Act.times rounds body).perform t₁ with ⟨r, t₂⟩
    rw [hrun] at hresult hsent₂ hfailed₂
    obtain rfl : r = .ok () := hresult
    dsimp only at hsent₂ hfailed₂
    rcases hcommit : c.commit.perform t₂ with ⟨_ | _, t₃⟩ <;> simp only [hrun, hcommit]
    · -- After a commit that failed, a rollback sends nothing either.
      obtain ⟨hsent₃, hfailed₃⟩ := hc.commit.of_error hcommit
      obtain ⟨hsent₄, hfailed₄⟩ := hc.rollback.silent t₃
      refine ⟨(hsent₄.trans hsent₃).trans (hsent₂.trans hquiet), fun hkept => ?_⟩
      omega
    · obtain ⟨hsent₃, -⟩ := hc.commit.of_ok hcommit
      exact ⟨(hsent₃.trans (List.append_nil _)).trans (hsent₂.trans hquiet), fun _ => trivial⟩

/-! ### Saves -/

namespace SaveEngine

variable {e : SaveEngine Record σ} {t : TableStore σ} {route : Nat} {models : List Record}

/-- What the control calls of a connection leave alone: the phases, and the batch beside them. -/
theorem batchConnection_moves (e : SaveEngine Record σ) (route : Nat) :
    (e.batchConnection route).Moves Eq fun t : BatchWorld Record σ => (t.1.phases, t.2) :=
  ⟨fun _ => rfl, fun _ => rfl, fun _ => rfl⟩

/-- A batch that succeeds in its frame goes through its phases once, or not at all if its frame has
    no rounds. -/
theorem runBatch_eq_ok {frame : Frame} {saver : Saver Record σ} {bound : Nat}
    (hsaver : ∀ route, (saver route).Moves Eq fun p => p.1.phases) {s s' : Saving σ}
    {batch batch' : List (BatchEntry Record)}
    (hrun : (e.runBatch frame saver route bound).perform (s, batch) = (.ok (), s', batch')) :
    (∀ err, frame ≠ .refused err) ∧
      (frame.rounds = 0 ∧ batch' = batch ∨
        frame.rounds = 1 ∧ ∃ s₁ s₂, s₁.phases = s.phases ∧
          (e.runPhases saver route bound).perform (s₁, batch) = (.ok (), s₂, batch')) := by
  refine ⟨fun err hrefused => ?_, ?_⟩
  · rw [runBatch, hrefused] at hrun
    cases hrun
  have hcourse : Frame.Course frame (e.runPhases saver route bound) (fun t => (t.1.phases, t.2))
      (s, batch) ((e.runBatch frame saver route bound).perform (s, batch)) :=
    frame.enclose_course (e.batchConnection_moves route) (s, batch)
  rw [hrun] at hcourse
  cases hcourse with
  | @ran t₁ _ _ hbefore hafter hok =>
    obtain ⟨s₁, batch₁⟩ := t₁
    obtain ⟨hphases, rfl⟩ := Prod.mk.inj hbefore
    obtain ⟨-, hend⟩ := Prod.mk.inj hafter
    dsimp only at hphases hend
    rcases hrounds : frame.rounds with _ | _ | n <;> rw [hrounds] at hend hok
    · exact .inl ⟨rfl, hend⟩
    · rw [Act.times_one] at hend hok
      exact .inr ⟨rfl, s₁, _, hphases, Prod.ext (hok rfl) (Prod.ext rfl hend.symm)⟩
    · -- A second round is refused, as the batch is in its last phase after the first one.
      obtain ⟨_, ⟨s₂, batch₂⟩, hfirst, hrest⟩ := Act.perform_bind_eq_ok (Prod.ext (hok rfl) rfl)
      rw [Act.times, Act.perform_bind, runPhases_of_afterSave
        (phases_of_runPhases hsaver hfirst)] at hrest
      cases hrest

/-- What a write of an entry leaves is not edited. -/
theorem write_unedited {s s' : Saving σ} {m m' : Record}
    (h : (e.write route).perform (s, m) = (.ok (), s', m')) : Model.isEdited m' = false := by
  rw [write] at h
  obtain ⟨_, p, -, hclear⟩ := Act.perform_bind_eq_ok h
  cases hclear
  rfl

theorem writePending_unedited {s s' : Saving σ} {m m' : Record}
    (h : (e.writePending route).perform (s, m) = (.ok (), s', m')) : Model.isEdited m' = false := by
  rw [perform_writePending] at h
  split at h
  · obtain ⟨_, p, -, hwrite⟩ := Act.perform_bind_eq_ok h
    exact write_unedited hwrite
  next hunedited =>
    cases h
    exact Bool.eq_false_iff.2 hunedited

section Writes

variable (hwriter : (e.routes route).writer = t.modelWriter)

include hwriter

/-- Records are settled by the writes of their batch. -/
theorem each_writeEntry_settles
    (hmodels : ∀ m ∈ models, m.schema = t.schema ∧
      (Model.hasKey m = true ∨ ∃ key, t.schema.keys = [key]) ∧ Model.validate m = .ok ())
    {s s' : Saving σ} {batch : List (BatchEntry Record)}
    (hrun : Act.each (e.writeEntry route) (models.map ready) s = (.ok (), s', batch)) :
    ∀ p ∈ batch, p.model.Settled t.schema := by
  have hwrite : (e.routes route).writer.write = t.write := congrArg ModelWriter.write hwriter
  refine Act.each_makes (P := fun p => ∃ m ∈ models, p = ready m) ?_ ?_ hrun
  · rintro s _ s' p' ⟨m, hm, rfl⟩ hround
    obtain ⟨hschema, hkey, hvalid⟩ := hmodels m hm
    rw [perform_writeReady, hwrite] at hround
    rcases hw : t.write.perform (s.world, m) with ⟨_ | _, w, m'⟩ <;> rw [hw] at hround
    · cases hround
    · cases hround
      exact TableStore.write_settles hschema hkey hvalid hw
  · intro p hp
    obtain ⟨m, hm, rfl⟩ := List.mem_map.1 hp
    exact ⟨m, hm, rfl⟩

/-- Records of a batch are settled by its phases. -/
theorem runPhases_settles (hhookless : e.behaviour = {}) {saver : Saver Record σ} {bound : Nat}
    (hmodels : ∀ m ∈ models, m.schema = t.schema ∧
      (Model.hasKey m = true ∨ ∃ key, t.schema.keys = [key]) ∧ Model.validate m = .ok ())
    {s s' : Saving σ} {batch : List (BatchEntry Record)} (hphase : s.phases route = .validate)
    (hrun : (e.runPhases saver route bound).perform (s, openBatch models) = (.ok (), s', batch)) :
    ∀ p ∈ batch, p.model.Settled t.schema := by
  obtain ⟨hresult, -, hbatch⟩ :=
    perform_runPhases hhookless saver route (fun _ => rfl) hphase models bound
  rw [hrun] at hresult hbatch
  rcases hwrites : Act.each (e.writeEntry route) (models.map ready) (s.setPhase route .save) with
    ⟨r, s₁, batch'⟩
  rw [hwrites] at hresult hbatch
  obtain rfl : .ok () = r := hresult
  obtain rfl : batch = batch' := hbatch
  exact each_writeEntry_settles hwriter hmodels hwrites

/-- There is nothing to write in a batch of settled records. -/
theorem runPhases_of_settled (hhookless : e.behaviour = {}) (saver : Saver Record σ) (bound : Nat)
    (hmodels : ∀ m ∈ models, m.Settled t.schema) {s : Saving σ}
    (hphase : s.phases route = .validate) :
    ((e.runPhases saver route bound).perform (s, openBatch models)).1 = .ok () ∧
      ((e.runPhases saver route bound).perform (s, openBatch models)).2.1.world = s.world := by
  have hwrite : (e.routes route).writer.write = t.write := congrArg ModelWriter.write hwriter
  have hidle : Act.each (e.writeEntry route) (models.map ready) (s.setPhase route .save) =
      (.ok (), s.setPhase route .save, (models.map ready).map fun p =>
        { ready (Model.clearEdits p.model) with prior := some (PriorState.ofModel p.model) }) := by
    refine Act.each_of_idle fun p hp => ?_
    obtain ⟨m, hm, rfl⟩ := List.mem_map.1 hp
    rw [perform_writeReady, hwrite, TableStore.write_settled (hmodels m hm)]
    rfl
  obtain ⟨hresult, hworld, -⟩ :=
    perform_runPhases hhookless saver route (fun _ => rfl) hphase models bound
  rw [hidle] at hresult hworld
  exact ⟨hresult, hworld⟩

end Writes

/-- What a save would find nothing to send of: its records are valid, and the frame of their batch
    runs it not at all, or once, and then they are settled. -/
structure AtRest (frame : Frame) (schema : Schema) (models : List Record) : Prop where
  valid : ∀ m ∈ models, Model.validate m = .ok ()
  allowed : models ≠ [] → ∀ err, frame ≠ .refused err
  settled : models ≠ [] → frame.rounds = 0 ∨ frame.rounds = 1 ∧ ∀ m ∈ models, m.Settled schema

/-- Without hooks, models that have been validated are valid, and still as they were. -/
theorem valid_of_forEach_validateModel (hhookless : e.behaviour = {}) {saver : Saver Record σ}
    {s s₁ : Saving σ} {models₁ : List Record}
    (h : (Act.forEach (e.validateModel saver)).perform (s, models) = (.ok (), s₁, models₁)) :
    (∀ m ∈ models, Model.validate m = .ok ()) ∧ s = s₁ ∧ models = models₁ := by
  rw [forEach_validateModel hhookless] at h
  obtain ⟨hresult, hsame⟩ := Prod.mk.inj h
  obtain ⟨rfl, rfl⟩ := Prod.mk.inj hsame
  exact ⟨forM_eq_ok_iff.1 hresult, rfl, rfl⟩

section Save

variable {frames : Nat → Frame} {a : Account σ} {bound : Nat} (hframes : e.HasFrames frames)
  (hhookless : e.behaviour = {}) (hwriter : (e.routes route).writer = t.modelWriter)

include hframes hhookless hwriter

/-- A save that succeeds leaves its records at rest, if their keys are complete by then. -/
theorem atRest_of_save {s s' : Saving σ} {models' : List Record}
    (hphase : s.phases route ≠ .afterSave)
    (hmodels : ∀ m ∈ models, m.schema = t.schema ∧
      (Model.hasKey m = true ∨ ∃ key, t.schema.keys = [key]))
    (hrun : (e.save bound route).perform (s, models) = (.ok (), s', models')) :
    AtRest (frames route) t.schema models' := by
  have hcourse := save_course hframes bound hphase models
  rw [hrun] at hcourse
  cases hcourse with
  | empty hnone =>
    subst hnone
    exact ⟨fun _ hm => absurd hm List.not_mem_nil, absurd rfl, absurd rfl⟩
  | @ran depth _ s₁ s₂ models₁ batch hbound _ hvalidated hbatch =>
    obtain ⟨hvalid, rfl, rfl⟩ := valid_of_forEach_validateModel hhookless hvalidated
    -- The records come back from the end of the batch.
    have hgiven : ∀ m ∈ givenModels models.length (closeBatch (.ok ()) batch),
        ∃ p ∈ batch, p.model = m := by
      intro m hm
      obtain ⟨p, hp, heq⟩ := List.mem_map.1 hm
      exact ⟨p, List.mem_of_mem_drop hp, heq⟩
    obtain ⟨hallowed, ⟨hrounds, rfl⟩ | ⟨hrounds, s₁, s₃, hphases, hrun⟩⟩ :=
      runBatch_eq_ok (save_keeps_phases hframes depth) hbatch
    · -- Records that were not written at all are not written by another save either.
      refine ⟨fun m hm => ?_, fun _ => hallowed, fun _ => .inl hrounds⟩
      obtain ⟨p, hp, rfl⟩ := hgiven m hm
      obtain ⟨m', hm', rfl⟩ := List.mem_map.1 hp
      exact hvalid m' hm'
    · have hvalidate : s₁.phases route = .validate := by
        rw [hphases, Saving.phases_setPhase]
      have hsettled := runPhases_settles hwriter hhookless
        (fun m hm => ⟨(hmodels m hm).1, (hmodels m hm).2, hvalid m hm⟩) hvalidate hrun
      have hall : ∀ m ∈ givenModels models.length (closeBatch (.ok ()) batch),
          m.Settled t.schema := by
        intro m hm
        obtain ⟨p, hp, rfl⟩ := hgiven m hm
        exact hsettled p hp
      exact ⟨fun m hm => (hall m hm).valid, fun _ => hallowed, fun _ => .inr ⟨hrounds, hall⟩⟩

/-- Nothing is sent of records that are at rest. -/
theorem save_atRest_sends_nothing (ha : a.Covers t.connection) {s : Saving σ}
    (hphase : s.phases route ≠ .afterSave) (h : AtRest (frames route) t.schema models) :
    a.sent ((e.save (bound + 1) route).perform (s, models)).2.1.world = a.sent s.world ∧
      (a.failed ((e.save (bound + 1) route).perform (s, models)).2.1.world = a.failed s.world →
        ((e.save (bound + 1) route).perform (s, models)).1 = .ok ()) := by
  have hcourse := save_course hframes (bound + 1) hphase models
  generalize (e.save (bound + 1) route).perform (s, models) = out at hcourse
  cases hcourse with
  | tooDeep hbound => cases hbound
  | empty => exact ⟨rfl, fun _ => rfl⟩
  | invalid hbound hinvalid =>
    obtain ⟨hresult, -⟩ := Prod.mk.inj ((forEach_validateModel hhookless ..).symm.trans hinvalid)
    rw [forM_eq_ok_iff.2 h.valid] at hresult
    cases hresult
  | @ran depth r s₁ s₂ models₁ batch hbound hne hvalidated hrun =>
    obtain ⟨-, rfl, rfl⟩ := valid_of_forEach_validateModel hhookless hvalidated
    have hconnection : e.batchConnection route =
        t.connection.zoom (Lens.fst.comp Saving.worldLens) := by
      rw [batchConnection, hwriter]
      rfl
    have hsilent := Frame.enclose_silent (e.runPhases (e.save depth) route depth)
      (h.allowed hne) (hconnection ▸ ha.zoom (Lens.fst.comp Saving.worldLens))
      (e.batchConnection_moves route) (t := (s.setPhase route .validate, openBatch models)) ?_
    · rw [← runBatch, hrun] at hsilent
      exact hsilent
    · rintro ⟨s₁, batch₁⟩ hbefore
      obtain ⟨hphases, rfl⟩ := Prod.mk.inj hbefore
      rcases h.settled hne with hnone | ⟨honce, hsettled⟩
      · rw [hnone]
        exact ⟨rfl, rfl, rfl⟩
      · have hvalidate : s₁.phases route = .validate := by
          dsimp only at hphases
          rw [hphases, Saving.phases_setPhase]
        obtain ⟨hresult, hworld⟩ :=
          runPhases_of_settled hwriter hhookless (e.save depth) depth hsettled hvalidate
        rw [honce, Act.times_one]
        exact ⟨hresult, congrArg a.sent hworld, congrArg a.failed hworld⟩

end Save

/-- In the after-save phase of its route, a save writes what is pending. -/
theorem perform_save_of_afterSave {bound : Nat} {s : Saving σ} (hphase : s.phases route = .afterSave)
    (models : List Record) :
    (e.save (bound + 1) route).perform (s, models) =
      Act.each (e.writePending route) models s := by
  simp only [save, saveWith, Act.perform_make, hphase, if_true, Act.forEach]

/-- Nothing is pending after a save in the after-save phase of its route. -/
theorem save_afterSave_again {bound again : Nat} {s s' : Saving σ} {models' : List Record}
    (hphase : s.phases route = .afterSave) (hphase' : s'.phases route = .afterSave)
    (hrun : (e.save bound route).perform (s, models) = (.ok (), s', models')) :
    (e.save (again + 1) route).perform (s', models') = (.ok (), s', models') := by
  cases bound with
  | zero => cases hrun
  | succ bound =>
    rw [perform_save_of_afterSave hphase] at hrun
    have hunedited : ∀ m ∈ models', Model.isEdited m = false :=
      Act.each_makes (P := fun _ => True) (fun _ _ _ _ _ => writePending_unedited)
        (fun _ _ => trivial) hrun
    rw [perform_save_of_afterSave hphase', Act.each_of_idle (g := id) ?_, List.map_id]
    intro m hm
    rw [perform_writePending, hunedited m hm]
    rfl

/-- After a save that succeeds, another save of the records that it returned sends nothing, and
    succeeds unless a call of its connection fails. Their keys have to be complete once they were
    written: each record has one, or the key is a single column, which a write fills in. -/
theorem save_again_sends_nothing {frames : Nat → Frame} {a : Account σ} (hframes : e.HasFrames frames)
    (hhookless : e.behaviour = {}) (hwriter : (e.routes route).writer = t.modelWriter)
    (ha : a.Covers t.connection)
    (hmodels : ∀ m ∈ models, m.schema = t.schema ∧
      (Model.hasKey m = true ∨ ∃ key, t.schema.keys = [key]))
    {bound : Nat} {s s' : Saving σ} {models' : List Record}
    (hrun : (e.save bound route).perform (s, models) = (.ok (), s', models')) (again : Nat) :
    a.sent ((e.save (again + 1) route).perform (s', models')).2.1.world = a.sent s'.world ∧
      (a.failed ((e.save (again + 1) route).perform (s', models')).2.1.world = a.failed s'.world →
        ((e.save (again + 1) route).perform (s', models')).1 = .ok ()) := by
  have hkept : s'.phases = s.phases := by
    have hmoves := save_keeps_phases hframes bound route (s, models)
    rw [hrun] at hmoves
    exact hmoves.symm
  by_cases hphase : s.phases route = .afterSave
  · rw [save_afterSave_again hphase (hkept ▸ hphase) hrun]
    exact ⟨rfl, fun _ => rfl⟩
  · exact save_atRest_sends_nothing hframes hhookless hwriter ha (hkept ▸ hphase)
      (atRest_of_save hframes hhookless hwriter hphase hmodels hrun)

end SaveEngine

/-! ### On a stage -/

namespace Rehearsal.Stage

/-- A new item gets its key when it is inserted, so that there is nothing to do for a second save,
    neither for it nor for one that was loaded. -/
theorem items_sent_once : ∃ s models,
    (plainEngine.save 1 0).perform (emptyStage, [item "a", renamedItem]) = (.ok (), s, models) ∧
      (account.sent s.world).length = 2 ∧
      account.sent ((plainEngine.save 1 0).perform (s, models)).2.1.world = account.sent s.world ∧
      ((plainEngine.save 1 0).perform (s, models)).1 = .ok () := by
  have hmodels : ∀ m ∈ [item "a", renamedItem], m.schema = itemStore.schema ∧
      (Model.hasKey m = true ∨ ∃ key, itemStore.schema.keys = [key]) :=
    fun m hm => ⟨by revert m; decide, .inr ⟨"id", by decide⟩⟩
  have hfirst : ((plainEngine.save 1 0).perform (emptyStage, [item "a", renamedItem])).1 = .ok () := by
    decide +kernel
  have hsends : (account.sent ((plainEngine.save 1 0).perform
      (emptyStage, [item "a", renamedItem])).2.1.world).length = 2 := by
    decide +kernel
  have hcalls : account.failed ((plainEngine.save 1 0).perform ((plainEngine.save 1 0).perform
      (emptyStage, [item "a", renamedItem])).2).2.1.world = account.failed
        ((plainEngine.save 1 0).perform (emptyStage, [item "a", renamedItem])).2.1.world := by
    decide +kernel
  rcases hrun : (plainEngine.save 1 0).perform (emptyStage, [item "a", renamedItem]) with
    ⟨r, s, models⟩
  rw [hrun] at hfirst hsends hcalls
  obtain rfl : r = .ok () := hfirst
  obtain ⟨hsent, hresult⟩ := SaveEngine.save_again_sends_nothing
    (fun _ => TransactionScheme.standard_frames) rfl rfl (connection_accounted default 0) hmodels
    hrun 0
  exact ⟨s, models, rfl, hsends, hsent, hresult hcalls⟩

/-- Saves of what is in stock, without hooks. -/
def stockEngine : SaveEngine Record Stage where
  routes _ := { writer := stockStore.modelWriter }
  behaviour := {}

/-- Bolts that a shop has not given a number of its own. -/
def openBolts : Record where
  schema := stockSchema
  values := [("shop", .int 4), ("name", .string "bolt")]
  edited := ["shop", "name"]

/-- A key of two columns of which one was left open is not completed by a write, so every save inserts
    the record once more. -/
theorem openBolts_sent_twice :
    let first := (stockEngine.save 1 0).perform (emptyStage, [openBolts])
    let again := (stockEngine.save 1 0).perform first.2
    first.1 = .ok () ∧ again.1 = .ok () ∧
      account.sent again.2.1.world =
        [("INSERT INTO stock (shop, name) VALUES (?1, ?2)", [.integer 4, .text "bolt"]),
         ("INSERT INTO stock (shop, name) VALUES (?1, ?2)", [.integer 4, .text "bolt"])] := by
  decide +kernel

end Rehearsal.Stage

end RecordStore
