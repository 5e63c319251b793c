import RecordStore.Proofs.Save.Preparation
import RecordStore.Proofs.Save.Stability
import RecordStore.Proofs.Save.Stage

/-!
# The order of a save

In a save that succeeds, and whose models' code starts no saves, everything has its place in one order
(`Ordered`):

1. all validations and all code before the write, in which the batch grows and models are skipped;
2. one write for every model that was not skipped, in the order of the batch;
3. for every model that was not skipped, in the same order, the code after the write, and one more
   write if the model was left edited.

That is the history of every such save (`SaveEngine.save_in_order`), and at its end no model that was
not skipped is edited.
-/

namespace RecordStore

variable {μ σ : Type}

/-- The names of a batch after its preparation. -/
def batchNames (start : List ModelName) (preparation : List (Happening μ)) : List ModelName :=
  preparation.foldl Happening.grow start

/-- The names of those that were not skipped. -/
def keptNames (start : List ModelName) (preparation : List (Happening μ)) : List ModelName :=
  (batchNames start preparation).filter fun name => !preparation.any (·.skips name)

/-- A preparation, writes, and what comes after them for one model after the other: models with the
    names at the start were saved in order. -/
structure Ordered [Model μ] (hooks : μ → List (Hook μ σ)) (start : List ModelName)
    (preparation writes : List (Happening μ)) (finishes : List (List (Happening μ))) : Prop where
  early : ∀ x ∈ preparation, x.isEarly = true ∧ x.name ∈ batchNames start preparation
  prepared : ∀ name ∈ batchNames start preparation, ∃ validation before outcome,
    preparation.filter (·.name = name) = validation ++ before ∧
      Validates name validation ∧ Before hooks name before outcome
  nodup : (batchNames start preparation).Nodup
  written : List.Forall₂ (fun name x => ∃ m, x = .wrote name m) (keptNames start preparation) writes
  finished : List.Forall₂ (After hooks) (keptNames start preparation) finishes

/-! ### The models that are kept -/

/-- The names in a batch, and which of its models are skipped. -/
def standing (batch : List (BatchEntry (Named μ))) : List (ModelName × Bool) :=
  batch.map fun p => (p.model.name, p.isSkipped)

/-- The names of those that are not skipped. -/
def standingKept (batch : List (BatchEntry (Named μ))) : List ModelName :=
  ((standing batch).filter fun q => !q.2).map (·.1)

theorem Traced.standing_eq [Model μ] {hooks : μ → List (Hook μ σ)} {start : List ModelName}
    {es : List (Happening μ)} {batch : List (BatchEntry (Named μ))} (h : Traced hooks start es batch)
    (hdone : ∀ p ∈ batch, p.hooksDone = true) :
    standing batch = (batchNames start es).map fun name => (name, es.any (·.skips name)) := by
  rw [batchNames, ← h.names, List.map_map, standing]
  refine List.map_congr_left fun p hp => ?_
  rw [Function.comp_apply, h.toPrepared.any_skips hp (hdone p hp)]

section Loop

variable (P : ModelName → List (Happening μ) → Prop) (Q : μ → Prop)

/-- Partway through a loop that began with this batch: what is skipped was passed over, and something
    was entered about each of the other models. -/
structure Partway (s₀ : Saving (Recorded μ σ)) (batch : List (BatchEntry (Named μ)))
    (s : Saving (Recorded μ σ)) (pre rest : List (BatchEntry (Named μ))) : Prop where
  standing : standing (pre ++ rest) = standing batch
  left : ∀ p ∈ pre, p.isSkipped = false → Q p.model.model
  entered : ∃ segs, s.history = s₀.history ++ segs.flatten ∧
    List.Forall₂ P (standingKept pre) segs

theorem Act.each_kept {f : Act (Saving (Recorded μ σ) × BatchEntry (Named μ)) Unit}
    (hskipped : ∀ s p, p.isSkipped = true → f.perform (s, p) = (.ok (), s, p))
    (hkept : ∀ s p s' p', p.isSkipped = false → f.perform (s, p) = (.ok (), s', p') →
      p'.isSkipped = false ∧ p'.model.name = p.model.name ∧ Q p'.model.model ∧
        ∃ es, s'.history = s.history ++ es ∧ P p.model.name es)
    {batch batch' : List (BatchEntry (Named μ))} {s s' : Saving (Recorded μ σ)}
    (hrun : each f batch s = (.ok (), s', batch')) : Partway P Q s batch s' batch' [] := by
  have hstep : ∀ s₁ pre p rest s₂ p', Partway P Q s batch s₁ pre (p :: rest) →
      f.perform (s₁, p) = (.ok (), s₂, p') → Partway P Q s batch s₂ (pre ++ [p']) rest := by
    rintro s₁ pre p rest s₂ p' ⟨hstanding, hleft, segs, hsegs, hP⟩ hf
    rcases hflag : p.isSkipped with _ | _
    · obtain ⟨hflag', hname, hQ, es, hes, hP'⟩ := hkept _ _ _ _ hflag hf
      have hone : standingKept (pre ++ [p']) = standingKept pre ++ [p.model.name] := by
        simp [standingKept, RecordStore.standing, hname, hflag']
      refine ⟨?_, ?_, segs ++ [es], by simp [hes, hsegs], ?_⟩
      · rw [← hstanding]
        simp [RecordStore.standing, hname, hflag, hflag']
      · exact List.forall_mem_append.2 ⟨hleft, by simpa using fun _ => hQ⟩
      · rw [hone]
        exact List.rel_append hP (.cons hP' .nil)
    · rw [hskipped _ _ hflag] at hf
      cases hf
      refine ⟨?_, ?_, segs, hsegs, ?_⟩
      · rwa [List.append_assoc, List.singleton_append]
      · exact List.forall_mem_append.2 ⟨hleft, by simp [hflag]⟩
      · simpa [standingKept, RecordStore.standing, hflag] using hP
  have hstart : Partway P Q s batch s [] batch := ⟨rfl, by simp, [], by simp, .nil⟩
  exact each_invariant _ hstep hrun hstart

end Loop

namespace SaveEngine

variable [Model μ] {e : SaveEngine μ σ} {frames : Nat → Frame} {route : Nat}
  {s s' : Saving (Recorded μ σ)} {batch batch' : List (BatchEntry (Named μ))}

section Phases

variable (hclear : ∀ m : μ, Model.isEdited (Model.clearEdits m) = false)

include hclear

theorem each_writeEntry
    (hrun : Act.each ((e.recorded frames).writeEntry route) batch s = (.ok (), s', batch')) :
    standing batch' = standing batch ∧ ∃ writes, s'.history = s.history ++ writes ∧
      List.Forall₂ (fun name x => ∃ m, x = .wrote name m) (standingKept batch') writes := by
  obtain ⟨hstanding, -, segs, hsegs, hP⟩ :=
    Act.each_kept (fun name es => ∃ m, es = [.wrote name m]) (fun _ => True) (fun s p hflag => by
      rw [perform_writeEntry, if_pos hflag]) (fun s p s' p' hflag hf => by
      rcases hw : ((e.recorded frames).write route).perform (s, p.model) with ⟨r, s₁, m'⟩
      simp only [perform_writeEntry, hflag, Bool.false_eq_true, if_false, hw] at hf
      cases hf
      obtain ⟨hname, es, hes, rfl, -⟩ := write_records hclear route _ _ _ _ _ hw
      exact ⟨rfl, hname, trivial, _, hes, p.model.model, rfl⟩) hrun
  rw [List.append_nil] at hstanding
  refine ⟨hstanding, segs.flatten, hsegs, ?_⟩
  -- Each of the segments is a single write.
  clear hsegs hstanding
  generalize standingKept batch' = kept at hP
  induction hP with
  | nil => exact .nil
  | cons hone _ ih =>
    obtain ⟨m, rfl⟩ := hone
    exact .cons ⟨m, rfl⟩ ih

theorem each_finishEntry {saver : Saver (Named μ) (Recorded μ σ)} (he : e.IsSaveless)
    (hrun : Act.each ((e.recorded frames).finishEntry saver route) batch s =
      (.ok (), s', batch')) :
    standing batch' = standing batch ∧
      (∀ p ∈ batch', p.isSkipped = false → Model.isEdited p.model.model = false) ∧
      ∃ finishes, s'.history = s.history ++ finishes.flatten ∧
        List.Forall₂ (After e.behaviour.hooks) (standingKept batch') finishes := by
  obtain ⟨hstanding, hleft, hfinishes⟩ :=
    Act.each_kept (After e.behaviour.hooks) (Model.isEdited · = false) (fun s p hflag => by
      rw [perform_finishEntry, if_pos hflag]) (fun s p s' p' hflag hf => by
      simp only [perform_finishEntry, hflag, Bool.false_eq_true, if_false] at hf
      rcases hm : (do (e.recorded frames).afterSave saver route
                      (e.recorded frames).writePending route :
          Act (Saving (Recorded μ σ) × Named μ) Unit).perform (s, p.model) with ⟨r, s₁, m'⟩
      rw [hm] at hf
      cases hf
      obtain ⟨hname, es, hes, hafter, hleft⟩ := finish_records hclear he route _ _ _ _ _ hm
      exact ⟨rfl, hname, hleft, es, hes, hafter⟩) hrun
  rw [List.append_nil] at hstanding
  exact ⟨hstanding, hleft, hfinishes⟩

/-- A batch that goes through its phases does so in order. -/
theorem runPhases_ordered {saver : Saver (Named μ) (Recorded μ σ)} {bound : Nat}
    {start : List ModelName} (he : e.IsSaveless) (h : e.TracedBy start s batch)
    (hrun : ((e.recorded frames).runPhases saver route bound).perform (s, batch) =
      (.ok (), s', batch')) :
    ∃ preparation writes finishes, s'.history = preparation ++ writes ++ finishes.flatten ∧
      Ordered e.behaviour.hooks start preparation writes finishes ∧
      standing batch' = (batchNames start preparation).map
        (fun name => (name, preparation.any (·.skips name))) ∧
      ∀ p ∈ batch', p.isSkipped = false → Model.isEdited p.model.model = false := by
  obtain ⟨s₁, s₂, batch₁, batch₂, hprepare, hwrite, hfinish⟩ := runPhases_eq_ok hrun
  obtain ⟨h₁, hdone⟩ := prepare_traced he h hprepare
  obtain ⟨hstanding₂, writes, hwrites, hwritten⟩ := each_writeEntry hclear hwrite
  obtain ⟨hstanding', hleft, finishes, hfinishes, hfinished⟩ := each_finishEntry hclear he hfinish
  have hstanding : standing batch₁ = _ := h₁.standing_eq hdone
  have hkept : standingKept batch₁ = keptNames start s₁.history := by
    rw [standingKept, hstanding, List.filter_map, List.map_map]
    exact List.map_id' _
  refine ⟨s₁.history, writes, finishes, ?_, ?_, hstanding'.trans (hstanding₂.trans hstanding), hleft⟩
  · rw [hfinishes, show (s₂.setPhase route .afterSave).history = s₂.history from rfl, hwrites]
    rfl
  · have hnames : batchNames start s₁.history = batch₁.map (·.model.name) := h₁.names.symm
    refine ⟨?_, ?_, hnames ▸ h₁.nodup, ?_, ?_⟩
    · rw [hnames]
      exact h₁.early
    · intro name hname
      rw [hnames] at hname
      obtain ⟨p, hp, rfl⟩ := List.mem_map.1 hname
      obtain ⟨⟨v, b, heq, hv, hb⟩⟩ := h₁.told p hp
      rw [hdone p hp] at hb
      obtain ⟨hvalidated, o, hbefore, -⟩ : p.isValidated = true ∧
          ∃ o, Before e.behaviour.hooks p.model.name b o ∧ p.isSkipped = o.isSkip := by
        simpa using hb
      exact ⟨v, b, o, heq, by simpa [hvalidated] using hv, hbefore⟩
    · rw [← hkept, ← show standingKept batch₂ = standingKept batch₁ by
        rw [standingKept, standingKept, hstanding₂]]
      exact hwritten
    · rw [← hkept, ← show standingKept batch' = standingKept batch₁ by
        rw [standingKept, standingKept, hstanding', hstanding₂]]
      exact hfinished

end Phases

/-! ### Whole saves -/

/-- Nothing is told of models that were not taken up yet. -/
theorem traced_given (hooks : μ → List (Hook μ σ)) (models : List μ) :
    Traced hooks ((List.range models.length).map .given) [] ((Named.given models).map .fresh) := by
  have hnames : ((Named.given models).map BatchEntry.fresh).map (·.model.name) =
      (List.range models.length).map .given :=
    List.ext_getElem (by simp [Named.given]) (by simp [Named.given, BatchEntry.fresh])
  refine ⟨⟨.of_given hnames, fun p hp => ?_, by simp⟩, hnames⟩
  obtain ⟨m, -, rfl⟩ := List.mem_map.1 hp
  exact ⟨[], [], rfl, .inr ⟨rfl, rfl⟩, .inr ⟨rfl, rfl, rfl⟩⟩

/-- A save that succeeds saves its models in order, those it was given and those that were added to
    them, and leaves none of them edited, unless it is skipped. -/
theorem save_in_order (hframes : e.HasFrames frames) (he : e.IsSaveless)
    (hclear : ∀ m : μ, Model.isEdited (Model.clearEdits m) = false)
    (hrounds : (frames route).rounds ≠ 0) (bound : Nat) (s : Saving σ)
    (hphase : s.phases route ≠ .afterSave) (models : List μ)
    (hok : ((e.save bound route).perform (s, models)).1 = .ok ()) :
    ((e.save bound route).perform (s, models)).2.2 =
        (givenModels models.length (e.finalBatch frames bound route s models)).map (·.model) ∧
      ∃ preparation writes finishes,
      e.history frames bound route s models = preparation ++ writes ++ finishes.flatten ∧
      Ordered e.behaviour.hooks ((List.range models.length).map .given) preparation writes
        finishes ∧
      standing (e.finalBatch frames bound route s models) =
        (batchNames ((List.range models.length).map .given) preparation).map
          (fun name => (name, preparation.any (·.skips name))) ∧
      ∀ p ∈ e.finalBatch frames bound route s models,
        p.isSkipped = false → Model.isEdited p.model = false := by
  refine ⟨save_finalBatch hframes bound hphase models, ?_⟩
  have hframes' : (e.recorded frames).HasFrames frames :=
    fun route => TransactionScheme.ofFrame_frames (frames route)
  have hcourse := save_course hframes' bound (s := s.recorded) hphase (Named.given models)
  have hsame := perform_save_eq hframes bound route s models
  rw [hsame] at hok
  rw [history, finalBatch]
  rcases hout : ((e.recorded frames).save bound route).perform (s.recorded, Named.given models) with
    ⟨r, s', models'⟩
  rw [hout] at hcourse hok
  obtain rfl : r = .ok () := hok
  cases hcourse with
  | empty hmodels =>
    obtain rfl : models = [] := by simpa [Named.given] using hmodels
    rw [show Named.given ([] : List μ) = [] from rfl, lastBatch_nil]
    exact ⟨[], [], [], rfl, ⟨by simp, by simp [batchNames], .nil, .nil, .nil⟩, rfl, by simp⟩
  | @ran depth _ s₁ s₂ models₁ batch hbound hmodels hvalid hrun =>
    subst hbound
    have hlast : (e.recorded frames).lastBatch (frames route) (depth + 1) route s.recorded
        (Named.given models) = batch := lastBatch_of_ran hmodels hvalid hrun
    have hcontrol : ((e.recorded frames).batchConnection route).Moves Eq
        fun t => (t.1.history, t.2) := ⟨fun _ => rfl, fun _ => rfl, fun _ => rfl⟩
    rcases runBatch_once (frames route) (save_keeps_phases hframes' depth) hcontrol hrun with
      ⟨-, hnone⟩ | ⟨⟨s₀, batch₀⟩, hbefore, hafter, hokPhases⟩
    · exact absurd (hnone rfl) hrounds
    rcases hphases : ((e.recorded frames).runPhases ((e.recorded frames).save depth) route
      depth).perform (s₀, batch₀) with ⟨r, s₃, batch₃⟩
    rw [hphases] at hafter hokPhases
    obtain rfl : r = .ok () := hokPhases rfl
    obtain ⟨hhistory₀, rfl⟩ := Prod.mk.inj hbefore
    obtain ⟨hhistory₃, rfl⟩ := Prod.mk.inj hafter
    have htraced : e.TracedBy ((List.range models.length).map .given) s₀ (openBatch models₁) := by
      have h := each_validateModel he (s := s.recorded.setPhase route .validate)
        (traced_given e.behaviour.hooks models) hvalid
      rwa [TracedBy, ← hhistory₀] at h
    obtain ⟨preparation, writes, finishes, hhistory, hordered, hstanding, hleft⟩ :=
      runPhases_ordered hclear he htraced hphases
    rw [hlast]
    exact ⟨preparation, writes, finishes, hhistory₃.trans hhistory, hordered, hstanding, hleft⟩

end SaveEngine

namespace Rehearsal.Stage

/-- Saves in which an order asks for a part of it to be saved first and is confirmed after the write,
    and in which what is void is skipped. -/
def orderEngine : SaveEngine Record Stage where
  routes _ := {
    writer := (TableStore.mk (connection default 0)
      { table := "item", schema := itemSchema }).modelWriter }
  behaviour := {
    hooks := fun m =>
      [{ before := .look fun m _ =>
          .done (match m.values.getOrNull "name" with
            | .string "order" => .add [item "part"]
            | .string "void" => .skip
            | _ => .proceed)
         after := if m.values.getOrNull "name" == .string "order" then
            .act (Act.change fun (w, m) => (w, (m.set "name" (.string "confirmed")).toOption.getD m))
              fun _ => .done .proceed
          else .done .proceed }] }

theorem orderEngine_hasFrames : orderEngine.HasFrames fun _ => .connected 1 :=
  fun _ => TransactionScheme.standard_frames

theorem orderEngine_isSaveless : orderEngine.IsSaveless where
  beforeValidate := trivial
  beforeSave := trivial
  afterSave := trivial
  before m hook hhook := by
    rw [List.mem_singleton.1 hhook]
    exact fun _ _ => trivial
  after m hook hhook := by
    rw [List.mem_singleton.1 hhook]
    dsimp only
    split
    · exact ⟨trivial, fun _ => trivial⟩
    · trivial

/-- An order and what is void: the part comes first, and what is void is skipped. -/
theorem order_in_order :
    ((orderEngine.save 2 0).perform (emptyStage, [item "order", item "void"])).1 = .ok () ∧
      ∃ preparation writes finishes,
        orderEngine.history (fun _ => .connected 1) 2 0 emptyStage [item "order", item "void"] =
          preparation ++ writes ++ finishes.flatten ∧
        Ordered orderEngine.behaviour.hooks [.given 0, .given 1] preparation writes finishes ∧
        keptNames [.given 0, .given 1] preparation = [.added (.given 0) 0, .given 0] := by
  have hok : ((orderEngine.save 2 0).perform (emptyStage, [item "order", item "void"])).1 =
      .ok () := by
    decide +kernel
  obtain ⟨-, preparation, writes, finishes, hhistory, hordered, hstanding, -⟩ :=
    @SaveEngine.save_in_order _ _ _ _ _ 0 orderEngine_hasFrames orderEngine_isSaveless (fun _ => rfl)
      Nat.one_ne_zero 2 emptyStage nofun [item "order", item "void"] hok
  have hlast : standing (orderEngine.finalBatch (fun _ => .connected 1) 2 0 emptyStage
      [item "order", item "void"]) =
      [(.added (.given 0) 0, false), (.given 0, false), (.given 1, true)] := by
    decide +kernel
  have hkept : standingKept (orderEngine.finalBatch (fun _ => .connected 1) 2 0 emptyStage
      [item "order", item "void"]) = keptNames [.given 0, .given 1] preparation := by
    rw [standingKept, hstanding, List.filter_map, List.map_map]
    exact List.map_id' _
  refine ⟨hok, preparation, writes, finishes, hhistory, hordered, ?_⟩
  rw [← hkept, standingKept, hlast]
  rfl

end Rehearsal.Stage

end RecordStore
