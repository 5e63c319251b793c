import RecordStore.Proofs.Save.Passes

/-!
# Saves whose batches start again

A save validates the models that it is given, opens a transaction, and then prepares its batch in
passes, which start again from the front with every model that asks for more
(`RecordStore.Proofs.Save.Passes`). If the trees that come up in these passes are finite, and no
validation fails and no code before a write, the preparation ends. By then every model of the trees is
in the batch once, and has been validated once and been through the code before its write once
(`SaveEngine.save_in_passes`).

What comes after the preparation changes nothing about that, wherever it breaks off
(`SaveEngine.GoesOn`): the batch keeps its models, and none of them is prepared again. How often a batch
may start again is bounded, but any bound will do that is not below what its models ask for.
-/

namespace RecordStore

variable {γ μ σ τ : Type}

/-! ### From the transaction on -/

/-- The world in which the body of a unit is first run by a frame. -/
inductive Frame.Opens (c : Connection τ) (t : τ) : Frame → τ → Prop
  | plain : Opens c t .plain t
  | joined {rounds : Nat} : c.inTransaction t = true → Opens c t (.connected (rounds + 1)) t
  | begun {rounds : Nat} {t₁ : τ} : c.inTransaction t = false →
    c.begin.perform t = (.ok (), t₁) → Opens c t (.connected (rounds + 1)) t₁

/-- A frame that is open runs the body there, in a part of the world that the control calls of the
    connection leave alone. -/
theorem Frame.Opens.perform_enclose {frame : Frame} {c : Connection τ} {part : τ → γ} {t t₀ : τ}
    (h : frame.Opens c t t₀) (body : Act τ Unit) (hc : c.Moves Eq part) :
    part t₀ = part t ∧ ∃ rounds, part ((frame.enclose c body).perform t).2 =
      part ((Act.times (rounds + 1) body).perform t₀).2 := by
  cases h with
  | plain =>
    have honce : Act.times 1 body = body := bind_pure_unit
    exact ⟨rfl, 0, by rw [honce]; rfl⟩
  | @joined rounds hopen =>
    refine ⟨rfl, rounds, ?_⟩
    simp only [Frame.enclose, Act.perform_make, hopen, if_true]
  | @begun rounds _ hclosed hbegin =>
    have hkept : part t = part t₀ := by
      have h := hc.begin t
      rwa [hbegin] at h
    refine ⟨hkept.symm, rounds, ?_⟩
    simp only [Frame.enclose, Act.perform_make, hclosed, hbegin, Bool.false_eq_true, if_false]
    rcases (Act.times (rounds + 1) body).perform t₀ with ⟨_ | _, t₂⟩
    · exact (hc.rollback t₂).symm
    · have hcommit := hc.commit t₂
      dsimp only
      rcases hf : c.commit.perform t₂ with ⟨_ | _, t₃⟩ <;> rw [hf] at hcommit
      · exact (hcommit.trans (hc.rollback t₃)).symm
      · exact hcommit.symm

namespace SaveEngine

variable [Model μ] {e : SaveEngine μ σ} {frames : Nat → Frame} {route depth : Nat}
  {saver : Saver (Named μ) (Recorded μ σ)} {t₀ t t' : BatchWorld (Named μ) (Recorded μ σ)}

/-- The names in a batch. -/
abbrev modelNames (batch : List (BatchEntry (Named μ))) : List ModelName := batch.map (·.model.name)

/-- The batch of a save starts in this world: its models have been validated, and its transaction is
    open. -/
inductive StartsBatch (e : SaveEngine μ σ) (frames : Nat → Frame) (depth route : Nat)
    (s : Saving σ) (models : List μ) : BatchWorld (Named μ) (Recorded μ σ) → Prop
  | intro {s₁ : Saving (Recorded μ σ)} {models₁ : List (Named μ)}
    {t₀ : BatchWorld (Named μ) (Recorded μ σ)} :
    (Act.forEach ((e.recorded frames).validateModel ((e.recorded frames).save depth))).perform
      (s.recorded.setPhase route .validate, Named.given models) = (.ok (), s₁, models₁) →
    (frames route).Opens ((e.recorded frames).batchConnection route) (s₁, openBatch models₁) t₀ →
    StartsBatch e frames depth route s models t₀

/-- When a batch starts, its models have been validated, and nothing else was done to them. -/
theorem StartsBatch.underway {s : Saving σ} {models : List μ}
    (h : e.StartsBatch frames depth route s models t₀) :
    t₀.1.phases route = .validate ∧
      Underway e.behaviour.hooks ((List.range models.length).map .given) 0 true t₀ := by
  obtain ⟨hvalid, hopens⟩ := h
  rename_i s₁ models₁
  have hsaver := save_keeps_ownHistory e frames depth
  have hcontrol : ((e.recorded frames).batchConnection route).Moves Eq
      fun t => (t.1.phases, t.1.ownHistory, t.2) := ⟨fun _ => rfl, fun _ => rfl, fun _ => rfl⟩
  -- To open the transaction changes nothing of what is told here.
  have hkept := (hopens.perform_enclose (pure ()) hcontrol).1
  obtain ⟨hphases, hkept⟩ := Prod.mk.inj hkept
  obtain ⟨hhistory, hbatch⟩ := Prod.mk.inj hkept
  have hsame : (s.recorded.setPhase route .validate).phases = s₁.phases :=
    (leadsModels_phases (save_keeps_phases recorded_hasFrames depth) route
      id).validateModel.forEach_view hvalid
  have hfollowed : Followed e.behaviour.hooks ((List.range models.length).map .given)
      s₁.ownHistory (openBatch models₁) :=
    (followed_keptInTurns hsaver ModelName.isOwn_given).each_validateModel
      (s := s.recorded.setPhase route .validate)
      ⟨traced_given e.behaviour.hooks models, fun p hp hdone => by
        obtain ⟨m, -, rfl⟩ := List.mem_map.1 hp
        cases hdone⟩ hvalid
  have hasked : s₁.ownHistory.countP (·.asksMore) = 0 := by
    have hadds := (@validateModel_adds _ _ _ e frames _ hsaver).forEach
      (s.recorded.setPhase route .validate, Named.given models)
    rw [hvalid] at hadds
    exact hadds.countP_asksMore
  obtain ⟨s₀, batch₀⟩ := t₀
  dsimp only at hphases hhistory hbatch
  subst hbatch
  refine ⟨?_, ?_⟩
  · rw [hphases, ← hsame, Saving.phases_setPhase]
  · refine ⟨?_, ?_, nofun⟩
    · rw [hhistory]
      exact hfollowed
    · rw [hhistory]
      exact hasked

/-! ### After the preparation -/

/-- Whatever is entered from here on, it is no preparation of a model, and the batch keeps its models. -/
structure Late (t t' : BatchWorld (Named μ) (Recorded μ σ)) : Prop where
  history : Adds (·.isEarly = false) t.1.ownHistory t'.1.ownHistory
  names : modelNames t'.2 = modelNames t.2

section Late

variable (hsaver : ∀ route, (saver route).Moves LeadsApart (seen Saving.ownHistory))
  (hown : ∀ p ∈ t.2, p.model.name.IsOwn)

omit [Model μ] in
/-- One entry goes on. -/
theorem Late.step {s s' : Saving (Recorded μ σ)} {pre rest : List (BatchEntry (Named μ))}
    {p p' : BatchEntry (Named μ)} (h : Late t (s, pre ++ p :: rest))
    (hname : p'.model.name = p.model.name)
    (hadds : Adds (·.isEarly = false) s.ownHistory s'.ownHistory) :
    Late t (s', pre ++ p' :: rest) where
  history := IsTrans.trans _ _ _ h.history hadds
  names := by
    have hnames := h.names
    simpa [modelNames, hname] using hnames

include hown

omit [Model μ] in
/-- The models of the batch are the save's own all along. -/
theorem Late.isOwn (h : Late t t') : ∀ p ∈ t'.2, p.model.name.IsOwn := by
  intro p hp
  have hmem : p.model.name ∈ modelNames t.2 := h.names ▸ List.mem_map_of_mem hp
  obtain ⟨q, hq, hname⟩ := List.mem_map.1 hmem
  exact hname ▸ hown q hq

theorem forEach_writeEntry_late :
    (Act.forEach ((e.recorded frames).writeEntry route)).Keeps (Late t) := by
  rintro ⟨s, batch⟩ h
  refine Act.each_keeps (fun s batch => Late t (s, batch)) (fun s pre p rest h => ?_) h
  rw [perform_writeEntry]
  split
  · exact h
  · rcases hw : ((e.recorded frames).write route).perform (s, p.model) with ⟨r, s', m'⟩
    obtain ⟨hname, hhistory⟩ := write_own (h.isOwn hown p (by simp)) hw
    exact h.step hname ⟨_, hhistory, by simp [Happening.isEarly]⟩

include hsaver

omit [Model μ] hown in
theorem afterModel_adds : ((e.recorded frames).afterSave saver route).Moves
    (Adds (·.isEarly = false)) fun t => t.1.ownHistory := by
  refine (Program.recorded_adds hsaver fun _ _ _ => rfl).bind fun _ => fun t => ?_
  refine @runAfter_moves _ _ _ _ _ _ _ (fun t => t.1.ownHistory) _ _ (fun hook hhook => ?_) t
  obtain ⟨i, hook', -, rfl⟩ := mem_recorded_hooks hhook
  exact Program.recorded_adds hsaver fun _ _ _ => rfl

omit hown in
/-- What comes after the write of a model may end with one more write of it. -/
theorem finish_late {s s' : Saving (Recorded μ σ)} {m m' : Named μ} {r : Except StoreError Unit}
    (hm : m.name.IsOwn) (hrun : (do (e.recorded frames).afterSave saver route
                                    (e.recorded frames).writePending route :
      Act (Saving (Recorded μ σ) × Named μ) Unit).perform (s, m) = (r, s', m')) :
    m'.name = m.name ∧ Adds (·.isEarly = false) s.ownHistory s'.ownHistory := by
  obtain ⟨r₁, s₁, m₁, hafter, hrest⟩ := finish_cases hrun
  have hadds := @afterModel_adds _ _ e frames route _ hsaver (s, m)
  obtain ⟨-, hname, -⟩ :=
    (@leadsCode_addsRuns _ _ e frames _ hsaver route).afterModel (s, m) trivial
  rw [hafter] at hadds hname
  have hname₁ : m₁.name = m.name := hname.symm
  rcases hrest with ⟨rfl, rfl⟩ | ⟨-, hwrite⟩
  · exact ⟨hname₁, hadds⟩
  · obtain ⟨hname', hhistory⟩ := write_own (hname₁ ▸ hm) hwrite
    exact ⟨hname'.trans hname₁,
      IsTrans.trans _ _ _ hadds ⟨_, hhistory, by simp [Happening.isEarly]⟩⟩

theorem forEach_finishEntry_late :
    (Act.forEach ((e.recorded frames).finishEntry saver route)).Keeps (Late t) := by
  rintro ⟨s, batch⟩ h
  refine Act.each_keeps (fun s batch => Late t (s, batch)) (fun s pre p rest h => ?_) h
  rw [perform_finishEntry]
  split
  · exact h
  · rcases hm : (do (e.recorded frames).afterSave saver route
                    (e.recorded frames).writePending route :
      Act (Saving (Recorded μ σ) × Named μ) Unit).perform (s, p.model) with ⟨r, s', m'⟩
    obtain ⟨hname, hadds⟩ := finish_late hsaver (h.isOwn hown p (by simp)) hm
    exact h.step hname hadds

/-- What comes after the preparation of a batch changes nothing about it, wherever it breaks off. -/
theorem runPhases_late (hprepare : ((e.recorded frames).prepare saver route (depth + 1)).perform t₀ =
      (.ok (), t)) :
    Late t (((e.recorded frames).runPhases saver route depth).perform t₀).2 := by
  have hmove : ∀ next, (moveTo route next : Act (BatchWorld (Named μ) (Recorded μ σ)) Unit).Keeps
      (Late t) := moveTo_keeps route fun _ _ _ h => ⟨h.history, h.names⟩
  -- Any of these may be where it breaks off, so each keeps to it whatever it returns.
  have hafter := (hmove .save).bind fun _ =>
    (@forEach_writeEntry_late _ _ _ e frames route _ hown).bind fun _ =>
      (hmove .afterSave).bind fun _ => @forEach_finishEntry_late _ _ _ e frames route _ _ hsaver hown
  rw [runPhases, Act.perform_bind, hprepare]
  exact hafter t ⟨Std.Refl.refl _, rfl⟩

end Late

/-! ### Whole saves -/

/-- How a save goes on with a batch that is ready in `t`. Its batch may start again `bound` times, and
    saves nest `depth` deep in it; where the two are the same, it is a save of the engine. -/
structure GoesOn (e : SaveEngine μ σ) (frames : Nat → Frame) (depth bound route : Nat)
    (s : Saving σ) (models : List μ) (t₀ t : BatchWorld (Named μ) (Recorded μ σ)) : Prop where
  /-- The preparation ends there. -/
  prepares : ((e.recorded frames).prepare ((e.recorded frames).save depth) route (bound + 1)).perform
    t₀ = (.ok (), t)
  /-- The batch has the same models to the end, and none of them is prepared again. -/
  late : Late t (((e.recorded frames).runPhases ((e.recorded frames).save depth) route bound).perform
    t₀).2
  /-- The history of the save is that of its phases. -/
  history : (((e.recorded frames).saveWith ((e.recorded frames).save depth) bound route).perform
      (s.recorded, Named.given models)).2.1.ownHistory =
    (((e.recorded frames).runPhases ((e.recorded frames).save depth) route bound).perform
      t₀).2.1.ownHistory
  /-- The models that the save returns are the given ones of that batch. -/
  returns : ((e.saveWith (e.save depth) bound route).perform (s, models)).2.2 =
    (givenModels models.length (closeBatch
      ((e.saveWith (e.save depth) bound route).perform (s, models)).1
      (((e.recorded frames).runPhases ((e.recorded frames).save depth) route bound).perform
        t₀).2.2)).map (·.model)

/-- A save goes on from the start of its batch through the phases of the batch. -/
theorem StartsBatch.goesOn (hframes : e.HasFrames frames) {s : Saving σ} {models : List μ}
    (hmodels : models ≠ []) (hphase : s.phases route ≠ .afterSave)
    (h : e.StartsBatch frames depth route s models t₀) {bound : Nat}
    (hprepare : ((e.recorded frames).prepare ((e.recorded frames).save depth) route
      (bound + 1)).perform t₀ = (.ok (), t))
    (hown : ∀ p ∈ t.2, p.model.name.IsOwn) :
    e.GoesOn frames depth bound route s models t₀ t := by
  have hphases := save_keeps_phases (e := e.recorded frames) recorded_hasFrames depth
  obtain ⟨hvalid, hopens⟩ := h
  rename_i s₁ models₁
  have hlength : models₁.length = models.length := by
    have hlength := Act.length_each ((e.recorded frames).validateModel ((e.recorded frames).save depth))
      (Named.given models) (s.recorded.setPhase route .validate)
    rw [Act.forEach, Act.perform_make] at hvalid
    rwa [hvalid, Named.given, List.length_mapIdx] at hlength
  rcases hrun : ((e.recorded frames).runBatch (frames route) ((e.recorded frames).save depth) route
    bound).perform (s₁, openBatch models₁) with ⟨r, s₂, batch⟩
  have hsaved : ((e.recorded frames).saveWith ((e.recorded frames).save depth) bound route).perform
      (s.recorded, Named.given models) =
        (r, s₂.setPhase route (s.phases route),
          givenModels models.length (closeBatch r batch)) := by
    have hgiven : Named.given models ≠ [] := by simpa [Named.given] using hmodels
    rw [perform_saveWith (s := s.recorded) hphase hgiven, Act.perform_bind, hvalid, ← hlength]
    simp only [perform_commitBatch recorded_hasFrames hrun]
    rfl
  -- Whatever the frame does besides, it leaves the history and the batch as the phases leave them.
  have hcontrol : ((e.recorded frames).batchConnection route).Moves Eq
      fun t => (t.1.ownHistory, t.2) := ⟨fun _ => rfl, fun _ => rfl, fun _ => rfl⟩
  obtain ⟨-, rounds, hend⟩ := hopens.perform_enclose
    ((e.recorded frames).runPhases ((e.recorded frames).save depth) route bound) hcontrol
  rw [(times_runPhases hphases rounds t₀).1, ← runBatch, hrun] at hend
  obtain ⟨hhistory, hbatch⟩ := Prod.mk.inj hend
  refine ⟨hprepare, runPhases_late (save_keeps_ownHistory e frames depth) hown hprepare, ?_, ?_⟩
  · rw [hsaved]
    exact hhistory
  · rw [perform_saveWith_eq hframes, hsaved]
    exact congrArg (fun b => (givenModels models.length (closeBatch r b)).map (·.model)) hbatch

/-- If the trees of a save are finite and nothing fails before its first write, its preparation goes
    through one more pass than there are models that asked for more, and ends with each model of the
    trees validated once, through the code before its write once, and once in the batch. If the save
    may start again that often or more, it goes on from there. -/
theorem save_in_passes (hframes : e.HasFrames frames) {s : Saving σ} {models : List μ}
    (hmodels : models ≠ []) (hphase : s.phases route ≠ .afterSave)
    (hstart : e.StartsBatch frames depth route s models t₀)
    (hunhindered : (e.recorded frames).Unhindered ((e.recorded frames).save depth) route t₀)
    (hfinite : ((e.recorded frames).forest ((e.recorded frames).save depth) route models.length
      t₀).Finite) :
    ∃ r t, (e.recorded frames).Passed ((e.recorded frames).save depth) route t₀ (1 + r) false t ∧
      r = t.1.ownHistory.countP (·.asksMore) ∧
      ReadyForest e.behaviour.hooks ((e.recorded frames).forest ((e.recorded frames).save depth) route
        models.length t₀) t ∧
      ∀ bound, r ≤ bound → e.GoesOn frames depth bound route s models t₀ t := by
  have hsaver := save_keeps_ownHistory e frames depth
  have hphases := save_keeps_phases (e := e.recorded frames) recorded_hasFrames depth
  obtain ⟨hready, hunderway⟩ := hstart.underway
  obtain ⟨r, t, hpassed, hasked, hforest⟩ :=
    hunhindered.ends hsaver hunderway hphases hready hfinite
  have hown : ∀ p ∈ t.2, p.model.name.IsOwn :=
    (hpassed.underway hsaver ModelName.isOwn_given hunderway).toTraced.isOwn ModelName.isOwn_given
      fun _ => name_of_mem_ownEntries
  refine ⟨r, t, Nat.add_comm r 1 ▸ hpassed, hasked, hforest, fun bound hle => ?_⟩
  exact hstart.goesOn hframes hmodels hphase
    (hpassed.perform_prepare_last (Nat.succ_le_succ hle)) hown

end SaveEngine

namespace Rehearsal.Stage

/-- Saves in which a kit asks for its order and for what is void, and an order for its part. -/
def kitEngine : SaveEngine Record Stage where
  routes _ := {
    writer := (TableStore.mk (connection default 0)
      { table := "item", schema := itemSchema }).modelWriter }
  behaviour := {
    hooks := fun _ =>
      [{ before := .look fun m _ =>
          .done (match m.values.getOrNull "name" with
            | .string "kit" => .add [item "order", item "void"]
            | .string "order" => .add [item "part"]
            | .string "void" => .skip
            | _ => .proceed) }] }

theorem kitEngine_hasFrames : kitEngine.HasFrames fun _ => .connected 1 :=
  fun _ => TransactionScheme.standard_frames

/-- Saves of kits, with their history. -/
abbrev recordedKits : SaveEngine (Named Record) (Recorded Record Stage) :=
  kitEngine.recorded fun _ => .connected 1

/-- A world of a batch of kits. -/
abbrev KitWorld := BatchWorld (Named Record) (Recorded Record Stage)

/-- A kit that has been validated. -/
def validatedKit : Except StoreError Unit × Saving (Recorded Record Stage) × List (Named Record) :=
  (Act.forEach (recordedKits.validateModel (recordedKits.save 2))).perform
    (emptyStage.recorded.setPhase 0 .validate, Named.given [item "kit"])

/-- Its transaction has been opened. -/
def openedKit : Except StoreError Unit × KitWorld :=
  (recordedKits.batchConnection 0).begin.perform
    (validatedKit.2.1, SaveEngine.openBatch validatedKit.2.2)

/-- One pass of its preparation. -/
def passKit (t : KitWorld) : Except StoreError Bool × KitWorld :=
  (recordedKits.pass (recordedKits.save 2) 0).perform t

/-- So many passes of its preparation. -/
def kitAfter : Nat → KitWorld
  | 0 => openedKit.2
  | n + 1 => (passKit (kitAfter n)).2

theorem openedKit_startsBatch :
    kitEngine.StartsBatch (fun _ => .connected 1) 2 0 emptyStage [item "kit"] (kitAfter 0) := by
  have hvalid : validatedKit.1 = .ok () := by decide +kernel
  have hopened : openedKit.1 = .ok () := by decide +kernel
  have hclosed : (recordedKits.batchConnection 0).inTransaction
      (validatedKit.2.1, SaveEngine.openBatch validatedKit.2.2) = false := by
    decide +kernel
  exact .intro (Prod.ext hvalid rfl) (.begun hclosed (Prod.ext hopened rfl))

/-- The passes that a kit goes through. -/
abbrev PassedKit : Nat → Bool → KitWorld → Prop :=
  recordedKits.Passed (recordedKits.save 2) 0 (kitAfter 0)

theorem PassedKit.next {n : Nat} {more : Bool} (h : PassedKit n true (kitAfter n))
    (hasks : (passKit (kitAfter n)).1 = .ok more) : PassedKit (n + 1) more (kitAfter (n + 1)) :=
  SaveEngine.Passed.pass h (Prod.ext hasks rfl)

/-- Two passes ask for more models, and a third one does not. -/
theorem answers_passKit : (passKit (kitAfter 0)).1 = .ok true ∧
    (passKit (kitAfter 1)).1 = .ok true ∧ (passKit (kitAfter 2)).1 = .ok false := by
  decide +kernel

theorem passedKit_first : PassedKit 1 true (kitAfter 1) := PassedKit.next .start answers_passKit.1

theorem passedKit_second : PassedKit 2 true (kitAfter 2) :=
  PassedKit.next passedKit_first answers_passKit.2.1

theorem passedKit_last : PassedKit 3 false (kitAfter 3) :=
  PassedKit.next passedKit_second answers_passKit.2.2

theorem kit_unhindered : recordedKits.Unhindered (recordedKits.save 2) 0 (kitAfter 0) := by
  have hbefore : ∀ n t, PassedKit n true t → ∃ k < 3, t = kitAfter k := by
    intro n t h
    match n, h.le_last passedKit_last with
    | 0, _ => exact ⟨0, by decide, (h.unique .start).2⟩
    | 1, _ => exact ⟨1, by decide, (h.unique passedKit_first).2⟩
    | 2, _ => exact ⟨2, by decide, (h.unique passedKit_second).2⟩
    | 3, _ => cases (h.unique passedKit_last).1
  have hvalid : ∀ k < 3, (Act.each (recordedKits.validateEntry (recordedKits.save 2)) (kitAfter k).2
      ((kitAfter k).1.setPhase 0 .validate)).1 = .ok () := by
    decide +kernel
  have hanswered : ∀ k < 3, (recordedKits.beforePhase (recordedKits.save 2)
      (recordedKits.validated (recordedKits.save 2) 0 (kitAfter k)).2
      (recordedKits.validated (recordedKits.save 2) 0 (kitAfter k)).1).1.isOk := by
    decide +kernel
  constructor <;> intro n t h <;> obtain ⟨k, hk, heq⟩ := hbefore n t h <;> rw [heq]
  · exact hvalid k hk
  · exact hanswered k hk

theorem kit_forest_finite :
    (recordedKits.forest (recordedKits.save 2) 0 1 (kitAfter 0)).Finite :=
  passedKit_last.forest_finite (SaveEngine.save_keeps_ownHistory kitEngine (fun _ => .connected 1) 2)
    openedKit_startsBatch.underway.2

/-- A kit asks for its order, and that for its part: there are three passes, and then the batch has
    all of them and what is void, and the save goes on with it. -/
theorem kit_in_passes :
    kitEngine.StartsBatch (fun _ => .connected 1) 2 0 emptyStage [item "kit"] (kitAfter 0) ∧
    recordedKits.Unhindered (recordedKits.save 2) 0 (kitAfter 0) ∧
    (recordedKits.forest (recordedKits.save 2) 0 1 (kitAfter 0)).Finite ∧
    ∃ t, PassedKit 3 false t ∧ t.1.ownHistory.countP (·.asksMore) = 2 ∧
      SaveEngine.modelNames t.2 =
        [.added (.added (.given 0) 0) 0, .added (.given 0) 0, .added (.given 0) 1, .given 0] ∧
      ∀ bound, 2 ≤ bound →
        kitEngine.GoesOn (fun _ => .connected 1) 2 bound 0 emptyStage [item "kit"] (kitAfter 0) t := by
  refine ⟨openedKit_startsBatch, kit_unhindered, kit_forest_finite, ?_⟩
  obtain ⟨r, t, hpassed, hasked, -, hgoesOn⟩ :=
    @SaveEngine.save_in_passes _ _ _ kitEngine (fun _ => .connected 1) 0 2 _ kitEngine_hasFrames
      emptyStage _ (List.cons_ne_nil _ _) nofun openedKit_startsBatch kit_unhindered
      kit_forest_finite
  obtain rfl : r = 2 := by
    have hle := hpassed.le_last passedKit_last
    have hge := passedKit_last.le_last hpassed
    omega
  have hend : t = kitAfter 3 := (hpassed.unique passedKit_last).2
  refine ⟨t, hpassed, hasked.symm, ?_, hgoesOn⟩
  rw [hend]
  decide +kernel

end Rehearsal.Stage

end RecordStore
