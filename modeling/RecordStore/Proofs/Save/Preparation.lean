import RecordStore.Proofs.Save.Entries

/-!
# The preparation of a batch

Before a batch is written, its models go through validation and the code before the write, and
models that this code asks for come in front. At every moment, the history tells of each model how
far it has come, and of no others (`Prepared`), and how the batch has grown (`Traced`). So when a
batch is ready to be written, every model has been validated once, and has been through the code
before the write once.

A batch is prepared in turns of its models. What every turn keeps is kept by the whole preparation,
however often it starts again (`SaveEngine.KeptInTurns.prepare`), and that goes for `Traced`.
-/

namespace RecordStore

variable {μ σ : Type}

/-- Whether code at this place may have its model skipped, or ask for others. -/
def Place.isBefore : Place → Bool
  | beforeSave | hookBefore _ => true
  | _ => false

namespace Happening

/-- Whether it belongs before the first write of a batch. -/
def isEarly : Happening μ → Bool
  | ran place _ _ _ => place = .beforeValidate || place.isBefore
  | wrote _ _ => false

/-- Whether it has the model of this name skipped. -/
def skips (name : ModelName) : Happening μ → Bool
  | ran place name' .skip _ => place.isBefore && name' = name
  | _ => false

/-- The names of a batch after it: models that code before the write asks for come in front. -/
def grow (names : List ModelName) : Happening μ → List ModelName
  | ran place name (.add models) _ =>
    if place.isBefore then (List.range models.length).map (.added name) ++ names else names
  | _ => names

end Happening

namespace Outcome

def isSkip : Outcome μ → Bool
  | skip => true
  | _ => false

/-- The models that are asked for. -/
def asked : Outcome μ → List μ
  | add models => models
  | _ => []

/-- The names of a batch after an outcome of code before the write. -/
def grow (name : ModelName) (names : List ModelName) : Outcome μ → List ModelName
  | add models => (List.range models.length).map (.added name) ++ names
  | _ => names

end Outcome

namespace BatchEntry

/-- An entry of a batch that had no turn yet. -/
def fresh (m : μ) : BatchEntry μ := ⟨m, false, false, false, none⟩

/-- An entry after the code before its write, which left its model so, with this outcome. -/
def turned (p : BatchEntry μ) (m : μ) (outcome : Outcome μ) : BatchEntry μ :=
  { p with model := m, hooksDone := true, isSkipped := p.isSkipped || outcome.isSkip }

end BatchEntry

/-! ### Names -/

theorem map_name_added (asker : ModelName) (models : List μ) :
    ((Named.added asker models).map BatchEntry.fresh).map (·.model.name) =
      (List.range models.length).map (.added asker) :=
  List.ext_getElem (by simp [Named.added]) (by simp [Named.added, BatchEntry.fresh])

/-- The names in a batch are all different, also when more models come in front. -/
structure Distinct (batch : List (BatchEntry (Named μ))) : Prop where
  nodup : (batch.map (·.model.name)).Nodup
  /-- Models were only added by code that has run. -/
  askers : ∀ p ∈ batch, ∀ asker i, p.model.name = .added asker i →
    ∃ q ∈ batch, q.model.name = asker ∧ q.hooksDone = true

namespace Distinct

variable {pre rest batch : List (BatchEntry (Named μ))} {p p' : BatchEntry (Named μ)}

theorem ne_name (h : Distinct (pre ++ p :: rest)) {q : BatchEntry (Named μ)}
    (hq : q ∈ pre ∨ q ∈ rest) : q.model.name ≠ p.model.name := by
  intro heq
  have hnodup := h.nodup
  rw [List.map_append, List.map_cons, List.nodup_middle, List.nodup_cons, ← heq,
    ← List.map_append] at hnodup
  exact hnodup.1 (List.mem_map.2 ⟨q, List.mem_append.2 hq, rfl⟩)

/-- The names of given models. -/
theorem of_given {count : Nat} (hnames : batch.map (·.model.name) = (List.range count).map .given) :
    Distinct batch := by
  refine ⟨?_, fun p hp asker i hadded => ?_⟩
  · rw [hnames]
    exact List.nodup_range.map fun i j hij => ModelName.given.inj hij
  · have hname : p.model.name ∈ (List.range count).map ModelName.given :=
      hnames ▸ List.mem_map_of_mem hp
    obtain ⟨j, -, hj⟩ := List.mem_map.1 hname
    rw [hadded] at hj
    cases hj

/-- One entry goes on. -/
theorem step (h : Distinct (pre ++ p :: rest)) (hname : p'.model.name = p.model.name)
    (hdone : p.hooksDone = true → p'.hooksDone = true) : Distinct (pre ++ p' :: rest) := by
  have hnames : (pre ++ p' :: rest).map (·.model.name) =
      (pre ++ p :: rest).map (·.model.name) := by simp [hname]
  refine ⟨hnames ▸ h.nodup, ?_⟩
  intro q hq asker i hadded
  have hold : ∃ q' ∈ pre ++ p :: rest, q'.model.name = .added asker i := by
    rcases List.mem_append.1 hq with hq | hq
    · exact ⟨q, by simp [hq], hadded⟩
    · rcases List.mem_cons.1 hq with rfl | hq
      · exact ⟨p, by simp, hname ▸ hadded⟩
      · exact ⟨q, by simp [hq], hadded⟩
  obtain ⟨q', hq', hadded'⟩ := hold
  obtain ⟨w, hw, hasker, hwdone⟩ := h.askers q' hq' asker i hadded'
  rcases List.mem_append.1 hw with hw | hw
  · exact ⟨w, by simp [hw], hasker, hwdone⟩
  · rcases List.mem_cons.1 hw with rfl | hw
    · exact ⟨p', by simp, hname.trans hasker, hdone hwdone⟩
    · exact ⟨w, by simp [hw], hasker, hwdone⟩

/-- Nothing was added yet by a model whose code before the write did not run. -/
theorem added_notMem (h : Distinct batch) (hp : p ∈ batch) (hdone : p.hooksDone = false) (i : Nat) :
    .added p.model.name i ∉ batch.map (·.model.name) := by
  intro hmem
  obtain ⟨q, hq, hname⟩ := List.mem_map.1 hmem
  obtain ⟨w, hw, hasker, hwdone⟩ := h.askers q hq _ i hname
  have heq : w = p := List.inj_on_of_nodup_map h.nodup hw hp hasker
  rw [heq, hdone] at hwdone
  cases hwdone

/-- An entry's code has run, and asked for more models, which come in front. -/
theorem add (h : Distinct (pre ++ p :: rest)) (hnot : p.hooksDone = false)
    (hname : p'.model.name = p.model.name) (hdone : p'.hooksDone = true) (models : List μ) :
    Distinct ((Named.added p.model.name models).map .fresh ++ (pre ++ p' :: rest)) := by
  have hstep : Distinct (pre ++ p' :: rest) := h.step hname fun _ => hdone
  have hnames : (pre ++ p' :: rest).map (·.model.name) =
      (pre ++ p :: rest).map (·.model.name) := by simp [hname]
  have hnew : ∀ i, .added p.model.name i ∉ (pre ++ p' :: rest).map (·.model.name) :=
    fun i => hnames ▸ h.added_notMem (by simp) hnot i
  constructor
  · rw [List.map_append, List.nodup_append]
    refine ⟨?_, hstep.nodup, ?_⟩
    · rw [map_name_added]
      exact List.nodup_range.map fun i j hij => (ModelName.added.inj hij).2
    · rw [map_name_added]
      intro a ha b hb heq
      obtain ⟨i, -, rfl⟩ := List.mem_map.1 ha
      rw [← heq] at hb
      exact hnew i hb
  · intro q hq asker i hadded
    rcases List.mem_append.1 hq with hq | hq
    · obtain ⟨m, hm, rfl⟩ := List.mem_map.1 hq
      obtain ⟨j, hj, rfl⟩ := List.mem_mapIdx.1 hm
      cases hadded
      exact ⟨p', by simp, hname, hdone⟩
    · obtain ⟨w, hw, hasker, hwdone⟩ := hstep.askers q hq asker i hadded
      exact ⟨w, by simp [hw], hasker, hwdone⟩

end Distinct

/-! ### What a history tells of a batch -/

section Prepared

variable [Model μ] (hooks : μ → List (Hook μ σ))

/-- The entries about a model of the batch say how far it has come. -/
structure Told (p : BatchEntry (Named μ)) (es : List (Happening μ)) : Prop where
  intro ::
  split : ∃ v b, es = v ++ b ∧
    (p.isValidated = true ∧ Validates p.model.name v ∨ p.isValidated = false ∧ v = []) ∧
    (p.hooksDone = true ∧ p.isValidated = true ∧
        (∃ o, Before hooks p.model.name b o ∧ p.isSkipped = o.isSkip) ∨
      p.hooksDone = false ∧ b = [] ∧ p.isSkipped = false)

/-- A history tells of the models of a batch, whose names are all different, and of no others. -/
structure Prepared (es : List (Happening μ)) (batch : List (BatchEntry (Named μ))) : Prop
    extends Distinct batch where
  told : ∀ p ∈ batch, Told hooks p (es.filter (·.name = p.model.name))
  early : ∀ x ∈ es, x.isEarly = true ∧ x.name ∈ batch.map (·.model.name)

/-- A history tells of a batch that has grown out of one with these names. -/
structure Traced (start : List ModelName) (es : List (Happening μ))
    (batch : List (BatchEntry (Named μ))) : Prop extends Prepared hooks es batch where
  names : batch.map (·.model.name) = es.foldl Happening.grow start

variable {hooks} {start : List ModelName} {es seg : List (Happening μ)}
  {pre rest batch : List (BatchEntry (Named μ))} {p p' : BatchEntry (Named μ)}

/-- One entry goes on. -/
theorem Prepared.step (h : Prepared hooks es (pre ++ p :: rest))
    (hname : p'.model.name = p.model.name) (hdone : p.hooksDone = true → p'.hooksDone = true)
    (hseg : ∀ x ∈ seg, x.isEarly = true ∧ x.name = p.model.name)
    (htold : Told hooks p' (es.filter (·.name = p.model.name) ++ seg)) :
    Prepared hooks (es ++ seg) (pre ++ p' :: rest) := by
  have hnames : (pre ++ p' :: rest).map (·.model.name) =
      (pre ++ p :: rest).map (·.model.name) := by simp [hname]
  have hsame : seg.filter (·.name = p.model.name) = seg :=
    List.filter_eq_self.2 fun x hx => by simp [(hseg x hx).2]
  have hother : ∀ q, q ∈ pre ∨ q ∈ rest →
      Told hooks q ((es ++ seg).filter (·.name = q.model.name)) := by
    intro q hq
    have hnone : seg.filter (·.name = q.model.name) = [] := List.filter_eq_nil_iff.2 fun x hx => by
      simpa [(hseg x hx).2] using (h.toDistinct.ne_name hq).symm
    rw [List.filter_append, hnone, List.append_nil]
    exact h.told q (by rcases hq with hq | hq <;> simp [hq])
  refine ⟨h.toDistinct.step hname hdone, ?_, ?_⟩
  · intro q hq
    rcases List.mem_append.1 hq with hq | hq
    · exact hother q (.inl hq)
    · rcases List.mem_cons.1 hq with rfl | hq
      · rw [List.filter_append, hname, hsame]
        exact htold
      · exact hother q (.inr hq)
  · intro x hx
    rw [hnames]
    rcases List.mem_append.1 hx with hx | hx
    · exact h.early x hx
    · exact ⟨(hseg x hx).1, by simp [(hseg x hx).2]⟩

/-- Nothing is told of models that come in front. -/
theorem Prepared.add (h : Prepared hooks es batch) {models : List (Named μ)}
    (hdistinct : Distinct (models.map .fresh ++ batch)) :
    Prepared hooks es (models.map .fresh ++ batch) := by
  refine ⟨hdistinct, ?_, fun x hx => ⟨(h.early x hx).1, by simp [(h.early x hx).2]⟩⟩
  intro q hq
  rcases List.mem_append.1 hq with hq | hq
  · have hnodup := hdistinct.nodup
    rw [List.map_append, List.nodup_append] at hnodup
    have hnone : es.filter (·.name = q.model.name) = [] := by
      refine List.filter_eq_nil_iff.2 fun x hx => ?_
      rw [decide_eq_true_eq]
      exact fun heq => hnodup.2.2 _ (List.mem_map_of_mem hq) _ (h.early x hx).2 heq.symm
    obtain ⟨m, hm, rfl⟩ := List.mem_map.1 hq
    rw [hnone]
    exact ⟨[], [], rfl, .inr ⟨rfl, rfl⟩, .inr ⟨rfl, rfl, rfl⟩⟩
  · exact h.told q hq

/-! ### The code before the write -/

omit [Model μ] in
theorem HooksBefore.early {name : ModelName} {i n : Nat} {o : Outcome μ}
    (h : HooksBefore name i n es o) : ∀ x ∈ es, x.isEarly = true ∧ x.name = name := by
  induction h with
  | done => simp
  | proceeds _ ih => exact List.forall_mem_cons.2 ⟨⟨rfl, rfl⟩, ih⟩
  | stops => simp [Happening.isEarly, Happening.name, Place.isBefore]

omit [Model μ] in
theorem Before.early {name : ModelName} {o : Outcome μ} (h : Before hooks name es o) :
    ∀ x ∈ es, x.isEarly = true ∧ x.name = name := by
  cases h with
  | proceeds hbefore => exact List.forall_mem_cons.2 ⟨⟨rfl, rfl⟩, hbefore.early⟩
  | stops => simp [Happening.isEarly, Happening.name, Place.isBefore]

theorem Validates.early {name : ModelName} (h : Validates name es) :
    ∀ x ∈ es, x.isEarly = true ∧ x.name = name := by
  obtain ⟨o, m, rfl, -⟩ := h
  simp [Happening.isEarly, Happening.name]

theorem Validates.foldl_grow {name : ModelName} (h : Validates name es) (names : List ModelName) :
    es.foldl Happening.grow names = names := by
  obtain ⟨o, m, rfl, -⟩ := h
  cases o <;> rfl

omit [Model μ] in
theorem HooksBefore.foldl_grow {name : ModelName} {i n : Nat} {o : Outcome μ}
    (h : HooksBefore name i n es o) (names : List ModelName) :
    es.foldl Happening.grow names = o.grow name names := by
  induction h with
  | done => rfl
  | proceeds _ ih => exact ih
  | @stops _ _ _ o => cases o <;> rfl

omit [Model μ] in
theorem Before.foldl_grow {name : ModelName} {o : Outcome μ} (h : Before hooks name es o)
    (names : List ModelName) : es.foldl Happening.grow names = o.grow name names := by
  cases h with
  | proceeds hbefore => exact hbefore.foldl_grow names
  | @stops _ o => cases o <;> rfl

omit [Model μ] in
theorem HooksBefore.any_skips {name : ModelName} {i n : Nat} {o : Outcome μ}
    (h : HooksBefore name i n es o) : es.any (·.skips name) = o.isSkip := by
  induction h with
  | done => rfl
  | proceeds _ ih => simpa [Happening.skips] using ih
  | @stops _ _ _ o => cases o <;> simp [Happening.skips, Place.isBefore, Outcome.isSkip]

omit [Model μ] in
theorem Before.any_skips {name : ModelName} {o : Outcome μ} (h : Before hooks name es o) :
    es.any (·.skips name) = o.isSkip := by
  cases h with
  | proceeds hbefore => simpa [Happening.skips] using hbefore.any_skips
  | @stops _ o => cases o <;> simp [Happening.skips, Place.isBefore, Outcome.isSkip]

theorem Validates.any_skips {name : ModelName} (h : Validates name es) :
    es.any (·.skips name) = false := by
  obtain ⟨o, m, rfl, -⟩ := h
  cases o <;> rfl

/-- A history says whether a model is skipped, once the code before its write has run. -/
theorem Prepared.any_skips (h : Prepared hooks es batch) (hp : p ∈ batch)
    (hdone : p.hooksDone = true) : es.any (·.skips p.model.name) = p.isSkipped := by
  obtain ⟨⟨v, b, heq, hvalid, hbefore⟩⟩ := h.told p hp
  have hfilter : es.any (·.skips p.model.name) =
      (es.filter (·.name = p.model.name)).any (·.skips p.model.name) := by
    rw [List.any_filter]
    refine List.any_congr rfl fun x => ?_
    cases x with
    | wrote => simp [Happening.skips]
    | ran place name o m => cases o <;> simp +contextual [Happening.skips, Happening.name, and_comm]
  have hv : v.any (·.skips p.model.name) = false := by
    rcases hvalid with ⟨-, hvalid⟩ | ⟨-, rfl⟩
    · exact hvalid.any_skips
    · rfl
  rcases hbefore with ⟨-, -, o, hbefore, hskip⟩ | ⟨hnot, -⟩
  · rw [hfilter, heq, List.any_append, hv, Bool.false_or, hbefore.any_skips, hskip]
  · rw [hdone] at hnot
    cases hnot

/-- An entry has been validated. -/
theorem Traced.validated (h : Traced hooks start es (pre ++ p :: rest)) (hnot : p.isValidated = false)
    {m' : Named μ} (hname : m'.name = p.model.name) (hseg : Validates p.model.name seg) :
    Traced hooks start (es ++ seg)
      (pre ++ { p with model := m', isValidated := true } :: rest) := by
  obtain ⟨⟨v, b, heq, hv, hb⟩⟩ := h.told p (by simp)
  rw [hnot] at hv hb
  obtain ⟨hdone, rfl, hskip⟩ : p.hooksDone = false ∧ b = [] ∧ p.isSkipped = false := by
    simpa using hb
  obtain rfl : v = [] := by simpa using hv
  constructor
  · refine h.toPrepared.step hname id (fun x hx => hseg.early x hx) ?_
    rw [heq]
    exact ⟨seg, [], by simp, .inl ⟨rfl, hname ▸ hseg⟩, .inr ⟨hdone, rfl, hskip⟩⟩
  · rw [List.foldl_append, ← h.names, hseg.foldl_grow]
    simp [hname]

/-- The code before the write has run on an entry; if it asked for more models, these come in front. -/
theorem Traced.turned (h : Traced hooks start es (pre ++ p :: rest)) (hnot : p.hooksDone = false)
    (hvalidated : p.isValidated = true) {m' : Named μ} (hname : m'.name = p.model.name)
    {o : Outcome μ} (hseg : Before hooks p.model.name seg o) :
    Traced hooks start (es ++ seg) ((o.named p.model.name).asked.map .fresh ++
      (pre ++ p.turned m' (o.named p.model.name) :: rest)) := by
  obtain ⟨⟨v, b, heq, hv, hb⟩⟩ := h.told p (by simp)
  rw [hnot] at hb
  obtain ⟨rfl, hskip⟩ : b = [] ∧ p.isSkipped = false := by simpa using hb
  have hvalid : Validates p.model.name v := by simpa [hvalidated] using hv
  have hflag : (o.named p.model.name).isSkip = o.isSkip := by cases o <;> rfl
  have hprepared : Prepared hooks (es ++ seg)
      (pre ++ p.turned m' (o.named p.model.name) :: rest) := by
    refine h.toPrepared.step hname (fun _ => rfl) (fun x hx => hseg.early x hx) ?_
    rw [heq, List.append_nil]
    refine ⟨v, seg, rfl, .inl ⟨hvalidated, hname ▸ hvalid⟩,
      .inl ⟨rfl, hvalidated, o, hname ▸ hseg, ?_⟩⟩
    rw [BatchEntry.turned, hskip, hflag, Bool.false_or]
  have hnames : (pre ++ p.turned m' (o.named p.model.name) :: rest).map (·.model.name) =
      (pre ++ p :: rest).map (·.model.name) := by simp [BatchEntry.turned, hname]
  have hgrow : o.grow p.model.name ((pre ++ p :: rest).map (·.model.name)) =
      (es ++ seg).foldl Happening.grow start := by
    rw [List.foldl_append, ← h.names, hseg.foldl_grow]
  cases o with
  | proceed | skip => exact ⟨hprepared, hnames.trans hgrow⟩
  | add models =>
    refine ⟨hprepared.add (h.toDistinct.add hnot hname rfl models), ?_⟩
    rw [← hgrow, List.map_append, hnames]
    exact congrArg (· ++ _) (map_name_added p.model.name models)

end Prepared

/-! ### Turns -/

namespace SaveEngine

section Turns

variable {α τ : Type} [Model α] {e : SaveEngine α τ} {saver : Saver α τ}

/-- What holds of a world and a batch in it, and is kept by every turn of an entry that succeeds. -/
structure KeptInTurns (e : SaveEngine α τ) (saver : Saver α τ)
    (Inv : τ → List (BatchEntry α) → Prop) : Prop where
  validated : ∀ (s : Saving τ) pre p rest s' m', Inv s.world (pre ++ p :: rest) →
    p.isValidated = false → (e.validateModel saver).perform (s, p.model) = (.ok (), s', m') →
      Inv s'.world (pre ++ { p with model := m', isValidated := true } :: rest)
  turned : ∀ (s : Saving τ) pre p rest o s' m', Inv s.world (pre ++ p :: rest) →
    p.isValidated = true → p.hooksDone = false →
    (e.beforeSave saver).perform (s, p.model) = (.ok o, s', m') →
      Inv s'.world (o.asked.map .fresh ++ (pre ++ p.turned m' o :: rest))

omit [Model α] in
/-- The move that may come first leaves the world alone. -/
theorem exists_of_moveTo_eq_ok {β : Type} {p : Prop} [Decidable p] {route : Nat} {phase : SavePhase}
    {f : Act (BatchWorld α τ) β} {r : β} {s : Saving τ} {batch : List (BatchEntry α)}
    {t' : BatchWorld α τ}
    (hrun : (if p then (do moveTo route phase; f) else f).perform (s, batch) = (.ok r, t')) :
    ∃ s₁ : Saving τ, s₁.world = s.world ∧ f.perform (s₁, batch) = (.ok r, t') := by
  split at hrun
  · obtain ⟨_, t, hmove, hrun⟩ := Act.perform_bind_eq_ok hrun
    cases perform_moveTo_eq_ok hmove
    exact ⟨s.setPhase route phase, rfl, hrun⟩
  · exact ⟨s, rfl, hrun⟩

/-- From validation on: all entries are valid, and the code before the write succeeds and leaves
    what follows to its answer. -/
theorem validations_eq_ok {β : Type} {route : Nat} {next : Option (List α) → Act (BatchWorld α τ) β}
    {r : β} {s : Saving τ} {batch : List (BatchEntry α)} {t' : BatchWorld α τ}
    (hrun : (do
      Act.forEach (e.validateEntry saver)
      moveTo route .beforeSave
      let added ← Act.make fun (s, batch) => e.beforePhase saver batch s
      next added : Act (BatchWorld α τ) β).perform (s, batch) = (.ok r, t')) :
    ∃ s₁ s₂ batch₁ batch₂ added, Act.each (e.validateEntry saver) batch s = (.ok (), s₁, batch₁) ∧
      e.beforePhase saver batch₁ (s₁.setPhase route .beforeSave) = (.ok added, s₂, batch₂) ∧
      (next added).perform (s₂, batch₂) = (.ok r, t') := by
  obtain ⟨_, ⟨s₁, batch₁⟩, hvalid, hrun⟩ := Act.perform_bind_eq_ok hrun
  obtain ⟨_, t, hmove, hrun⟩ := Act.perform_bind_eq_ok hrun
  cases perform_moveTo_eq_ok hmove
  obtain ⟨added, ⟨s₂, batch₂⟩, hbefore, hrun⟩ := Act.perform_bind_eq_ok hrun
  exact ⟨s₁, s₂, batch₁, batch₂, added, hvalid, hbefore, hrun⟩

/-- A preparation that succeeds: either no code asks for more models, or they are put in front and
    it starts again. -/
theorem prepare_eq_ok {route restarts : Nat} {s s' : Saving τ} {batch batch' : List (BatchEntry α)}
    (hrun : (e.prepare saver route (restarts + 1)).perform (s, batch) = (.ok (), s', batch')) :
    ∃ s₁ s₂ s₃ batch₁ batch₂, s₁.world = s.world ∧
      Act.each (e.validateEntry saver) batch s₁ = (.ok (), s₂, batch₁) ∧
      (e.beforePhase saver batch₁ (s₂.setPhase route .beforeSave) = (.ok none, s', batch') ∨
        ∃ models, e.beforePhase saver batch₁ (s₂.setPhase route .beforeSave) =
            (.ok (some models), s₃, batch₂) ∧
          (e.prepare saver route restarts).perform
            (s₃.setPhase route .idle, models.map .fresh ++ batch₂) = (.ok (), s', batch')) := by
  obtain ⟨phase, t, hread, hrun⟩ := Act.perform_bind_eq_ok hrun
  cases hread
  -- What follows on the move to validation, if there is one.
  extract_lets rest at hrun
  obtain ⟨s₁, hworld, hrun⟩ := exists_of_moveTo_eq_ok hrun
  obtain ⟨s₂, s₃, batch₁, batch₂, added, hvalid, hbefore, hrun⟩ := validations_eq_ok hrun
  refine ⟨s₁, s₂, s₃, batch₁, batch₂, hworld, hvalid, ?_⟩
  cases added with
  | none =>
    cases hrun
    exact .inl hbefore
  | some models => exact .inr ⟨models, hbefore, hrun⟩

namespace KeptInTurns

variable {Inv : τ → List (BatchEntry α) → Prop} (h : KeptInTurns e saver Inv)

include h

/-- It is kept by the validation of models that come into a batch then. -/
theorem each_validateModel {models models' : List α} {s s' : Saving τ}
    (hInv : Inv s.world (models.map .fresh))
    (hrun : Act.each (e.validateModel saver) models s = (.ok (), s', models')) :
    Inv s'.world (openBatch models') := by
  have hdone := Act.each_invariant
    (fun s pre rest => Inv s.world (openBatch pre ++ rest.map .fresh)) ?_ hrun hInv
  · simpa using hdone
  · intro s pre m rest s' m' hInv hf
    have hstep := h.validated s (openBatch pre) (.fresh m) (rest.map .fresh) s' m' hInv rfl hf
    rw [← List.singleton_append, ← List.append_assoc] at hstep
    rwa [openBatch, List.map_append]

theorem each_validateEntry {batch batch' : List (BatchEntry α)} {s s' : Saving τ}
    (hInv : Inv s.world batch)
    (hrun : Act.each (e.validateEntry saver) batch s = (.ok (), s', batch')) :
    Inv s'.world batch' ∧ ∀ p ∈ batch', p.isValidated = true := by
  have hdone := Act.each_invariant
    (fun s pre rest => Inv s.world (pre ++ rest) ∧ ∀ p ∈ pre, p.isValidated = true)
    ?_ hrun ⟨hInv, by simp⟩
  · simpa using hdone
  · rintro s pre p rest s' p' ⟨hInv, hpre⟩ hf
    have hstep : Inv s'.world (pre ++ p' :: rest) ∧ p'.isValidated = true := by
      rw [validateEntry, Act.perform_bind, Act.perform_read] at hf
      dsimp only at hf
      rcases hvalidated : p.isValidated with _ | _ <;> rw [hvalidated] at hf
      · obtain ⟨_, ⟨s₁, p₁⟩, hvalid, hflag⟩ := Act.perform_bind_eq_ok hf
        rcases hm : (e.validateModel saver).perform (s, p.model) with ⟨r, s₂, m'⟩
        rw [Act.perform_zoom, modelLens, hm] at hvalid
        cases hvalid
        cases hflag
        have hnext := h.validated s pre p rest s₂ m' hInv hvalidated hm
        exact ⟨hnext, rfl⟩
      · cases hf
        exact ⟨hInv, hvalidated⟩
    rw [← List.singleton_append, ← List.append_assoc] at hstep
    exact ⟨hstep.1, List.forall_mem_append.2 ⟨hpre, by simpa using hstep.2⟩⟩

/-- It is kept by the code before the write, up to the first that asks for more models, if these
    come in front then. -/
theorem beforePhase {batch batch' pre : List (BatchEntry α)} {s s' : Saving τ}
    {added : Option (List α)} (hInv : Inv s.world (pre ++ batch))
    (hvalidated : ∀ p ∈ batch, p.isValidated = true) (hpre : ∀ p ∈ pre, p.hooksDone = true)
    (hrun : e.beforePhase saver batch s = (.ok added, s', batch')) :
    Inv s'.world ((added.getD []).map .fresh ++ (pre ++ batch')) ∧
      (added = none → ∀ p ∈ pre ++ batch', p.hooksDone = true) := by
  induction batch generalizing s pre batch' with
  | nil =>
    cases hrun
    exact ⟨hInv, fun _ => by simpa using hpre⟩
  | cons p rest ih =>
    obtain ⟨hp, hrest⟩ := List.forall_mem_cons.1 hvalidated
    -- From an entry that had its turn, the phase goes on with the rest.
    have hgoOn : ∀ {s₁ : Saving τ} {p' : BatchEntry α} {rest' : List (BatchEntry α)},
        p'.hooksDone = true → Inv s₁.world (pre ++ p' :: rest) →
        e.beforePhase saver rest s₁ = (.ok added, s', rest') →
        Inv s'.world ((added.getD []).map .fresh ++ (pre ++ p' :: rest')) ∧
          (added = none → ∀ q ∈ pre ++ p' :: rest', q.hooksDone = true) := by
      intro s₁ p' rest' hdone h₁ hrun₁
      rw [List.append_cons pre p' rest] at h₁
      rw [List.append_cons pre p' rest']
      exact ih h₁ hrest (List.forall_mem_append.2 ⟨hpre, by simpa using hdone⟩) hrun₁
    rw [SaveEngine.beforePhase] at hrun
    rcases hdone : p.hooksDone with _ | _ <;> rw [hdone] at hrun
    · rcases hf : (e.beforeSave saver).perform (s, p.model) with ⟨_ | o, s₁, m'⟩ <;>
        simp only [hf] at hrun
      · cases hrun
      · have hturned := h.turned s pre p rest o s₁ m' hInv hp hdone hf
        cases o with
        | add models =>
          cases hrun
          simp only [BatchEntry.turned, Outcome.isSkip, Bool.or_false] at hturned
          exact ⟨hturned, fun hnone => by cases hnone⟩
        | proceed =>
          rcases hf' : e.beforePhase saver rest s₁ with ⟨r, s₂, rest'⟩
          simp only [hf'] at hrun
          cases hrun
          simp only [BatchEntry.turned, Outcome.isSkip, Bool.or_false] at hturned
          exact hgoOn rfl hturned hf'
        | skip =>
          rcases hf' : e.beforePhase saver rest s₁ with ⟨r, s₂, rest'⟩
          simp only [hf'] at hrun
          cases hrun
          simp only [BatchEntry.turned, Outcome.isSkip, Bool.or_true] at hturned
          exact hgoOn rfl hturned hf'
    · rcases hf : e.beforePhase saver rest s with ⟨r, s₁, rest'⟩
      simp only [hf, if_true] at hrun
      cases hrun
      exact hgoOn hdone hInv hf

/-- It is kept by a preparation that succeeds, and then no entry is left to have its turn. -/
theorem prepare {route restarts : Nat} {s s' : Saving τ} {batch batch' : List (BatchEntry α)}
    (hInv : Inv s.world batch)
    (hrun : (e.prepare saver route restarts).perform (s, batch) = (.ok (), s', batch')) :
    Inv s'.world batch' ∧ ∀ p ∈ batch', p.hooksDone = true := by
  induction restarts generalizing s batch with
  | zero => cases hrun
  | succ restarts ih =>
    obtain ⟨s₁, s₂, s₃, batch₁, batch₂, hworld, hvalid, hbefore⟩ := prepare_eq_ok hrun
    obtain ⟨h₂, hvalidated⟩ := h.each_validateEntry (hworld ▸ hInv) hvalid
    have h₃ : Inv (s₂.setPhase route .beforeSave).world ([] ++ batch₁) := h₂
    rcases hbefore with hbefore | ⟨models, hbefore, hagain⟩
    · obtain ⟨hkept, hdone⟩ := h.beforePhase h₃ hvalidated (by simp) hbefore
      exact ⟨hkept, hdone rfl⟩
    · have h₄ : Inv (s₃.setPhase route .idle).world (models.map .fresh ++ batch₂) :=
        (h.beforePhase h₃ hvalidated (by simp) hbefore).1
      exact ih h₄ hagain

end KeptInTurns

end Turns

end SaveEngine

/-! ### Up to the write -/

namespace SaveEngine

variable [Model μ] {e : SaveEngine μ σ} {frames : Nat → Frame} {start : List ModelName}
  {saver : Saver (Named μ) (Recorded μ σ)}

/-- The recorded engine's history tells of the batch. -/
abbrev TracedBy (e : SaveEngine μ σ) (start : List ModelName) (s : Saving (Recorded μ σ))
    (batch : List (BatchEntry (Named μ))) : Prop :=
  Traced e.behaviour.hooks start s.history batch

theorem tracedBy_keptInTurns (he : e.IsSaveless) :
    KeptInTurns (e.recorded frames) saver
      fun w batch => Traced e.behaviour.hooks start w.2 batch where
  validated s pre p rest s' m' h hnot hrun := by
    obtain ⟨hname, es, hes, hvalid⟩ := validateModel_records he _ _ _ _ _ hrun
    rw [show s'.world.2 = s.world.2 ++ es from hes]
    exact h.validated hnot hname hvalid
  turned s pre p rest o' s' m' h hvalidated hnot hrun := by
    obtain ⟨hname, es, hes, o, rfl, hbefore⟩ := beforeModel_records he _ _ _ _ _ hrun
    rw [show s'.world.2 = s.world.2 ++ es from hes]
    exact h.turned hnot hvalidated hname hbefore

theorem each_validateModel (he : e.IsSaveless) {models models' : List (Named μ)}
    {s s' : Saving (Recorded μ σ)} (h : e.TracedBy start s (models.map .fresh))
    (hrun : Act.each ((e.recorded frames).validateModel saver) models s = (.ok (), s', models')) :
    e.TracedBy start s' (openBatch models') := (tracedBy_keptInTurns he).each_validateModel h hrun

/-- A batch that is ready to be written has been told of in full. -/
theorem prepare_traced (he : e.IsSaveless) {route restarts : Nat} {s s' : Saving (Recorded μ σ)}
    {batch batch' : List (BatchEntry (Named μ))} (h : e.TracedBy start s batch)
    (hrun : ((e.recorded frames).prepare saver route restarts).perform (s, batch) =
      (.ok (), s', batch')) :
    e.TracedBy start s' batch' ∧ ∀ p ∈ batch', p.hooksDone = true :=
  (tracedBy_keptInTurns he).prepare h hrun

end SaveEngine

end RecordStore
