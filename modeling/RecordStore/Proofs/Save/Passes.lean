import RecordStore.Proofs.Save.Advance
import RecordStore.Proofs.Save.Warrants
import Mathlib.Data.Set.Finite.Basic

/-!
# The passes of a preparation

A batch is prepared in passes. Each pass goes through the whole batch from its front, and if the code
before a write asks for more models, these come in front and there is one more pass
(`SaveEngine.pass`). What is left to do can so become more with every pass: the batch grows, and
nothing bounds how many models code asks for.

But the models form trees. Their roots are the given models, and below a model stand those that the
code before its write asked for (`Rooted`). That code is entered once for each model, so no model asks
twice, and all passes but the last have a model of their own that asked. So if the trees that come up
in the passes (`SaveEngine.forest`) are finite, the passes come to an end
(`SaveEngine.Unhindered.ends`), and there is one more of them than there are models that asked.
-/

namespace RecordStore

variable {μ σ : Type}

/-! ### Asking -/

/-- Whether models are asked for, be it none at all. -/
def Outcome.isAdd : Outcome μ → Bool
  | add _ => true
  | _ => false

namespace Happening

/-- Whether it is code before a write that asks for more models. -/
def asksMore : Happening μ → Bool
  | ran place _ outcome _ => place.isBefore && outcome.isAdd
  | wrote _ _ => false

/-- The names of the models that code before a write asks for. -/
def asked : Happening μ → List ModelName
  | ran place name outcome _ =>
    if place.isBefore then (List.range outcome.asked.length).map (.added name) else []
  | wrote _ _ => []

theorem grow_eq (names : List ModelName) (x : Happening μ) : x.grow names = x.asked ++ names := by
  rcases x with ⟨place, name, outcome, left⟩ | _
  · cases outcome with
    | proceed | skip => simp [grow, asked, Outcome.asked]
    | add models => by_cases hplace : place.isBefore <;> simp [grow, asked, hplace, Outcome.asked]
  · rfl

theorem exists_of_mem_asked {x : Happening μ} {name : ModelName} (h : name ∈ x.asked) :
    ∃ i, name = .added x.name i := by
  rcases x with ⟨place, asker, outcome, left⟩ | _
  · rw [asked] at h
    split at h
    · obtain ⟨i, -, rfl⟩ := List.mem_map.1 h
      exact ⟨i, rfl⟩
    · cases h
  · cases h

end Happening

/-- The trees that a history tells of: their roots are this many given models, and below a model
    stand those that the code before its write asked for. -/
inductive Rooted (count : Nat) (es : List (Happening μ)) : ModelName → Prop
  | given {i : Nat} : i < count → Rooted count es (.given i)
  | asked {x : Happening μ} {name : ModelName} : Rooted count es x.name → x ∈ es →
    name ∈ x.asked → Rooted count es name

section Asking

variable {hooks : μ → List (Hook μ σ)} {name : ModelName} {es es' : List (Happening μ)}
  {o : Outcome μ} {count : Nat} {start : List ModelName}

theorem Rooted.mono (h : Rooted count es name) (hes : es ⊆ es') : Rooted count es' name := by
  induction h with
  | given hi => exact .given hi
  | asked _ hx hname ih => exact .asked ih (hes hx) hname

/-- A batch grows by what is asked for, and by nothing else. -/
theorem mem_foldl_grow :
    name ∈ es.foldl Happening.grow start ↔ name ∈ start ∨ ∃ x ∈ es, name ∈ x.asked := by
  induction es generalizing start with
  | nil => simp
  | cons x es ih =>
    rw [List.foldl_cons, ih, Happening.grow_eq, List.mem_append, List.exists_mem_cons_iff]
    tauto

theorem HooksBefore.countP_asksMore {i n : Nat} (h : HooksBefore name i n es o) :
    es.countP (·.asksMore) = o.isAdd.toNat := by
  induction h with
  | done => rfl
  | proceeds _ ih => rw [List.countP_cons, ih]; rfl
  | @stops _ _ _ o => cases o <;> rfl

/-- A model asks once or not at all. -/
theorem Before.countP_asksMore (h : Before hooks name es o) :
    es.countP (·.asksMore) = o.isAdd.toNat := by
  cases h with
  | proceeds hbefore => rw [List.countP_cons, hbefore.countP_asksMore]; rfl
  | @stops _ o => cases o <;> rfl

theorem Adds.countP_asksMore (h : Adds (·.asksMore = false) es es') :
    es'.countP (·.asksMore) = es.countP (·.asksMore) := by
  obtain ⟨seg, rfl, hseg⟩ := h
  have hnone : seg.countP (·.asksMore) = 0 :=
    List.countP_eq_zero.2 fun x hx => by simp [show x.asksMore = false from hseg x hx]
  rw [List.countP_append, hnone, Nat.add_zero]

variable [Model μ] {batch : List (BatchEntry (Named μ))} {p : BatchEntry (Named μ)}

theorem Validates.countP_asksMore (h : Validates name es) : es.countP (·.asksMore) = 0 := by
  obtain ⟨o, m, rfl, -⟩ := h
  rfl

theorem Told.countP_asksMore_le (h : Told hooks p es) : es.countP (·.asksMore) ≤ 1 := by
  obtain ⟨v, b, rfl, hv, hb⟩ := h
  have hnone : v.countP (·.asksMore) = 0 := by
    rcases hv with ⟨-, hv⟩ | ⟨-, rfl⟩
    · exact hv.countP_asksMore
    · rfl
  rw [List.countP_append, hnone, Nat.zero_add]
  rcases hb with ⟨-, -, o, hb, -⟩ | ⟨-, rfl, -⟩
  · exact hb.countP_asksMore ▸ Bool.toNat_le o.isAdd
  · exact Nat.zero_le 1

/-- No more models have asked than there are. -/
theorem Prepared.countP_asksMore_le (h : Prepared hooks es batch) :
    es.countP (·.asksMore) ≤ batch.length := by
  have hsubset : (es.filter (·.asksMore)).map (·.name) ⊆ batch.map (·.model.name) := by
    intro name hname
    obtain ⟨x, hx, rfl⟩ := List.mem_map.1 hname
    exact (h.early x (List.mem_of_mem_filter hx)).2
  -- Those that asked are all different ones.
  have hnodup : ((es.filter (·.asksMore)).map (·.name)).Nodup := by
    refine List.nodup_iff_count_le_one.2 fun name => ?_
    by_cases hname : name ∈ (es.filter (·.asksMore)).map (·.name)
    · obtain ⟨p, hp, rfl⟩ := List.mem_map.1 (hsubset hname)
      have htold := (h.told p hp).countP_asksMore_le
      rw [List.countP_filter] at htold
      rw [List.count, List.countP_map, List.countP_filter]
      refine le_trans (List.countP_mono_left fun x _ hx => ?_) htold
      simpa [and_comm] using hx
    · exact List.count_eq_zero_of_not_mem hname ▸ Nat.zero_le 1
  have hle := (hnodup.subperm hsubset).length_le
  rwa [List.length_map, List.length_map, ← List.countP_eq_length_filter] at hle

/-- The names in a batch are those of the trees. -/
theorem Traced.mem_names_iff (h : Traced hooks ((List.range count).map .given) es batch) :
    name ∈ batch.map (·.model.name) ↔ Rooted count es name := by
  rw [h.names, mem_foldl_grow]
  constructor
  · -- Who has asked is in the batch, so the tree goes up from a name as the name does.
    induction name with
    | given i =>
      rintro (hstart | ⟨x, -, hname⟩)
      · exact .given (by simpa using hstart)
      · obtain ⟨i, hi⟩ := Happening.exists_of_mem_asked hname
        cases hi
    | nested =>
      rintro (hstart | ⟨x, -, hname⟩)
      · simp at hstart
      · obtain ⟨i, hi⟩ := Happening.exists_of_mem_asked hname
        cases hi
    | added asker i ih =>
      rintro (hstart | ⟨x, hx, hname⟩)
      · simp at hstart
      · obtain ⟨i, hi⟩ := Happening.exists_of_mem_asked hname
        obtain ⟨rfl, rfl⟩ := ModelName.added.inj hi
        have hasker : x.name ∈ batch.map (·.model.name) := (h.early x hx).2
        rw [h.names, mem_foldl_grow] at hasker
        exact .asked (ih hasker) hx hname
  · intro hrooted
    cases hrooted with
    | given hi => exact .inl (by simpa using hi)
    | asked _ hx hname => exact .inr ⟨_, hx, hname⟩

end Asking

namespace SaveEngine

/-! ### Passes -/

section Passes

variable {α τ : Type} [Model α] (e : SaveEngine α τ) (saver : Saver α τ) (route : Nat)

/-- What a pass does from validation on. -/
def passOn : Act (BatchWorld α τ) Bool := do
  Act.forEach (e.validateEntry saver)
  moveTo route .beforeSave
  match ← Act.make fun (s, batch) => e.beforePhase saver batch s with
  | none => pure false
  | some models => do
    Act.change fun (s, batch) => (s.setPhase route .idle, models.map .fresh ++ batch)
    pure true

/-- One pass of a preparation, and whether code asked for more models, which are in front then. -/
def pass : Act (BatchWorld α τ) Bool := do
  if (← Act.read (·.1.phases route)) ≠ .validate then moveTo route .validate
  e.passOn saver route

/-- After this many passes from a world, all of which but the last asked for one more; and whether
    the last did. -/
inductive Passed (t₀ : BatchWorld α τ) : Nat → Bool → BatchWorld α τ → Prop
  | start : Passed t₀ 0 true t₀
  | pass {n : Nat} {more : Bool} {t t' : BatchWorld α τ} : Passed t₀ n true t →
    (e.pass saver route).perform t = (.ok more, t') → Passed t₀ (n + 1) more t'

/-- A batch after the validations of a pass. -/
def validated (t : BatchWorld α τ) : BatchWorld α τ :=
  let out := Act.each (e.validateEntry saver) t.2 (t.1.setPhase route .validate)
  (out.2.1.setPhase route .beforeSave, out.2.2)

/-- In no pass a validation fails, or the code before a write. -/
structure Unhindered (t₀ : BatchWorld α τ) : Prop where
  valid : ∀ n t, e.Passed saver route t₀ n true t →
    (Act.each (e.validateEntry saver) t.2 (t.1.setPhase route .validate)).1 = .ok ()
  answered : ∀ n t, e.Passed saver route t₀ n true t →
    (e.beforePhase saver (e.validated saver route t).2 (e.validated saver route t).1).1.isOk

variable {e saver route} {t₀ t t' : BatchWorld α τ} {n k : Nat} {more more' : Bool}

/-- A preparation is one pass, and goes on if that asks for more. -/
theorem prepare_succ (restarts : Nat) : e.prepare saver route (restarts + 1) =
    (do if ← e.pass saver route then e.prepare saver route restarts) := by
  have hon : e.passBy (Saving.moveTo route) saver route (e.prepare saver route restarts) =
      (do if ← e.passOn saver route then e.prepare saver route restarts) := by
    simp only [passBy, passOn, bind_assoc]
    refine bind_congr fun _ => bind_congr fun _ => bind_congr fun added => ?_
    cases added <;> rfl
  rw [← prepareBy_moveTo, prepareBy, prepareBy_moveTo]
  simp only [pass, hon, bind_assoc]
  refine bind_congr fun phase => ?_
  split
  · rw [bind_assoc]
    rfl
  · rfl

/-- What a pass did that was gone through. -/
theorem pass_eq_ok {s : Saving τ} {batch : List (BatchEntry α)}
    (hrun : (e.pass saver route).perform (s, batch) = (.ok more, t')) :
    ∃ s₁ s₂ s₃ batch₁ batch₂ added, s₁.world = s.world ∧
      Act.each (e.validateEntry saver) batch s₁ = (.ok (), s₂, batch₁) ∧
      e.beforePhase saver batch₁ (s₂.setPhase route .beforeSave) = (.ok added, s₃, batch₂) ∧
      more = added.isSome ∧ t'.1.world = s₃.world ∧
      t'.2 = (added.getD []).map .fresh ++ batch₂ ∧ (more = true → t'.1.phases route = .idle) := by
  obtain ⟨phase, t, hread, hrun⟩ := Act.perform_bind_eq_ok hrun
  cases hread
  obtain ⟨s₁, hworld, hrun⟩ := exists_of_moveTo_eq_ok hrun
  obtain ⟨s₂, s₃, batch₁, batch₂, added, hvalid, hbefore, hrun⟩ := validations_eq_ok hrun
  refine ⟨s₁, s₂, s₃, batch₁, batch₂, added, hworld, hvalid, hbefore, ?_⟩
  cases added with
  | none =>
    cases hrun
    exact ⟨rfl, rfl, rfl, nofun⟩
  | some models =>
    cases hrun
    exact ⟨rfl, rfl, rfl, fun _ => Saving.phases_setPhase ..⟩

/-- A pass in which nothing fails is gone through: its moves are not refused. -/
theorem perform_pass (hsaver : ∀ route, (saver route).Moves Eq fun p => p.1.phases)
    {s : Saving τ} {batch : List (BatchEntry α)}
    (hphase : s.phases route = .idle ∨ s.phases route = .validate)
    (hvalid : (Act.each (e.validateEntry saver) batch (s.setPhase route .validate)).1 = .ok ())
    (hanswered : (e.beforePhase saver (e.validated saver route (s, batch)).2
      (e.validated saver route (s, batch)).1).1.isOk) :
    ∃ more t', (e.pass saver route).perform (s, batch) = (.ok more, t') := by
  -- From either phase the pass comes to the validations.
  have hfirst : (e.pass saver route).perform (s, batch) =
      (e.passOn saver route).perform (s.setPhase route .validate, batch) := by
    simp only [pass, Act.perform_bind, Act.perform_read]
    rcases hphase with hphase | hphase
    · rw [if_pos (by simp [hphase]), Act.perform_bind,
        perform_moveTo_batch batch (by rw [hphase]; rfl)]
    · rw [if_neg (by simp [hphase]), ← hphase, Saving.setPhase_self]
  rw [validated] at hanswered
  dsimp only at hanswered
  rcases hv : Act.each (e.validateEntry saver) batch (s.setPhase route .validate) with
    ⟨r, s₁, batch₁⟩
  rw [hv] at hvalid hanswered
  dsimp only at hvalid hanswered
  subst hvalid
  -- Validations may start saves, but these put the phase back.
  have hkept : (s.setPhase route .validate).phases = s₁.phases :=
    (leadsModels_phases (e := e) hsaver route id).validateEntry.forEach_view hv
  have hforward : (s₁.phases route).precedes .beforeSave = true := by
    rw [← hkept, Saving.phases_setPhase]
    rfl
  rw [hfirst, passOn]
  simp only [Act.perform_bind, Act.forEach, Act.perform_make, hv,
    perform_moveTo_batch batch₁ hforward]
  rcases hb : e.beforePhase saver batch₁ (s₁.setPhase route .beforeSave) with
    ⟨_ | _ | models, s₂, batch₂⟩ <;> rw [hb] at hanswered
  · cases hanswered
  · exact ⟨_, _, rfl⟩
  · exact ⟨_, _, rfl⟩

namespace Passed

/-- There is one way to go through passes. -/
theorem unique (h : e.Passed saver route t₀ n more t) (h' : e.Passed saver route t₀ n more' t') :
    more = more' ∧ t = t' := by
  induction h generalizing more' t' with
  | start =>
    cases h'
    exact ⟨rfl, rfl⟩
  | pass _ hpass ih =>
    cases h' with
    | pass h' hpass' =>
      obtain ⟨-, rfl⟩ := ih h'
      rw [hpass] at hpass'
      cases hpass'
      exact ⟨rfl, rfl⟩

/-- No pass comes after the last one. -/
theorem le_last (h : e.Passed saver route t₀ n more t) (h' : e.Passed saver route t₀ k false t') :
    n ≤ k := by
  induction h with
  | start => exact Nat.zero_le k
  | @pass n _ _ _ h _ ih =>
    have hne : n ≠ k := by
      rintro rfl
      cases (h.unique h').1
    exact lt_of_le_of_ne ih hne

theorem perform_prepare (h : e.Passed saver route t₀ n more t) (hmore : more = true)
    (restarts : Nat) : (e.prepare saver route (n + restarts)).perform t₀ =
      (e.prepare saver route restarts).perform t := by
  induction h generalizing restarts with
  | start => rw [Nat.zero_add]
  | pass _ hpass ih =>
    subst hmore
    rw [Nat.add_assoc, Nat.add_comm 1, ih rfl, prepare_succ, Act.perform_bind, hpass]
    rfl

/-- A preparation ends with the pass that asks for no more. -/
theorem perform_prepare_last (h : e.Passed saver route t₀ n false t) {restarts : Nat}
    (hle : n ≤ restarts) : (e.prepare saver route restarts).perform t₀ = (.ok (), t) := by
  cases h with
  | @pass n _ t₁ _ h hpass =>
    obtain ⟨restarts, rfl⟩ := Nat.exists_eq_add_of_le hle
    rw [Nat.add_assoc, h.perform_prepare rfl, Nat.add_comm, prepare_succ, Act.perform_bind,
      hpass]
    rfl

end Passed

/-- What is kept in turns is kept by a pass, and after the last one no entry is left to have its
    turn. -/
theorem KeptInTurns.pass {Inv : τ → List (BatchEntry α) → Prop} (h : KeptInTurns e saver Inv)
    {s : Saving τ} {batch : List (BatchEntry α)} (hInv : Inv s.world batch)
    (hrun : (e.pass saver route).perform (s, batch) = (.ok more, t')) :
    Inv t'.1.world t'.2 ∧ (more = false → ∀ p ∈ t'.2, p.hooksDone = true) := by
  obtain ⟨s₁, s₂, s₃, batch₁, batch₂, added, hworld, hvalid, hbefore, rfl, hworld', hbatch', -⟩ :=
    pass_eq_ok hrun
  obtain ⟨h₂, hvalidated⟩ := h.each_validateEntry (hworld ▸ hInv) hvalid
  have h₃ : Inv (s₂.setPhase route .beforeSave).world ([] ++ batch₁) := h₂
  obtain ⟨hkept, hdone⟩ := h.beforePhase h₃ hvalidated (by simp) hbefore
  rw [hworld', hbatch']
  refine ⟨hkept, fun hlast => ?_⟩
  obtain rfl : added = none := by simpa using hlast
  exact hdone rfl

/-- A batch in which nothing fails goes through any number of passes, or comes to an end. -/
theorem Unhindered.passed_or_ends (h : e.Unhindered saver route t₀)
    (hsaver : ∀ route, (saver route).Moves Eq fun p => p.1.phases)
    (hphase : t₀.1.phases route = .validate) (n : Nat) :
    (∃ t, e.Passed saver route t₀ n true t) ∨ ∃ n t, e.Passed saver route t₀ n false t := by
  induction n with
  | zero => exact .inl ⟨t₀, .start⟩
  | succ n ih =>
    rcases ih with ⟨⟨s, batch⟩, hpassed⟩ | hend
    · -- All passes but the first come after one that asked for more, and went back to the start.
      have hready : s.phases route = .idle ∨ s.phases route = .validate := by
        cases hpassed with
        | start => exact .inr hphase
        | pass _ hpass =>
          obtain ⟨_, _, _, _, _, _, -, -, -, -, -, -, hidle⟩ := pass_eq_ok hpass
          exact .inl (hidle rfl)
      obtain ⟨more, t', hpass⟩ :=
        perform_pass hsaver hready (h.valid n _ hpassed) (h.answered n _ hpassed)
      cases more with
      | true => exact .inl ⟨t', hpassed.pass hpass⟩
      | false => exact .inr ⟨n + 1, t', hpassed.pass hpass⟩
    · exact .inr hend

end Passes

/-! ### The trees -/

section Trees

variable [Model μ]

/-- The trees that come up in the passes from a world, with this many given models. -/
def forest (e : SaveEngine (Named μ) (Recorded μ σ)) (saver : Saver (Named μ) (Recorded μ σ))
    (route count : Nat) (t₀ : BatchWorld (Named μ) (Recorded μ σ)) : Set ModelName :=
  {name | ∃ n more t, e.Passed saver route t₀ n more t ∧ Rooted count t.1.ownHistory name}

/-- A batch after this many passes: what is told of it, and that all passes but the last have a model
    of their own that asked for more. -/
structure Underway (hooks : μ → List (Hook μ σ)) (start : List ModelName) (n : Nat) (more : Bool)
    (t : BatchWorld (Named μ) (Recorded μ σ)) : Prop
    extends Followed hooks start t.1.ownHistory t.2 where
  asked : t.1.ownHistory.countP (·.asksMore) + (!more).toNat = n
  done : more = false → ∀ p ∈ t.2, p.hooksDone = true

/-- A batch is ready to be written: it has each model of a forest once, and each of them has been
    validated once, and then has been through the code before its write once. -/
structure ReadyForest (hooks : μ → List (Hook μ σ)) (forest : Set ModelName)
    (t : BatchWorld (Named μ) (Recorded μ σ)) : Prop where
  nodup : (t.2.map (·.model.name)).Nodup
  mem_iff : ∀ name, name ∈ t.2.map (·.model.name) ↔ name ∈ forest
  prepared : ∀ name ∈ forest, ∃ validation before outcome,
    t.1.ownHistory.filter (·.name = name) = validation ++ before ∧
      Validates name validation ∧ Before hooks name before outcome
  early : ∀ x ∈ t.1.ownHistory, x.isEarly = true

variable {e : SaveEngine μ σ} {frames : Nat → Frame} {saver : Saver (Named μ) (Recorded μ σ)}
  {route count n : Nat} {more : Bool} {start : List ModelName}
  {t₀ t t' : BatchWorld (Named μ) (Recorded μ σ)}

theorem Underway.readyForest
    (h : Underway e.behaviour.hooks ((List.range count).map .given) n false t) :
    ReadyForest e.behaviour.hooks {name | Rooted count t.1.ownHistory name} t where
  nodup := h.nodup
  mem_iff name := h.mem_names_iff
  prepared name hname := by
    obtain ⟨p, hp, rfl⟩ := List.mem_map.1 (h.mem_names_iff.2 hname)
    obtain ⟨⟨v, b, heq, hv, hb⟩⟩ := h.told p hp
    -- No entry is left to have its turn, and it comes after the validation.
    rw [h.done rfl p hp] at hb
    obtain ⟨hvalidated, o, hbefore, -⟩ : p.isValidated = true ∧
        ∃ o, Before e.behaviour.hooks p.model.name b o ∧ p.isSkipped = o.isSkip := by
      simpa using hb
    exact ⟨v, b, o, heq, by simpa [hvalidated] using hv, hbefore⟩
  early x hx := (h.early x hx).1

variable (hsaver : ∀ route, (saver route).Moves LeadsApart (seen Saving.ownHistory))

include hsaver

theorem validateModel_adds : ((e.recorded frames).validateModel saver).Moves
    (Adds (·.asksMore = false)) fun t => t.1.ownHistory :=
  (Program.recorded_adds hsaver fun _ _ _ => rfl).bind fun _ =>
    (Act.moves_read _).bind fun _ => Act.moves_ofExcept _

theorem validateEntry_adds : ((e.recorded frames).validateEntry saver).Moves
    (Adds (·.asksMore = false)) fun t => t.1.ownHistory := by
  refine (Act.moves_read _).bind fun isValidated => ?_
  split
  · refine Act.Moves.bind ?_ fun _ => Act.moves_change fun _ => rfl
    exact (validateModel_adds hsaver).zoom fun _ => rfl
  · exact Act.moves_pure ()

omit [Model μ] in
/-- The code before the writes asks for more models as often as there is to be one more pass. -/
theorem beforePhase_asksMore {batch batch' : List (BatchEntry (Named μ))}
    {s s' : Saving (Recorded μ σ)} {added : Option (List (Named μ))}
    (hown : ∀ p ∈ batch, p.model.name.IsOwn)
    (hrun : (e.recorded frames).beforePhase saver batch s = (.ok added, s', batch')) :
    s'.ownHistory.countP (·.asksMore) =
      s.ownHistory.countP (·.asksMore) + added.isSome.toNat := by
  induction batch generalizing s batch' with
  | nil =>
    cases hrun
    rfl
  | cons p rest ih =>
    obtain ⟨hp, hrest⟩ := List.forall_mem_cons.1 hown
    rw [SaveEngine.beforePhase] at hrun
    by_cases hdone : p.hooksDone = true
    · rcases hf : (e.recorded frames).beforePhase saver rest s with ⟨r, s₁, rest'⟩
      simp only [hdone, hf, if_true] at hrun
      cases hrun
      exact ih hrest hf
    · rcases hf : ((e.recorded frames).beforeSave saver).perform (s, p.model) with ⟨_ | o', s₁, m'⟩
      · simp only [hdone, hf] at hrun
        cases hrun
      · have hcode : ∀ p : Program μ μ σ, True → ∀ place own, ((p.recorded place).run saver
            own).EntersEnd Saving.ownHistory ModelName.IsOwn place :=
          fun p _ => p.recorded_entersEnd hsaver
        obtain ⟨-, es, hes, o, rfl, hbefore, -⟩ :=
          beforeModel_enters hcode trivial (fun _ _ _ => trivial) _ _ _ _ _ hp hf
        have hcount : s₁.ownHistory.countP (·.asksMore) =
            s.ownHistory.countP (·.asksMore) + o.isAdd.toNat := by
          rw [hes, List.countP_append, hbefore.countP_asksMore]
        rcases hf' : (e.recorded frames).beforePhase saver rest s₁ with ⟨r, s₂, rest'⟩
        cases o with
        | add models =>
          simp only [hdone, hf, Outcome.named] at hrun
          cases hrun
          exact hcount
        | proceed | skip =>
          simp only [hdone, hf, hf', Outcome.named] at hrun
          cases hrun
          rw [ih hrest hf', hcount]
          rfl

variable (hstart : ∀ name ∈ start, name.IsOwn)

include hstart

/-- A pass adds to the history, and it asks for one more if one model has asked in it. -/
theorem Underway.pass (h : Underway e.behaviour.hooks start n true t)
    (hrun : ((e.recorded frames).pass saver route).perform t = (.ok more, t')) :
    Underway e.behaviour.hooks start (n + 1) more t' ∧ t.1.ownHistory ⊆ t'.1.ownHistory := by
  obtain ⟨s, batch⟩ := t
  have hturns := @followed_keptInTurns _ _ _ e frames _ hsaver _ hstart
  have hcode := @leadsCode_addsRuns _ _ e frames _ hsaver route
  obtain ⟨hfollowed, hdone⟩ := hturns.pass h.toFollowed hrun
  obtain ⟨s₁, s₂, s₃, batch₁, batch₂, added, hworld, hvalid, hbefore, rfl, hworld', -, -⟩ :=
    pass_eq_ok hrun
  have hhistory₁ : s₁.ownHistory = s.ownHistory := congrArg (fun w => ownEntries w.2) hworld
  have hhistory' : t'.1.ownHistory = s₃.ownHistory := congrArg (fun w => ownEntries w.2) hworld'
  have hadds₁ : Adds Happening.IsRun s₁.ownHistory s₂.ownHistory :=
    hcode.validateEntry.forEach_view hvalid
  have hadds₂ := (hcode.beforePhase batch₁ (s₂.setPhase route .beforeSave) fun _ _ => trivial).1
  rw [hbefore] at hadds₂
  -- Validations do not ask, and of the code after them, only the last that is entered may.
  have hnone : Adds (·.asksMore = false) s₁.ownHistory s₂.ownHistory := by
    have hadds := (@validateEntry_adds _ _ _ e frames _ hsaver).forEach (s₁, batch)
    rwa [Act.forEach, Act.perform_make, hvalid] at hadds
  have hown : ∀ p ∈ batch₁, p.model.name.IsOwn :=
    (hturns.each_validateEntry (hworld ▸ h.toFollowed) hvalid).1.toTraced.isOwn hstart
      fun _ => name_of_mem_ownEntries
  have hasks := beforePhase_asksMore hsaver hown hbefore
  have hasked : s.ownHistory.countP (·.asksMore) = n := h.asked
  refine ⟨⟨hfollowed, ?_, hdone⟩, fun x hx => ?_⟩
  · rw [hhistory', hasks, ← hasked, ← hhistory₁, ← hnone.countP_asksMore]
    cases added <;> rfl
  · rw [hhistory']
    exact hadds₂.mem (hadds₁.mem (hhistory₁ ▸ hx))

variable (h₀ : Underway e.behaviour.hooks start 0 true t₀)

include h₀

theorem Passed.underway (h : (e.recorded frames).Passed saver route t₀ n more t) :
    Underway e.behaviour.hooks start n more t := by
  induction h with
  | start => exact h₀
  | pass _ hpass ih => exact (ih.pass hsaver hstart hpass).1

/-- Before its last pass, a batch went through any smaller number, and what was told then is still
    told. -/
theorem Passed.earlier {k : Nat} (h : (e.recorded frames).Passed saver route t₀ n more t)
    (hk : k < n) : ∃ t', (e.recorded frames).Passed saver route t₀ k true t' ∧
      t'.1.ownHistory ⊆ t.1.ownHistory := by
  induction h with
  | start => cases hk
  | @pass n _ t _ hpassed hpass ih =>
    have hadds := ((hpassed.underway hsaver hstart h₀).pass hsaver hstart hpass).2
    rcases Nat.lt_succ_iff_lt_or_eq.1 hk with hk | rfl
    · obtain ⟨t', hpassed', hsubset⟩ := ih hk
      exact ⟨t', hpassed', fun x hx => hadds (hsubset hx)⟩
    · exact ⟨t, hpassed, hadds⟩

/-- At the end, the history tells of all trees that came up. -/
theorem Passed.forest_eq (h : (e.recorded frames).Passed saver route t₀ n false t) :
    (e.recorded frames).forest saver route count t₀ =
      {name | Rooted count t.1.ownHistory name} := by
  refine Set.Subset.antisymm ?_ fun name hname => ⟨n, false, t, h, hname⟩
  rintro name ⟨k, more, t', h', hname⟩
  rcases Nat.lt_or_eq_of_le (h'.le_last h) with hlt | rfl
  · obtain ⟨t'', h'', hsubset⟩ := h.earlier hsaver hstart h₀ hlt
    obtain ⟨-, rfl⟩ := h'.unique h''
    exact hname.mono hsubset
  · obtain ⟨-, rfl⟩ := h.unique h'
    exact hname

end Trees

section Ends

variable [Model μ] {e : SaveEngine μ σ} {frames : Nat → Frame}
  {saver : Saver (Named μ) (Recorded μ σ)} {route count n : Nat} {more : Bool}
  {t₀ t : BatchWorld (Named μ) (Recorded μ σ)}
  (hsaver : ∀ route, (saver route).Moves LeadsApart (seen Saving.ownHistory))
  (h₀ : Underway e.behaviour.hooks ((List.range count).map .given) 0 true t₀)

include hsaver h₀

/-- No more passes ask for one more than there are models in the trees. -/
theorem Passed.le_card (h : (e.recorded frames).Passed saver route t₀ n true t)
    (hfinite : ((e.recorded frames).forest saver route count t₀).Finite) :
    n ≤ hfinite.toFinset.card := by
  have hunderway := h.underway hsaver ModelName.isOwn_given h₀
  have hsubset : (t.2.map (·.model.name)).toFinset ⊆ hfinite.toFinset := by
    intro name hname
    rw [List.mem_toFinset, hunderway.mem_names_iff] at hname
    exact hfinite.mem_toFinset.2 ⟨n, true, t, h, hname⟩
  calc n = t.1.ownHistory.countP (·.asksMore) := hunderway.asked.symm
    _ ≤ t.2.length := hunderway.countP_asksMore_le
    _ = (t.2.map (·.model.name)).toFinset.card := by
      rw [List.toFinset_card_of_nodup hunderway.nodup, List.length_map]
    _ ≤ hfinite.toFinset.card := Finset.card_le_card hsubset

/-- If the trees are finite and nothing fails, the passes come to an end: there is one more of them
    than there are models that asked for more, and the batch is ready then. -/
theorem Unhindered.ends (h : (e.recorded frames).Unhindered saver route t₀)
    (hphases : ∀ route, (saver route).Moves Eq fun p => p.1.phases)
    (hphase : t₀.1.phases route = .validate)
    (hfinite : ((e.recorded frames).forest saver route count t₀).Finite) :
    ∃ r t, (e.recorded frames).Passed saver route t₀ (r + 1) false t ∧
      r = t.1.ownHistory.countP (·.asksMore) ∧
      ReadyForest e.behaviour.hooks ((e.recorded frames).forest saver route count t₀) t := by
  obtain ⟨t, hpassed⟩ | ⟨n, t, hlast⟩ :=
    h.passed_or_ends hphases hphase (hfinite.toFinset.card + 1)
  · exact absurd (hpassed.le_card hsaver h₀ hfinite) (Nat.not_succ_le_self _)
  · have hunderway := hlast.underway hsaver ModelName.isOwn_given h₀
    refine ⟨t.1.ownHistory.countP (·.asksMore), t, ?_, rfl, ?_⟩
    · rwa [show t.1.ownHistory.countP (·.asksMore) + 1 = n from hunderway.asked]
    · rw [hlast.forest_eq hsaver ModelName.isOwn_given h₀]
      exact hunderway.readyForest

/-- Trees of which a batch has all models are finite. -/
theorem Passed.forest_finite (h : (e.recorded frames).Passed saver route t₀ n false t) :
    ((e.recorded frames).forest saver route count t₀).Finite := by
  rw [h.forest_eq hsaver ModelName.isOwn_given h₀]
  refine (List.finite_toSet (t.2.map (·.model.name))).subset fun name hname => ?_
  exact (h.underway hsaver ModelName.isOwn_given h₀).mem_names_iff.2 hname

end Ends

end SaveEngine

end RecordStore
