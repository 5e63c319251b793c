import RecordStore.Proofs.Save.History

/-!
# What a save enters into its history

Each step of a save that succeeds enters something about the model that it is taken with, and about
no other one, as long as the code of the models starts no saves (`SaveEngine.IsSaveless`):

* a validation, the code before it (`Validates`);
* what comes before the write, the model's own code and its hooks up to the first that does not
  proceed (`Before`);
* a write, its start;
* what comes after the write, the model's own code, all of its hooks, and one more write if these
  left the model edited (`After`).
-/

namespace RecordStore

variable {α β μ σ τ : Type}

/-! ### Entries about one model -/

section Entries

variable [Model μ] (hooks : μ → List (Hook μ σ)) (name : ModelName)

/-- The entries of a validation. -/
def Validates (es : List (Happening μ)) : Prop :=
  ∃ o m, es = [.ran .beforeValidate name o m] ∧ Model.validate m = .ok ()

omit [Model μ] in
/-- The entries of hooks before the write, the first of which has the number `i`, up to the first
    that does not proceed, and its outcome. -/
inductive HooksBefore : Nat → Nat → List (Happening μ) → Outcome μ → Prop
  | done {i : Nat} : HooksBefore i 0 [] .proceed
  | proceeds {i n : Nat} {m : μ} {es : List (Happening μ)} {o : Outcome μ} :
    HooksBefore (i + 1) n es o →
      HooksBefore i (n + 1) (.ran (.hookBefore i) name .proceed m :: es) o
  | stops {i n : Nat} {m : μ} {o : Outcome μ} : o.isProceed = false →
    HooksBefore i (n + 1) [.ran (.hookBefore i) name o m] o

/-- The entries of what comes before a write, and the outcome. -/
inductive Before : List (Happening μ) → Outcome μ → Prop
  | proceeds {m : μ} {es : List (Happening μ)} {o : Outcome μ} :
    HooksBefore name 0 (hooks m).length es o →
      Before (.ran .beforeSave name .proceed m :: es) o
  | stops {m : μ} {o : Outcome μ} : o.isProceed = false →
    Before [.ran .beforeSave name o m] o

/-- The entries of hooks after the write, all of them, the first of which has the number `i`, on a
    model that goes from one state to another. -/
inductive HooksAfter : Nat → Nat → μ → List (Happening μ) → μ → Prop
  | done {i : Nat} {m : μ} : HooksAfter i 0 m [] m
  | ran {i n : Nat} {m m' m'' : μ} {o : Outcome μ} {es : List (Happening μ)} :
    HooksAfter (i + 1) n m' es m'' →
      HooksAfter i (n + 1) m (.ran (.hookAfter i) name o m' :: es) m''

/-- The entries of what comes after a write. -/
inductive After : List (Happening μ) → Prop
  | left {m m' : μ} {o : Outcome μ} {es : List (Happening μ)} :
    HooksAfter name 0 (hooks m).length m es m' → Model.isEdited m' = false →
      After (.ran .afterSave name o m :: es)
  | written {m m' : μ} {o : Outcome μ} {es : List (Happening μ)} :
    HooksAfter name 0 (hooks m).length m es m' → Model.isEdited m' = true →
      Model.validate m' = .ok () → After (.ran .afterSave name o m :: es ++ [.wrote name m'])

end Entries

/-! ### Steps with one model -/

/-- If the action succeeds, the model keeps its name, and entries like these are made. -/
def Act.Records (f : Act (Saving (Recorded μ σ) × Named μ) β)
    (P : Named μ → List (Happening μ) → β → Named μ → Prop) : Prop :=
  ∀ s m b s' m', f.perform (s, m) = (.ok b, s', m') →
    m'.name = m.name ∧ ∃ es, s'.history = s.history ++ es ∧ P m es b m'

namespace Act

variable {f : Act (Saving (Recorded μ σ) × Named μ) β}
  {P : Named μ → List (Happening μ) → β → Named μ → Prop}

theorem Records.mono {P' : Named μ → List (Happening μ) → β → Named μ → Prop} (h : f.Records P)
    (hP : ∀ m es b m', m'.name = m.name → P m es b m' → P' m es b m') : f.Records P' := by
  intro s m b s' m' hf
  obtain ⟨hname, es, hes, hP'⟩ := h s m b s' m' hf
  exact ⟨hname, es, hes, hP m es b m' hname hP'⟩

theorem records_pure (b : β) :
    (pure b : Act (Saving (Recorded μ σ) × Named μ) β).Records
      fun m es b' m' => es = [] ∧ b' = b ∧ m' = m := by
  intro s m b' s' m' hf
  cases hf
  exact ⟨rfl, [], by simp, rfl, rfl, rfl⟩

/-- What is entered in sequence, by what follows on a result and on a model. -/
theorem Records.bind {γ : Type} {g : β → Act (Saving (Recorded μ σ) × Named μ) γ}
    {Q : β → Named μ → List (Happening μ) → γ → Named μ → Prop} (hf : f.Records P)
    (hg : ∀ b, (g b).Records (Q b)) :
    (f >>= g).Records fun m es c m' => ∃ b es₁ es₂ m₁, es = es₁ ++ es₂ ∧ m₁.name = m.name ∧
      P m es₁ b m₁ ∧ Q b m₁ es₂ c m' := by
  intro s m c s' m' hfg
  obtain ⟨b, ⟨s₁, m₁⟩, hfirst, hrest⟩ := perform_bind_eq_ok hfg
  obtain ⟨hname₁, es₁, hes₁, hP⟩ := hf s m b s₁ m₁ hfirst
  obtain ⟨hname', es₂, hes₂, hQ⟩ := hg b s₁ m₁ c s' m' hrest
  exact ⟨hname'.trans hname₁, es₁ ++ es₂, by rw [hes₂, hes₁, List.append_assoc], b, es₁, es₂, m₁,
    rfl, hname₁, hP, hQ⟩

end Act

/-! ### Parts of a history -/

namespace Happening

/-- The model as code leaves it. -/
def left? : Happening μ → Option μ
  | ran _ _ _ left => some left
  | wrote _ _ => none

/-- What becomes of a model by what happens. -/
def leave (m : μ) (x : Happening μ) : μ := x.left?.getD m

end Happening

/-- If the action succeeds on a model with a name of a kind, the model keeps its name, and entries like
    these are made in a part of the history. -/
def Act.Enters (part : Saving (Recorded μ σ) → List (Happening μ)) (A : ModelName → Prop)
    (f : Act (Saving (Recorded μ σ) × Named μ) β)
    (P : Named μ → List (Happening μ) → β → Named μ → Prop) : Prop :=
  ∀ s m b s' m', A m.name → f.perform (s, m) = (.ok b, s', m') →
    m'.name = m.name ∧ ∃ es, part s' = part s ++ es ∧ P m es b m'

/-- Code that enters its end in a part of the history, and nothing else. -/
abbrev Act.EntersEnd (part : Saving (Recorded μ σ) → List (Happening μ)) (A : ModelName → Prop)
    (place : Place) (f : Act (Saving (Recorded μ σ) × Named μ) (Outcome (Named μ))) : Prop :=
  f.Enters part A fun m es o' m' => ∃ o, o' = o.named m.name ∧ es = [.ran place m.name o m'.model]

theorem Act.records_iff_enters {f : Act (Saving (Recorded μ σ) × Named μ) β}
    {P : Named μ → List (Happening μ) → β → Named μ → Prop} :
    f.Records P ↔ f.Enters Saving.history (fun _ => True) P :=
  ⟨fun h s m b s' m' _ => h s m b s' m', fun h s m b s' m' => h s m b s' m' trivial⟩

/-- Code that runs to its end enters it, after whatever was entered in the meantime. -/
theorem Program.recorded_eq_ok {p : Program μ μ σ} {place : Place}
    {saver : Saver (Named μ) (Recorded μ σ)} {own : Nat} {s s' : Saving (Recorded μ σ)}
    {m m' : Named μ} {o' : Outcome (Named μ)}
    (hrun : ((p.recorded place).run saver own).perform (s, m) = (.ok o', s', m')) :
    ∃ (outcome : Outcome (Named μ)) (s₁ : Saving (Recorded μ σ)),
      ((p.decorate Named.decor).run saver own).perform (s, m) = (.ok outcome, s₁, m') ∧
      o' = (outcome.map (·.model)).named m'.name ∧
      s'.history = s₁.history ++ [.ran place m'.name (outcome.map (·.model)) m'.model] := by
  rw [Program.recorded, run_andThen] at hrun
  obtain ⟨outcome, ⟨s₁, m₁⟩, hfirst, hrest⟩ := Act.perform_bind_eq_ok hrun
  simp only [run, Act.perform_make, Named.note, Act.perform_change, Act.perform_pure] at hrest
  cases hrest
  exact ⟨outcome, s₁, hfirst, rfl, rfl⟩

/-- Code that starts no saves enters its end, and nothing else. -/
theorem Program.IsSaveless.recorded {p : Program μ μ σ} (hp : p.IsSaveless) (place : Place)
    (saver : Saver (Named μ) (Recorded μ σ)) (own : Nat) :
    ((p.recorded place).run saver own).Records fun m es o' m' =>
      ∃ o, o' = o.named m.name ∧ es = [.ran place m.name o m'.model] := by
  have hkeeps : ((p.decorate Named.decor).run saver own).Moves Eq
      fun scope => (scope.1.history, scope.2.name) := by
    refine hp.decorate.moves ?_ ?_ ?_ own
    · rintro _ ⟨g, -, rfl⟩ t
      rfl
    · rintro _ ⟨c, -, rfl⟩
      exact ⟨fun _ => rfl, fun _ => rfl, fun _ => rfl⟩
    · rintro models put ⟨-, -, hnone, -⟩
      exact hnone.elim
  intro s m o' s' m' hrun
  obtain ⟨outcome, s₁, hfirst, rfl, hs'⟩ := recorded_eq_ok hrun
  have hkept := hkeeps (s, m)
  rw [hfirst] at hkept
  obtain ⟨hhistory, hname⟩ := Prod.mk.inj hkept
  dsimp only at hhistory hname
  exact ⟨hname.symm, [_], by rw [hs', ← hhistory], outcome.map (·.model), by rw [hname],
    by rw [hname]⟩

namespace SaveEngine

/-- The code of the models starts no saves. -/
structure IsSaveless (e : SaveEngine μ σ) : Prop where
  beforeValidate : e.behaviour.beforeValidate.IsSaveless
  beforeSave : e.behaviour.beforeSave.IsSaveless
  afterSave : e.behaviour.afterSave.IsSaveless
  before : ∀ m, ∀ hook ∈ e.behaviour.hooks m, hook.before.IsSaveless
  after : ∀ m, ∀ hook ∈ e.behaviour.hooks m, hook.after.IsSaveless

variable {e : SaveEngine μ σ} {frames : Nat → Frame} {saver : Saver (Named μ) (Recorded μ σ)}

section Before

variable {part : Saving (Recorded μ σ) → List (Happening μ)} {A : ModelName → Prop}
  {K : Program μ μ σ → Prop}
  (hcode : ∀ p, K p → ∀ place own, ((p.recorded place).run saver own).EntersEnd part A place)

include hcode

theorem runBefore_enters (i : Nat) {hooks : List (Hook μ σ)} (hhooks : ∀ hook ∈ hooks, K hook.before) :
    (runBefore saver (hooks.mapIdx fun j => Hook.recorded (i + j))).Enters part A fun m es o' m' =>
      ∃ o, o' = o.named m.name ∧ HooksBefore m.name i hooks.length es o ∧
        m'.model = es.foldl Happening.leave m.model := by
  induction hooks generalizing i with
  | nil =>
    intro s m o' s' m' _ hrun
    cases hrun
    exact ⟨rfl, [], by simp, .proceed, rfl, .done, rfl⟩
  | cons hook rest ih =>
    obtain ⟨hhook, hrest⟩ := List.forall_mem_cons.1 hhooks
    intro s m o' s' m' hA hrun
    rw [List.mapIdx_cons] at hrun
    obtain ⟨outcome, ⟨s₁, m₁⟩, hfirst, hnext⟩ := Act.perform_bind_eq_ok hrun
    obtain ⟨hname, es, hes, o, rfl, rfl⟩ :=
      hcode _ hhook (.hookBefore i) firstRoute _ _ _ _ _ hA hfirst
    cases o with
    | proceed =>
      have hshift : (fun j => Hook.recorded (i + (j + 1)) : Nat → Hook μ σ → _) =
          fun j => Hook.recorded (i + 1 + j) := by
        funext j
        rw [Nat.add_assoc, Nat.add_comm 1 j]
      rw [hshift] at hnext
      obtain ⟨hname', es', hes', o, rfl, hbefore, hleft⟩ :=
        ih (i + 1) hrest _ _ _ _ _ (hname ▸ hA) hnext
      rw [hname] at hname' hbefore ⊢
      exact ⟨hname', _, by rw [hes', hes, List.append_assoc]; rfl, o, rfl, .proceeds hbefore, hleft⟩
    | skip | add =>
      cases hnext
      exact ⟨hname, _, hes, _, rfl, .stops rfl, rfl⟩

/-- What comes before the write leaves its model as the last code that it enters. -/
theorem beforeModel_enters (hown : K e.behaviour.beforeSave)
    (hhooks : ∀ m, ∀ hook ∈ e.behaviour.hooks m, K hook.before) :
    ((e.recorded frames).beforeSave saver).Enters part A fun m es o' m' =>
      ∃ o, o' = o.named m.name ∧ Before e.behaviour.hooks m.name es o ∧
        m'.model = es.foldl Happening.leave m.model := by
  intro s m o' s' m' hA hrun
  obtain ⟨outcome, ⟨s₁, m₁⟩, hfirst, hnext⟩ := Act.perform_bind_eq_ok hrun
  obtain ⟨hname, es, hes, o, rfl, rfl⟩ :=
    hcode _ hown .beforeSave firstRoute _ _ _ _ _ hA hfirst
  cases o with
  | proceed =>
    have hrest : (runBefore saver ((e.behaviour.hooks m₁.model).mapIdx fun j =>
        Hook.recorded (0 + j))).perform (s₁, m₁) = (.ok o', s', m') := by
      simp only [Nat.zero_add]
      exact hnext
    obtain ⟨hname', es', hes', o, rfl, hbefore, hleft⟩ :=
      runBefore_enters hcode 0 (hhooks m₁.model) _ _ _ _ _ (hname ▸ hA) hrest
    rw [hname] at hname' hbefore ⊢
    exact ⟨hname', _, by rw [hes', hes, List.append_assoc]; rfl, o, rfl, .proceeds hbefore, hleft⟩
  | skip | add =>
    cases hnext
    exact ⟨hname, _, hes, _, rfl, .stops rfl, rfl⟩

end Before

theorem runAfter_records (route i : Nat) {hooks : List (Hook μ σ)}
    (hhooks : ∀ hook ∈ hooks, hook.after.IsSaveless) :
    (runAfter saver route (hooks.mapIdx fun j => Hook.recorded (i + j))).Records fun m es _ m' =>
      HooksAfter m.name i hooks.length m.model es m'.model := by
  induction hooks generalizing i with
  | nil =>
    refine (Act.records_pure ()).mono fun m es o' m' _ h => ?_
    obtain ⟨rfl, -, rfl⟩ := h
    exact .done
  | cons hook rest ih =>
    obtain ⟨hhook, hrest⟩ := List.forall_mem_cons.1 hhooks
    have hshift : (fun j => Hook.recorded (i + (j + 1)) : Nat → Hook μ σ → _) =
        fun j => Hook.recorded (i + 1 + j) := by
      funext j
      rw [Nat.add_assoc, Nat.add_comm 1 j]
    rw [List.mapIdx_cons, hshift]
    refine ((hhook.recorded (.hookAfter (i + 0)) saver route).bind fun _ => ih (i + 1) hrest).mono
      fun m es _ m' hname h => ?_
    obtain ⟨_, _, es₂, m₁, rfl, hname₁, ⟨o, -, rfl⟩, hafter⟩ := h
    rw [hname₁] at hafter
    exact .ran hafter

theorem beforeModel_records (h : e.IsSaveless) :
    ((e.recorded frames).beforeSave saver).Records fun m es o' _ =>
      ∃ o, o' = o.named m.name ∧ Before e.behaviour.hooks m.name es o := by
  refine (Act.records_iff_enters.2 (beforeModel_enters (fun p hp place own =>
    Act.records_iff_enters.1 (hp.recorded place saver own)) h.beforeSave h.before)).mono ?_
  rintro m es o' m' - ⟨o, ho, hbefore, -⟩
  exact ⟨o, ho, hbefore⟩

theorem afterModel_records (h : e.IsSaveless) (route : Nat) :
    ((e.recorded frames).afterSave saver route).Records fun m es _ m' =>
      ∃ o m₁ es', es = .ran .afterSave m.name o m₁ :: es' ∧
        HooksAfter m.name 0 (e.behaviour.hooks m₁).length m₁ es' m'.model := by
  intro s m r s' m' hrun
  obtain ⟨outcome, ⟨s₁, m₁⟩, hfirst, hnext⟩ := Act.perform_bind_eq_ok hrun
  obtain ⟨hname, es, hes, o, rfl, rfl⟩ :=
    h.afterSave.recorded .afterSave saver route _ _ _ _ _ hfirst
  have hhooks : (runAfter saver route ((e.behaviour.hooks m₁.model).mapIdx fun j =>
      Hook.recorded (0 + j))).perform (s₁, m₁) = (.ok r, s', m') := by
    simp only [Nat.zero_add]
    exact hnext
  obtain ⟨hname', es', hes', hafter⟩ := runAfter_records route 0 (h.after m₁.model) _ _ _ _ _ hhooks
  rw [hname] at hname' hafter
  exact ⟨hname', _, by rw [hes', hes, List.append_assoc]; rfl, o, _, es', rfl, hafter⟩

variable [Model μ]

theorem validate_records :
    (validate : Act (Saving (Recorded μ σ) × Named μ) Unit).Records fun m es _ m' =>
      es = [] ∧ m' = m ∧ Model.validate m.model = .ok () := by
  intro s m r s' m' hrun
  obtain ⟨m₁, t, hread, hnext⟩ := Act.perform_bind_eq_ok hrun
  cases hread
  obtain ⟨hvalid, ht⟩ := Prod.mk.inj hnext
  cases ht
  exact ⟨rfl, [], by simp, rfl, rfl, hvalid⟩

theorem validateModel_enters {part : Saving (Recorded μ σ) → List (Happening μ)}
    {A : ModelName → Prop} (hcode : ((e.behaviour.beforeValidate.recorded .beforeValidate).run saver
      firstRoute).EntersEnd part A .beforeValidate) :
    ((e.recorded frames).validateModel saver).Enters part A fun m es _ _ => Validates m.name es := by
  intro s m r s' m' hA hrun
  obtain ⟨outcome, ⟨s₁, m₁⟩, hfirst, hnext⟩ := Act.perform_bind_eq_ok hrun
  obtain ⟨hname, es, hes, o, -, rfl⟩ := hcode _ _ _ _ _ hA hfirst
  obtain ⟨hvalid, hsame⟩ := Prod.mk.inj hnext
  cases hsame
  exact ⟨hname, _, hes, o, m'.model, rfl, hvalid⟩

theorem validateModel_records (h : e.IsSaveless) :
    ((e.recorded frames).validateModel saver).Records fun m es _ _ => Validates m.name es :=
  Act.records_iff_enters.2 (validateModel_enters
    (Act.records_iff_enters.1 (h.beforeValidate.recorded .beforeValidate saver firstRoute)))

/-- A write enters its start, whatever comes of it. -/
theorem perform_write_recorded (route : Nat) (s : Saving (Recorded μ σ)) (m : Named μ) :
    ((e.recorded frames).write route).perform (s, m) =
      match (e.routes route).writer.write.perform (s.world.1, m.model) with
      | (.ok _, w, m') =>
        (.ok (), ⟨s.phases, w, s.history ++ [.wrote m.name m.model]⟩,
          ⟨m.name, Model.clearEdits m'⟩)
      | (.error err, w, m') =>
        (.error err, ⟨s.phases, w, s.history ++ [.wrote m.name m.model]⟩, ⟨m.name, m'⟩) := by
  simp only [write, recorded, ModelWriter.recorded, Act.perform_bind, Act.perform_zoom, Named.note,
    Act.perform_change, worldLens, Lens.prod, Lens.fst, Named.modelLens]
  rcases (e.routes route).writer.write.perform (s.world.1, m.model) with ⟨_ | _, w, m'⟩ <;> rfl

variable (hclear : ∀ m : μ, Model.isEdited (Model.clearEdits m) = false)

include hclear

theorem write_records (route : Nat) :
    ((e.recorded frames).write route).Records fun m es _ m' =>
      es = [.wrote m.name m.model] ∧ Model.isEdited m'.model = false := by
  intro s m r s' m' hrun
  rw [perform_write_recorded] at hrun
  rcases hw : (e.routes route).writer.write.perform (s.world.1, m.model) with ⟨_ | _, w, m₁⟩ <;>
    rw [hw] at hrun <;> cases hrun
  exact ⟨rfl, _, rfl, rfl, hclear m₁⟩

/-- What comes after the write, with one more write if the model was left edited. -/
theorem finish_records (h : e.IsSaveless) (route : Nat) :
    (do (e.recorded frames).afterSave saver route; (e.recorded frames).writePending route :
      Act (Saving (Recorded μ σ) × Named μ) Unit).Records fun m es _ m' =>
        After e.behaviour.hooks m.name es ∧ Model.isEdited m'.model = false := by
  have hpending : ((e.recorded frames).writePending route).Records fun m es _ m' =>
      (Model.isEdited m.model = false ∧ es = [] ∧ m' = m) ∨
        (Model.isEdited m.model = true ∧ Model.validate m.model = .ok () ∧
          es = [.wrote m.name m.model] ∧ Model.isEdited m'.model = false) := by
    intro s m r s' m' hrun
    rw [perform_writePending] at hrun
    split at hrun
    next hedited =>
      obtain ⟨hname, es, hes, _, _, _, m₁, rfl, -, ⟨rfl, rfl, hvalid⟩, rfl, hleft⟩ :=
        (validate_records.bind fun _ => write_records hclear route) _ _ _ _ _ hrun
      exact ⟨hname, _, hes, .inr ⟨hedited, hvalid, rfl, hleft⟩⟩
    next hedited =>
      cases hrun
      exact ⟨rfl, [], by simp, .inl ⟨Bool.eq_false_iff.2 hedited, rfl, rfl⟩⟩
  refine ((afterModel_records h route).bind fun _ => hpending).mono fun m es _ m' _ hseq => ?_
  obtain ⟨_, _, _, m₁, rfl, hname, ⟨o, m₂, es', rfl, hafter⟩, hrest⟩ := hseq
  rcases hrest with ⟨hedited, rfl, rfl⟩ | ⟨hedited, hvalid, rfl, hleft⟩
  · rw [List.append_nil]
    exact ⟨.left hafter hedited, hedited⟩
  · rw [hname]
    exact ⟨.written hafter hedited hvalid, hleft⟩

end SaveEngine

end RecordStore
