import RecordStore.Proofs.Save.FirstWrites
import RecordStore.Proofs.Save.Preparation

/-!
# The history of a save without nested ones

Code may save any models in the meantime. What happens there stands in the history as well, but
under names of nested saves. Without it, the history is that of the save's own models
(`Saving.ownHistory`).

A nested save leaves that alone (`SaveEngine.save_keeps_ownHistory`). So whatever code does, it
enters nothing but its end there (`Program.recorded_entersEnd`), and a preparation only ends of code
(`SaveEngine.prepare_addsRuns`).
-/

namespace RecordStore

variable {μ σ : Type}

/-- The entries about models that are not nested. -/
def ownEntries (es : List (Happening μ)) : List (Happening μ) := es.filter fun x => !x.name.isNested

/-- What has happened so far to the models of the save itself. -/
abbrev Saving.ownHistory (s : Saving (Recorded μ σ)) : List (Happening μ) := ownEntries s.history

/-- A name of a model of the save itself. -/
abbrev ModelName.IsOwn (name : ModelName) : Prop := name.isNested = false

theorem ModelName.isOwn_given {count : Nat} :
    ∀ name ∈ (List.range count).map ModelName.given, name.IsOwn := by
  intro name hname
  obtain ⟨i, -, rfl⟩ := List.mem_map.1 hname
  rfl

section Entries

variable {es : List (Happening μ)} {x : Happening μ} {name : ModelName}

theorem ownEntries_append (es es' : List (Happening μ)) :
    ownEntries (es ++ es') = ownEntries es ++ ownEntries es' := List.filter_append ..

theorem ownEntries_concat (es : List (Happening μ)) (x : Happening μ) :
    ownEntries (es ++ [x]) = ownEntries es ++ if x.name.isNested then [] else [x] := by
  rw [ownEntries_append, ownEntries.eq_def [x], List.filter_singleton]
  cases x.name.isNested <;> rfl

theorem ownEntries_split {pre post : List (Happening μ)} (hx : x.name.IsOwn) :
    ownEntries (pre ++ x :: post) = ownEntries pre ++ x :: ownEntries post := by
  rw [ownEntries_append]
  simp [ownEntries, hx]

theorem name_of_mem_ownEntries (hx : x ∈ ownEntries es) : x.name.IsOwn := by
  simpa using List.of_mem_filter hx

/-- What is entered about a model of the save itself, all of it stands in its own history. -/
theorem filter_name_ownEntries (hname : name.IsOwn) (es : List (Happening μ)) :
    (ownEntries es).filter (·.name = name) = es.filter (·.name = name) := by
  rw [ownEntries, List.filter_filter]
  refine List.filter_congr fun x _ => ?_
  by_cases h : x.name = name
  · simp [h, hname]
  · simp [h]

end Entries

/-- More entries of a kind are made. -/
def Adds (C : Happening μ → Prop) (es es' : List (Happening μ)) : Prop :=
  ∃ seg, es' = es ++ seg ∧ ∀ x ∈ seg, C x

instance (C : Happening μ → Prop) : Std.Refl (Adds C) := ⟨fun _ => ⟨[], by simp, by simp⟩⟩

instance (C : Happening μ → Prop) : IsTrans (List (Happening μ)) (Adds C) where
  trans := by
    rintro _ _ _ ⟨seg, rfl, hseg⟩ ⟨seg', rfl, hseg'⟩
    exact ⟨seg ++ seg', by rw [List.append_assoc], List.forall_mem_append.2 ⟨hseg, hseg'⟩⟩

theorem Adds.mem {C : Happening μ → Prop} {es es' : List (Happening μ)} (h : Adds C es es')
    {x : Happening μ} (hx : x ∈ es) : x ∈ es' := by
  obtain ⟨seg, rfl, -⟩ := h
  exact List.mem_append_left seg hx

/-- That code has run to its end. -/
abbrev Happening.IsRun (x : Happening μ) : Prop := x.left?.isSome = true

/-! ### Code -/

/-- Of models of nested saves, what these saves do to the history of the others. -/
abbrev LeadsApart (p q : List (Happening μ) × List (Named μ)) : Prop :=
  Lead (fun models => ∀ m ∈ models, m.name.isNested = true) Eq (List.Forall₂ SaveEngine.anyway) p q

section Code

variable {saver : Saver (Named μ) (Recorded μ σ)}
  (hsaver : ∀ route, (saver route).Moves LeadsApart (seen Saving.ownHistory))

include hsaver

/-- Code that runs to its end enters that, and code that fails enters nothing. -/
theorem Program.recorded_own {p : Program μ μ σ} {place : Place} {own : Nat}
    {s s' : Saving (Recorded μ σ)} {m m' : Named μ} {r : Except StoreError (Outcome (Named μ))}
    (hrun : ((p.recorded place).run saver own).perform (s, m) = (r, s', m')) :
    m'.name = m.name ∧
      ((∃ o, r = .ok (o.named m.name) ∧
          s'.ownHistory = s.ownHistory ++
            if m.name.isNested then [] else [.ran place m.name o m'.model]) ∨
        (∃ err, r = .error err) ∧ s'.ownHistory = s.ownHistory) := by
  -- Up to its end, the code enters nothing itself, and the saves that it makes are nested ones.
  have hkeeps : ((p.decorate Named.decor).run saver own).Moves Eq
      fun t => (t.1.ownHistory, t.2.name) := by
    refine p.all_true.decorate.moves ?_ ?_ ?_ own
    · rintro _ ⟨g, -, rfl⟩ t
      rfl
    · rintro _ ⟨c, -, rfl⟩
      exact ⟨fun _ => rfl, fun _ => rfl, fun _ => rfl⟩
    · rintro _ _ ⟨models, put, -, rfl, rfl⟩ route s m
      obtain ⟨hhistory, -, -⟩ := hsaver route (s, (models m.model).map Named.decor.fresh)
        (by simp [Named.decor, ModelName.isNested])
      exact Prod.ext hhistory rfl
  have hkept := hkeeps (s, m)
  rw [Program.recorded, run_andThen, Act.perform_bind] at hrun
  rcases hfirst : ((p.decorate Named.decor).run saver own).perform (s, m) with
    ⟨err | outcome, s₁, m₁⟩ <;> rw [hfirst] at hkept hrun
  all_goals obtain ⟨hhistory, hname⟩ := Prod.mk.inj hkept
  · cases hrun
    exact ⟨hname.symm, .inr ⟨⟨err, rfl⟩, hhistory.symm⟩⟩
  · simp only [run, Act.perform_make, Named.note, Act.perform_change, Act.perform_pure] at hrun
    cases hrun
    dsimp only at hname hhistory
    refine ⟨hname.symm, .inl ⟨outcome.map (·.model), by rw [hname], ?_⟩⟩
    rw [hhistory, hname]
    exact ownEntries_concat _ _

theorem Program.recorded_entersEnd (p : Program μ μ σ) (place : Place) (own : Nat) :
    ((p.recorded place).run saver own).EntersEnd Saving.ownHistory ModelName.IsOwn place := by
  intro s m o' s' m' hown hrun
  obtain ⟨hname, ⟨o, ho, hhistory⟩ | ⟨⟨err, herr⟩, -⟩⟩ := recorded_own hsaver hrun
  · cases ho
    rw [hown] at hhistory
    exact ⟨hname, _, hhistory, o, rfl, rfl⟩
  · cases herr

/-- Code only enters its end, be it of a kind that all ends of code at this place are. -/
theorem Program.recorded_adds {p : Program μ μ σ} {place : Place} {own : Nat}
    {C : Happening μ → Prop} (hC : ∀ name o m, C (.ran place name o m)) :
    ((p.recorded place).run saver own).Moves (Adds C) fun t => t.1.ownHistory := by
  rintro ⟨s, m⟩
  rcases hrun : ((p.recorded place).run saver own).perform (s, m) with ⟨r, s', m'⟩
  obtain ⟨-, ⟨o, -, hhistory⟩ | ⟨-, hhistory⟩⟩ := recorded_own hsaver hrun
  · refine ⟨_, hhistory, fun x hx => ?_⟩
    split at hx
    · cases hx
    · rw [List.mem_singleton.1 hx]
      exact hC ..
  · exact ⟨[], by simp [hhistory], by simp⟩

/-- Code of a model of a nested save enters nothing about others, and asks only for models that are
    nested. -/
theorem Program.recorded_leadsApart (p : Program μ μ σ) (place : Place) (own : Nat) :
    SaveEngine.Leads Saving.ownHistory (·.name.isNested = true) Eq SaveEngine.anyway
      ((p.recorded place).run saver own) := by
  constructor
  · rintro ⟨s, m⟩ hnested
    rcases hrun : ((p.recorded place).run saver own).perform (s, m) with ⟨r, s', m'⟩
    obtain ⟨hname, ⟨o, -, hhistory⟩ | ⟨-, hhistory⟩⟩ := recorded_own hsaver hrun
    all_goals have hnested' : m'.name.isNested = true := hname ▸ hnested
    · rw [show m.name.isNested = true from hnested, if_pos rfl, List.append_nil] at hhistory
      exact ⟨hhistory.symm, trivial, hnested'⟩
    · exact ⟨hhistory.symm, trivial, hnested'⟩
  · rintro ⟨s, m⟩ ms hnested hadd
    obtain ⟨models, rfl⟩ := (p.recorded_asks place own).added (s, m) ms hadd
    intro m' hm'
    obtain ⟨i, hi, rfl⟩ := List.mem_mapIdx.1 hm'
    exact hnested

end Code

namespace SaveEngine

variable [Model μ] {e : SaveEngine μ σ} {frames : Nat → Frame}

/-- A nested save leaves the history of other saves alone. -/
theorem save_keeps_ownHistory (e : SaveEngine μ σ) (frames : Nat → Frame) (bound route : Nat) :
    ((e.recorded frames).save bound route).Moves LeadsApart (seen Saving.ownHistory) := by
  refine save_leads (fun route => TransactionScheme.ofFrame_frames (frames route))
    (fun saver hsaver route => ?_) bound route
  have hcode : (e.recorded frames).LeadsCode saver route Saving.ownHistory (·.name.isNested = true)
      Eq anyway :=
    leadsCode_recorded fun p => p.recorded_leadsApart hsaver
  exact { hcode with
    write := by
      rintro ⟨s, m⟩ hnested
      refine ⟨?_, trivial, hnested⟩
      have hhistory := ownEntries_concat s.history (.wrote m.name m.model)
      rw [show (Happening.wrote m.name m.model).name.isNested = true from hnested, if_pos rfl,
        List.append_nil] at hhistory
      exact hhistory.symm
    clearEdits := fun _ hnested => ⟨trivial, hnested⟩
    control := ⟨fun _ => rfl, fun _ => rfl, fun _ => rfl⟩
    restore := fun p m hnested => ⟨trivial, by rw [Named.restore_eq]; exact hnested⟩
    setPhase := fun _ _ => rfl }

theorem write_own {route : Nat} {s s' : Saving (Recorded μ σ)} {m m' : Named μ}
    {r : Except StoreError Unit} (hown : m.name.IsOwn)
    (hrun : ((e.recorded frames).write route).perform (s, m) = (r, s', m')) :
    m'.name = m.name ∧ s'.ownHistory = s.ownHistory ++ [.wrote m.name m.model] := by
  have hhistory := ownEntries_concat s.history (.wrote m.name m.model)
  rw [show (Happening.wrote m.name m.model).name.isNested = false from hown] at hhistory
  rw [perform_write_recorded] at hrun
  rcases hw : (e.routes route).writer.write.perform (s.world.1, m.model) with ⟨_ | _, w, m₁⟩ <;>
    rw [hw] at hrun <;> cases hrun <;> exact ⟨rfl, hhistory⟩

section Phases

variable {saver : Saver (Named μ) (Recorded μ σ)}
  (hsaver : ∀ route, (saver route).Moves LeadsApart (seen Saving.ownHistory)) (route : Nat)

include hsaver

omit [Model μ] in
/-- All code of the models only enters its ends, and keeps their names. -/
theorem leadsCode_addsRuns : (e.recorded frames).LeadsCode saver route Saving.ownHistory
    (fun _ => True) (Adds Happening.IsRun) (Agree Named.name) := by
  refine leadsCode_recorded fun p place own => ⟨fun t _ => ?_, fun _ _ _ _ _ _ => trivial⟩
  exact ⟨Program.recorded_adds hsaver (fun _ _ _ => rfl) t, (p.recorded_asks place own).keeps t, trivial⟩

/-- Wherever a preparation breaks off, it only entered ends of code. -/
theorem prepare_addsRuns (restarts : Nat) : ((e.recorded frames).prepare saver route restarts).Moves
    (Adds Happening.IsRun) fun t => t.1.ownHistory := by
  have hcode := @leadsCode_addsRuns _ _ e frames _ hsaver route
  refine prepare_moves (fun next => ?_) (fun t => ?_) (fun s batch => ?_) restarts
  · exact Act.moves_of_view_eq fun t =>
      congrArg (fun w => ownEntries w.2) (phaseMove_moves (R := Eq) route next t.1).symm
  · exact (hcode.validateEntry.forEach_lead t fun _ _ => trivial).1
  · have hbefore := (hcode.beforePhase batch s fun _ _ => trivial).1
    exact ⟨hbefore, fun _ _ => hbefore⟩

end Phases

end SaveEngine

end RecordStore
