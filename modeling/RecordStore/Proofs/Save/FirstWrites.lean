import RecordStore.Proofs.Save.Entries
import RecordStore.Proofs.Save.PriorState
import RecordStore.Proofs.Save.Stability

/-!
# Saves within a save

What a save notes of its models must not be mixed up with what nested saves do. The code of a model may
save any models in the meantime, but their writes stand under names of their own in the history, so
the first write of each model of the save itself stays what it was (`ownWrites`). Nor does the code
change which model it belongs to, or its schema (`SaveEngine.KeepsSchemas`).
-/

namespace RecordStore

variable {α β γ σ μ : Type}

/-- Agreement in what a function takes from two things. -/
def Agree (f : α → β) (a b : α) : Prop := f a = f b

instance (f : α → β) : Std.Refl (Agree f) := ⟨fun _ => rfl⟩

instance (f : α → β) : IsTrans α (Agree f) := ⟨fun _ _ _ => Eq.trans⟩

theorem map_eq_of_forall₂_agree {f : α → β} {as bs : List α} (h : List.Forall₂ (Agree f) as bs) :
    as.map f = bs.map f := map_eq_map_of_forall₂ h

theorem exists_of_forall₂_agree {f : α → β} {as bs : List α} {b : β}
    (h : List.Forall₂ (Agree f) as bs) (hb : b ∈ bs.map f) : ∃ a ∈ as, f a = b := by
  rw [← map_eq_of_forall₂_agree h] at hb
  exact List.mem_map.1 hb

/-! ### First writes -/

/-- Whether a name belongs to a nested save. -/
def ModelName.isNested : ModelName → Bool
  | given _ => false
  | added asker _ => asker.isNested
  | nested => true

/-- The model that is about to be written, if it has this name. -/
def Happening.before? (name : ModelName) : Happening μ → Option μ
  | wrote name' m => if name' = name then some m else none
  | ran _ _ _ _ => none

/-- What a model was right before it was written for the first time. -/
def firstWrite (es : List (Happening μ)) (name : ModelName) : Option μ :=
  es.findSome? (·.before? name)

/-- The first writes of the models of a save, those of nested saves left out. -/
def ownWrites (es : List (Happening μ)) (name : ModelName) : Option μ :=
  if name.isNested then none else firstWrite es name

theorem ownWrites_nil : ownWrites ([] : List (Happening μ)) = fun _ => none := by
  funext name
  exact ite_self _

theorem ownWrites_eq {name : ModelName} (hname : name.isNested = false) (es : List (Happening μ)) :
    ownWrites es name = firstWrite es name := by
  rw [ownWrites, hname]
  rfl

theorem firstWrite_append (es es' : List (Happening μ)) (name : ModelName) :
    firstWrite (es ++ es') name = (firstWrite es name).or (firstWrite es' name) :=
  List.findSome?_append

@[simp]
theorem firstWrite_append_ran (es : List (Happening μ)) (name : ModelName) (place : Place)
    (name' : ModelName) (o : Outcome μ) (m : μ) :
    firstWrite (es ++ [.ran place name' o m]) name = firstWrite es name := by
  rw [firstWrite_append]
  exact Option.or_none

theorem firstWrite_append_wrote (es : List (Happening μ)) (name name' : ModelName) (m : μ) :
    firstWrite (es ++ [.wrote name' m]) name =
      (firstWrite es name).or (if name' = name then some m else none) := by
  rw [firstWrite_append]
  by_cases h : name' = name <;> simp [firstWrite, Happening.before?, h]

theorem ownWrites_append_ran (es : List (Happening μ)) (place : Place) (name : ModelName)
    (o : Outcome μ) (m : μ) : ownWrites (es ++ [.ran place name o m]) = ownWrites es := by
  funext name'
  simp [ownWrites]

/-- What is written in a nested save is none of these. -/
theorem ownWrites_append_wrote (es : List (Happening μ)) {name : ModelName}
    (hname : name.isNested = true) (m : μ) : ownWrites (es ++ [.wrote name m]) = ownWrites es := by
  funext name'
  rw [ownWrites, ownWrites, firstWrite_append_wrote]
  split
  next => rfl
  next hown =>
    rw [if_neg, Option.or_none]
    rintro rfl
    exact hown hname

theorem ownWrites_append_own (es : List (Happening μ)) {name : ModelName}
    (hname : name.isNested = false) (m : μ) (name' : ModelName) :
    ownWrites (es ++ [.wrote name m]) name' =
      (ownWrites es name').or (if name = name' then some m else none) := by
  rw [ownWrites, ownWrites, firstWrite_append_wrote]
  split
  next hnested =>
    rw [if_neg, Option.or_none]
    rintro rfl
    rw [hname] at hnested
    cases hnested
  next => rfl

/-- A model that was written has a place where it was written first. -/
theorem exists_first_write {es : List (Happening μ)} {name : ModelName} {m : μ}
    (h : firstWrite es name = some m) :
    ∃ pre post, es = pre ++ .wrote name m :: post ∧ ∀ before, .wrote name before ∉ pre := by
  obtain ⟨pre, x, post, heq, hx, hpre⟩ := List.findSome?_eq_some_iff.1 h
  have hwrote : x = .wrote name m := by
    cases x with
    | ran => cases hx
    | wrote name' m' =>
      rw [Happening.before?] at hx
      split at hx
      next hname =>
        cases hx
        rw [hname]
      next => cases hx
  subst hwrote
  refine ⟨pre, post, heq, fun before hmem => ?_⟩
  have hnone := hpre _ hmem
  rw [Happening.before?, if_pos rfl] at hnone
  cases hnone

/-! ### Schemas -/

/-- What of a record in a batch never changes. -/
def Named.identity (m : Named Record) : ModelName × Schema := (m.name, m.model.schema)

/-- A program leaves its record's schema alone. -/
def Program.KeepsSchema (p : Program Record Record σ) : Prop :=
  p.All (fun f => f.Moves Eq fun q => q.2.schema) (fun _ => True) fun models put =>
    ∀ ms r, (ms.map (·.schema) = (models r).map (·.schema)) → (put ms r).schema = r.schema

/-- Nothing that is done with a record in a save changes its schema. -/
structure SaveEngine.KeepsSchemas (e : SaveEngine Record σ) : Prop where
  write : ∀ route, (e.routes route).writer.write.Moves Eq fun q => q.2.schema
  beforeValidate : e.behaviour.beforeValidate.KeepsSchema
  beforeSave : e.behaviour.beforeSave.KeepsSchema
  afterSave : e.behaviour.afterSave.KeepsSchema
  before : ∀ m, ∀ hook ∈ e.behaviour.hooks m, hook.before.KeepsSchema
  after : ∀ m, ∀ hook ∈ e.behaviour.hooks m, hook.after.KeepsSchema

/-- A table store leaves the schema of what it writes alone. -/
theorem TableStore.write_keepsSchema (t : TableStore σ) :
    (t.write : Act (σ × Record) Unit).Moves Eq fun q => q.2.schema := by
  have hzoom : ∀ {β : Type} (f : Act σ β),
      (f.zoom .fst : Act (σ × Record) β).Moves Eq fun q => q.2.schema := fun f _ => rfl
  have hset : ∀ name value,
      (setProperty name value : Act (σ × Record) Unit).Moves Eq fun q => q.2.schema := by
    rintro name value ⟨s, r⟩
    simp only [setProperty, Act.perform_make]
    split
    next hset => exact (Record.schema_set hset).symm
    next => rfl
  refine (Act.moves_read _).bind fun m => ?_
  split
  · refine (Act.moves_read _).bind fun m => ?_
    dsimp only
    split
    · exact Act.moves_pure _
    · refine (Act.moves_ofExcept _).bind fun assigned => (Act.moves_ofExcept _).bind fun keys => ?_
      refine (hzoom _).bind fun affected => ?_
      split
      · exact Act.moves_fail _
      · exact Act.moves_pure _
  · refine (Act.moves_read _).bind fun m => (Act.moves_ofExcept _).bind fun columns => ?_
    refine (hzoom _).bind fun _ => ?_
    split
    · split
      · exact (hzoom _).bind fun id => hset _ _
      · exact Act.moves_pure _
    · exact Act.moves_pure _

/-! ### Code and nested saves -/

/-- The part of a recorded world that nested saves leave alone. -/
abbrev inHistory (s : Saving (Recorded Record σ)) : ModelName → Option Record :=
  ownWrites s.history

/-- Of models of nested saves, what these saves do to the history and to the models. -/
abbrev LeadsNested (p q : (ModelName → Option Record) × List (Named Record)) : Prop :=
  Lead (fun models => ∀ m ∈ models, m.name.isNested = true) Eq
    (List.Forall₂ (Agree Named.identity)) p q

section Code

variable {saver : Saver (Named Record) (Recorded Record σ)}
  (hsaver : ∀ route, (saver route).Moves LeadsNested (seen inHistory))

include hsaver

/-- Code leaves alone what was noted, and the identity of its record. -/
theorem Program.KeepsSchema.recorded_moves {p : Program Record Record σ} (hp : p.KeepsSchema)
    (place : Place) (own : Nat) :
    ((p.recorded place).run saver own).Moves Eq fun t => (inHistory t.1, t.2.identity) := by
  rw [Program.recorded, run_andThen]
  refine Act.Moves.bind ?_ fun outcome t => ?_
  · refine hp.decorate.moves ?_ ?_ ?_ own
    · rintro _ ⟨g, hg, rfl⟩ t
      have hschema := hg (t.1.world.1, t.2.model)
      exact Prod.ext rfl (Prod.ext rfl hschema)
    · rintro _ ⟨c, -, rfl⟩
      exact ⟨fun _ => rfl, fun _ => rfl, fun _ => rfl⟩
    · rintro _ _ ⟨models, put, hput, rfl, rfl⟩ route s m
      obtain ⟨hhistory, hmodels, -⟩ := hsaver route
        (s, (models m.model).map Named.decor.fresh) (by simp [Named.decor, ModelName.isNested])
      have hschemas := congrArg (List.map Prod.snd) (map_eq_of_forall₂_agree hmodels)
      simp only [List.map_map] at hschemas
      refine Prod.ext hhistory (Prod.ext rfl (hput _ _ ?_).symm)
      rw [List.map_map]
      exact hschemas.symm
  · simp only [run, Act.perform_make, Named.note, Act.perform_change, Act.perform_pure]
    exact Prod.ext (ownWrites_append_ran _ _ _ _ _).symm rfl

/-- Models that code asks for are nested if its own model is. -/
theorem Program.KeepsSchema.recorded_leads {p : Program Record Record σ} (hp : p.KeepsSchema)
    (place : Place) (own : Nat) :
    SaveEngine.Leads inHistory (·.name.isNested = true) Eq (Agree Named.identity)
      ((p.recorded place).run saver own) := by
  have hmoves := hp.recorded_moves hsaver place own
  have hname : ∀ t, t.2.name = (((p.recorded place).run saver own).perform t).2.2.name :=
    fun t => congrArg (fun q => q.2.1) (hmoves t)
  refine ⟨fun t hA => ?_, fun t ms hA hadd m hm => ?_⟩
  · obtain ⟨hhistory, hidentity⟩ := Prod.mk.inj (hmoves t)
    exact ⟨hhistory, hidentity, hname t ▸ hA⟩
  · have hkept := hname t
    rcases hrun : ((p.recorded place).run saver own).perform t with ⟨_ | o', s', m'⟩ <;>
      rw [hrun] at hadd hkept
    · cases hadd
    · obtain ⟨outcome, s₁, -, rfl, -⟩ := recorded_eq_ok hrun
      cases outcome with
      | proceed | skip => cases hadd
      | add models =>
        cases hadd
        obtain ⟨i, hi, rfl⟩ := List.mem_mapIdx.1 hm
        exact hkept ▸ hA

end Code

/-! ### Names of added models -/

/-- If more models are asked for, they are named after the one whose code asks, and in any case that
    one keeps its name. -/
structure Asks (f : Act (Saving (Recorded μ σ) × Named μ) (Outcome (Named μ))) : Prop where
  keeps : f.Moves Eq (·.2.name)
  added : ∀ t ms, (f.perform t).1 = .ok (.add ms) → ∃ models, ms = Named.added t.2.name models

section Asks

variable {saver : Saver (Named μ) (Recorded μ σ)}

/-- All code does so, whatever it saves in the meantime. -/
theorem Program.recorded_asks (p : Program μ μ σ) (place : Place) (own : Nat) :
    Asks ((p.recorded place).run saver own) := by
  have hkeeps : ((p.recorded place).run saver own).Moves Eq (·.2.name) := by
    rw [Program.recorded, run_andThen]
    refine Act.Moves.bind (p.all_true.decorate.moves ?_ ?_ ?_ own) fun outcome t => ?_
    · rintro _ ⟨g, -, rfl⟩ t
      rfl
    · rintro _ ⟨c, -, rfl⟩
      exact ⟨fun _ => rfl, fun _ => rfl, fun _ => rfl⟩
    · rintro _ _ ⟨models, put, -, rfl, rfl⟩ route s m
      rfl
    · simp only [run, Act.perform_make, Named.note, Act.perform_change, Act.perform_pure]
  refine ⟨hkeeps, fun t ms hadd => ?_⟩
  have hname : t.2.name = _ := hkeeps t
  rcases hrun : ((p.recorded place).run saver own).perform t with ⟨_ | o', s', m'⟩ <;>
    rw [hrun] at hadd hname
  · cases hadd
  · obtain ⟨outcome, s₁, -, rfl, -⟩ := recorded_eq_ok hrun
    cases outcome with
    | proceed | skip => cases hadd
    | add models =>
      cases hadd
      exact ⟨models.map (·.model), by rw [hname]⟩

theorem runBefore_asks {hooks : List (Hook (Named μ) (Recorded μ σ))}
    (hhooks : ∀ hook ∈ hooks, Asks (hook.before.run saver firstRoute)) :
    Asks (SaveEngine.runBefore saver hooks) := by
  induction hooks with
  | nil => exact ⟨Act.moves_pure _, nofun⟩
  | cons hook rest ih =>
    obtain ⟨hhook, hrest⟩ := List.forall_mem_cons.1 hhooks
    constructor
    · refine hhook.keeps.bind fun outcome => ?_
      cases outcome with
      | proceed => exact (ih hrest).keeps
      | skip | add => exact Act.moves_pure _
    · intro t ms hadd
      have hname : t.2.name = _ := hhook.keeps t
      rw [SaveEngine.runBefore, Act.perform_bind] at hadd
      rcases hf : (hook.before.run saver firstRoute).perform t with ⟨_ | outcome, t'⟩ <;>
        rw [hf] at hadd hname
      · cases hadd
      · cases outcome with
        | proceed => exact hname ▸ (ih hrest).added t' ms hadd
        | skip => cases hadd
        | add ms' =>
          cases hadd
          exact hhook.added t ms (by rw [hf])

end Asks

namespace SaveEngine

variable {e : SaveEngine Record σ} {frames : Nat → Frame}

theorem mem_recorded_hooks {e : SaveEngine μ σ} {m : Named μ} {hook : Hook (Named μ) (Recorded μ σ)}
    (h : hook ∈ (e.recorded frames).behaviour.hooks m) :
    ∃ i, ∃ hook' ∈ e.behaviour.hooks m.model, hook = hook'.recorded i := by
  obtain ⟨i, hi, rfl⟩ := List.mem_mapIdx.1 h
  exact ⟨i, _, List.getElem_mem hi, rfl⟩

section Recorded

variable {e : SaveEngine μ σ} {saver : Saver (Named μ) (Recorded μ σ)} {route : Nat}
  {view : Saving (Recorded μ σ) → γ} {A : Named μ → Prop} {R : γ → γ → Prop}
  {Q : Named μ → Named μ → Prop}

/-- The code of the models leads them where all programs of a kind do, if it is made of such. -/
theorem leadsCode_recorded_of {K : Program μ μ σ → Prop}
    (hleads : ∀ p, K p → ∀ place own, Leads view A R Q ((p.recorded place).run saver own))
    (hbeforeValidate : K e.behaviour.beforeValidate) (hbeforeSave : K e.behaviour.beforeSave)
    (hafterSave : K e.behaviour.afterSave)
    (hbefore : ∀ m, ∀ hook ∈ e.behaviour.hooks m, K hook.before)
    (hafter : ∀ m, ∀ hook ∈ e.behaviour.hooks m, K hook.after) :
    (e.recorded frames).LeadsCode saver route view A R Q where
  beforeValidate := (hleads _ hbeforeValidate _ _).moves
  beforeSave := hleads _ hbeforeSave _ _
  afterSave := (hleads _ hafterSave _ _).moves
  before m hook hhook := by
    obtain ⟨i, hook', hmem, rfl⟩ := mem_recorded_hooks hhook
    exact hleads _ (hbefore _ hook' hmem) _ _
  after m hook hhook := by
    obtain ⟨i, hook', hmem, rfl⟩ := mem_recorded_hooks hhook
    exact (hleads _ (hafter _ hook' hmem) _ _).moves

/-- Where all programs lead the models, the code does. -/
theorem leadsCode_recorded
    (hleads : ∀ (p : Program μ μ σ) place own,
      Leads view A R Q ((p.recorded place).run saver own)) :
    (e.recorded frames).LeadsCode saver route view A R Q :=
  leadsCode_recorded_of (fun p (_ : True) => hleads p) trivial trivial trivial
    (fun _ _ _ => trivial) fun _ _ _ => trivial

end Recorded

/-- A nested save leaves alone what was noted, and keeps the identities of its models. -/
theorem KeepsSchemas.save_leadsNested (he : e.KeepsSchemas) (bound route : Nat) :
    ((e.recorded frames).save bound route).Moves LeadsNested (seen inHistory) := by
  refine save_leads (fun route => TransactionScheme.ofFrame_frames (frames route))
    (fun saver hsaver route => ?_) bound route
  have hcode : (e.recorded frames).LeadsCode saver route inHistory (·.name.isNested = true) Eq
      (Agree Named.identity) :=
    leadsCode_recorded_of (fun _ hp => hp.recorded_leads hsaver) he.beforeValidate he.beforeSave
      he.afterSave he.before he.after
  exact { hcode with
    write := by
      rintro ⟨s, m⟩ hA
      have hschema := he.write route (s.world.1, m.model)
      exact ⟨(ownWrites_append_wrote _ hA _).symm, Prod.ext rfl hschema, hA⟩
    clearEdits := fun m hA => ⟨rfl, hA⟩
    control := ⟨fun _ => rfl, fun _ => rfl, fun _ => rfl⟩
    restore := by
      intro p m hA
      rw [Named.restore_eq]
      exact ⟨Prod.ext rfl (Record.schema_restore p m.model).symm, hA⟩
    setPhase := fun _ _ => rfl }

theorem beforeModel_asks {e : SaveEngine μ σ} {saver : Saver (Named μ) (Recorded μ σ)} :
    Asks ((e.recorded frames).beforeSave saver) := by
  have hown : Asks ((e.recorded frames).behaviour.beforeSave.run saver firstRoute) :=
    Program.recorded_asks _ _ _
  have hhooks : ∀ m, Asks (runBefore saver ((e.recorded frames).behaviour.hooks m)) := by
    refine fun m => runBefore_asks fun hook hhook => ?_
    obtain ⟨i, hook', -, rfl⟩ := mem_recorded_hooks hhook
    exact Program.recorded_asks _ _ _
  constructor
  · refine hown.keeps.bind fun outcome => ?_
    cases outcome with
    | proceed => exact fun t => (hhooks t.2).keeps t
    | skip | add => exact Act.moves_pure _
  · intro t ms hadd
    have hname : t.2.name = _ := hown.keeps t
    rw [SaveEngine.beforeSave, Act.perform_bind] at hadd
    rcases hf : ((e.recorded frames).behaviour.beforeSave.run saver firstRoute).perform t with
      ⟨_ | outcome, t'⟩ <;> rw [hf] at hadd hname
    · cases hadd
    · cases outcome with
      | proceed => exact hname ▸ (hhooks t'.2).added t' ms hadd
      | skip => cases hadd
      | add ms' =>
        cases hadd
        exact hown.added t ms (by rw [hf])

/-- A save keeps the names of its models. -/
theorem save_keeps_names [Model μ] (e : SaveEngine μ σ) (frames : Nat → Frame) (bound route : Nat) :
    ((e.recorded frames).save bound route).Moves
      (Lead (fun models => ∀ m ∈ models, True) Eq (List.Forall₂ (Agree Named.name)))
      (seen fun _ => ()) := by
  refine save_leads (fun route => TransactionScheme.ofFrame_frames (frames route))
    (fun saver _ route => ?_) bound route
  have hcode : (e.recorded frames).LeadsCode saver route (fun _ => ()) (fun _ => True) Eq
      (Agree Named.name) :=
    leadsCode_recorded fun p place own =>
      ⟨fun t _ => ⟨rfl, (p.recorded_asks place own).keeps t, trivial⟩, fun _ _ _ _ _ _ => trivial⟩
  exact { hcode with
    write := fun _ _ => ⟨rfl, rfl, trivial⟩
    clearEdits := fun _ _ => ⟨rfl, trivial⟩
    control := ⟨fun _ => rfl, fun _ => rfl, fun _ => rfl⟩
    restore := fun p m _ => ⟨by rw [Named.restore_eq]; rfl, trivial⟩
    setPhase := fun _ _ => rfl }

end SaveEngine

end RecordStore
