import RecordStore.Proofs.Save.FirstWrites
import RecordStore.Proofs.Save.Preparation
import RecordStore.Proofs.Save.Stage

/-!
# What a failed save gives back

A save notes what each of its models was before its first write, and nothing that happens later
changes the note: neither the models' code, nor nested saves, nor the second write after the hooks
(`Noted`). So when the save fails, wherever it breaks off, every record that was about to be written
is given back (`SaveEngine.save_gives_back`).
-/

namespace RecordStore

variable {σ : Type}

/-- What of an entry stays when its model's code runs. -/
def BatchEntry.bearing (p : BatchEntry (Named Record)) :
    (ModelName × Schema) × Option PriorState × Bool :=
  (p.model.identity, p.prior, p.hooksDone)

/-- A batch of which nothing was written yet. -/
structure Unwritten (t : BatchWorld (Named Record) (Recorded Record σ)) : Prop where
  history : inHistory t.1 = fun _ => none
  distinct : Distinct t.2
  entries : ∀ p ∈ t.2, p.model.name.isNested = false ∧ p.prior = none

/-- What is noted of a model is what it was before its first write. -/
structure NotedOf (s : Saving (Recorded Record σ)) (p : BatchEntry (Named Record)) : Prop where
  own : p.model.name.isNested = false
  prior : p.prior = (inHistory s p.model.name).map PriorState.ofModel
  schema : ∀ before, inHistory s p.model.name = some before → before.schema = p.model.model.schema

/-- A batch of which all models are noted. -/
structure Noted (t : BatchWorld (Named Record) (Recorded Record σ)) : Prop where
  distinct : Distinct t.2
  entries : ∀ p ∈ t.2, NotedOf t.1 p

/-- A batch that was written: all models are noted, and it was noted of all but the skipped ones that
    they were about to be written. -/
structure Written (t : BatchWorld (Named Record) (Recorded Record σ)) : Prop extends Noted t where
  written : ∀ p ∈ t.2, p.isSkipped = false → p.prior ≠ none

/-- A batch in the course of being written. -/
structure Writing (s : Saving (Recorded Record σ)) (pre rest : List (BatchEntry (Named Record))) :
    Prop where
  noted : Noted (s, pre ++ rest)
  written : ∀ p ∈ pre, p.isSkipped = false → p.prior ≠ none
  unwritten : ∀ p ∈ rest, p.prior = none

section Batch

variable {s s' : Saving (Recorded Record σ)} {batch batch' pre rest : List (BatchEntry (Named Record))}
  {p p' : BatchEntry (Named Record)}

theorem distinct_of_bearing (h : Distinct batch)
    (hbearing : List.Forall₂ (Agree BatchEntry.bearing) batch batch') : Distinct batch' := by
  have heq := map_eq_of_forall₂_agree hbearing
  have hnames : batch.map (·.model.name) = batch'.map (·.model.name) := by
    have heq := congrArg (List.map fun q => q.1.1) heq
    rwa [List.map_map, List.map_map] at heq
  refine ⟨hnames ▸ h.nodup, fun p hp asker i hadded => ?_⟩
  obtain ⟨q, hq, hsame⟩ := exists_of_forall₂_agree hbearing (List.mem_map_of_mem hp)
  have hname : q.model.name = p.model.name := congrArg (·.1.1) hsame
  obtain ⟨w, hw, hasker, hdone⟩ := h.askers q hq asker i (hname.trans hadded)
  obtain ⟨w', hw', hsame'⟩ := List.mem_map.1 (heq ▸ List.mem_map_of_mem hw)
  have hname' : w'.model.name = w.model.name := congrArg (·.1.1) hsame'
  have hdone' : w'.hooksDone = w.hooksDone := congrArg (·.2.2) hsame'
  exact ⟨w', hw', hname'.trans hasker, hdone'.trans hdone⟩

theorem Unwritten.congr (h : Unwritten (s, batch)) (hhistory : inHistory s = inHistory s')
    (hbearing : List.Forall₂ (Agree BatchEntry.bearing) batch batch') : Unwritten (s', batch') := by
  refine ⟨hhistory ▸ h.history, distinct_of_bearing h.distinct hbearing, fun p hp => ?_⟩
  obtain ⟨q, hq, hsame⟩ := exists_of_forall₂_agree hbearing (List.mem_map_of_mem hp)
  have hentry := h.entries q hq
  rwa [show q.model.name = p.model.name from congrArg (·.1.1) hsame,
    show q.prior = p.prior from congrArg (·.2.1) hsame] at hentry

/-- One entry goes on. -/
theorem Unwritten.step (h : Unwritten (s, pre ++ p :: rest)) (hhistory : inHistory s = inHistory s')
    (hname : p'.model.name = p.model.name) (hprior : p'.prior = p.prior)
    (hdone : p'.hooksDone = true) : Unwritten (s', pre ++ p' :: rest) := by
  refine ⟨hhistory ▸ h.history, h.distinct.step hname fun _ => hdone, fun q hq => ?_⟩
  rcases List.mem_append.1 hq with hq | hq
  · exact h.entries q (by simp [hq])
  · rcases List.mem_cons.1 hq with rfl | hq
    · rw [hname, hprior]
      exact h.entries p (by simp)
    · exact h.entries q (by simp [hq])

/-- One entry's code asks for more models. -/
theorem Unwritten.add (h : Unwritten (s, pre ++ p :: rest)) (hhistory : inHistory s = inHistory s')
    (hnot : p.hooksDone = false) (hname : p'.model.name = p.model.name) (hprior : p'.prior = p.prior)
    (hdone : p'.hooksDone = true) (models : List Record) :
    Unwritten (s', (Named.added p.model.name models).map .fresh ++ (pre ++ p' :: rest)) := by
  have hstep : Unwritten (s', pre ++ p' :: rest) := h.step hhistory hname hprior hdone
  refine ⟨hstep.history, h.distinct.add hnot hname hdone models, fun q hq => ?_⟩
  rcases List.mem_append.1 hq with hq | hq
  · obtain ⟨m, hm, rfl⟩ := List.mem_map.1 hq
    obtain ⟨i, hi, rfl⟩ := List.mem_mapIdx.1 hm
    exact ⟨(h.entries p (by simp)).1, rfl⟩
  · exact hstep.entries q hq

theorem Noted.congr (h : Noted (s, batch)) (hhistory : inHistory s = inHistory s')
    (hbearing : List.Forall₂ (Agree BatchEntry.bearing) batch batch') : Noted (s', batch') := by
  refine ⟨distinct_of_bearing h.distinct hbearing, fun p hp => ?_⟩
  obtain ⟨q, hq, hsame⟩ := exists_of_forall₂_agree hbearing (List.mem_map_of_mem hp)
  have hname : q.model.name = p.model.name := congrArg (·.1.1) hsame
  have hschema : q.model.model.schema = p.model.model.schema := congrArg (·.1.2) hsame
  have hprior : q.prior = p.prior := congrArg (·.2.1) hsame
  obtain ⟨hown, hnoted, hkept⟩ := h.entries q hq
  rw [hname, hhistory] at hnoted hkept
  exact ⟨hname ▸ hown, hprior ▸ hnoted, fun before hbefore => (hkept before hbefore).trans hschema⟩

/-- One entry goes on, and is noted. -/
theorem Noted.step (h : Noted (s, pre ++ p :: rest)) (hname : p'.model.name = p.model.name)
    (hdone : p.hooksDone = true → p'.hooksDone = true)
    (hothers : ∀ name, name ≠ p.model.name → inHistory s' name = inHistory s name)
    (hp : NotedOf s' p') : Noted (s', pre ++ p' :: rest) := by
  have hother : ∀ q, q ∈ pre ∨ q ∈ rest → NotedOf s' q := by
    intro q hq
    have hsame := hothers q.model.name (h.distinct.ne_name hq)
    obtain ⟨hown, hprior, hschema⟩ := h.entries q (by rcases hq with hq | hq <;> simp [hq])
    rw [← hsame] at hprior hschema
    exact ⟨hown, hprior, hschema⟩
  refine ⟨h.distinct.step hname hdone, fun q hq => ?_⟩
  rcases List.mem_append.1 hq with hq | hq
  · exact hother q (.inl hq)
  · rcases List.mem_cons.1 hq with rfl | hq
    · exact hp
    · exact hother q (.inr hq)

theorem Unwritten.noted (h : Unwritten (s, batch)) : Noted (s, batch) := by
  refine ⟨h.distinct, fun p hp => ?_⟩
  obtain ⟨hown, hprior⟩ := h.entries p hp
  have hnone : inHistory s p.model.name = none := congrFun h.history _
  refine ⟨hown, ?_, ?_⟩
  · rw [hprior, hnone]
    rfl
  · rw [hnone]
    exact nofun

end Batch

/-! ### The phases of a batch -/

namespace SaveEngine

variable {e : SaveEngine Record σ} {saver : Saver (Named Record) (Recorded Record σ)}
  (frames : Nat → Frame) (route : Nat)

section Phases

variable (he : e.KeepsSchemas) (hsaver : ∀ route, (saver route).Moves LeadsNested (seen inHistory))

include he hsaver

/-- Code leaves alone what was noted, and the identities of the models. -/
theorem KeepsSchemas.leadsCode : (e.recorded frames).LeadsCode saver route inHistory
    (fun _ => True) Eq (Agree Named.identity) := by
  refine leadsCode_recorded_of (fun p hp place own => ⟨?_, fun _ _ _ _ _ _ => trivial⟩)
    he.beforeValidate he.beforeSave he.afterSave he.before he.after
  intro t _
  obtain ⟨hhistory, hidentity⟩ := Prod.mk.inj (hp.recorded_moves hsaver place own t)
  exact ⟨hhistory, hidentity, trivial⟩

omit he hsaver in
theorem zoom_modelLens_bearing {β : Type} {f : Act (Saving (Recorded Record σ) × Named Record) β}
    (hf : f.Moves (Lead (fun _ => True) Eq (Agree Named.identity)) (seen inHistory)) :
    (f.zoom modelLens).Moves (Lead (fun _ => True) Eq (Agree BatchEntry.bearing))
      (seen inHistory) := by
  rintro ⟨s, p⟩ -
  obtain ⟨hhistory, hidentity, -⟩ := hf (s, p.model) trivial
  exact ⟨hhistory, Prod.ext hidentity rfl, trivial⟩

theorem KeepsSchemas.validateEntry_bearing :
    ((e.recorded frames).validateEntry saver).Moves
      (Lead (fun _ => True) Eq (Agree BatchEntry.bearing)) (seen inHistory) := by
  refine (Act.moves_read _).bind fun isValidated => ?_
  split
  · refine (zoom_modelLens_bearing (he.leadsCode frames 0 hsaver).validateModel).bind fun _ => ?_
    exact fun _ _ => ⟨rfl, rfl, trivial⟩
  · exact Act.moves_pure ()

/-- What comes before the write, also if more models are put in front then. -/
theorem KeepsSchemas.beforePhase_unwritten (batch pre : List (BatchEntry (Named Record)))
    (s : Saving (Recorded Record σ)) (h : Unwritten (s, pre ++ batch)) :
    let out := (e.recorded frames).beforePhase saver batch s
    Unwritten (out.2.1, pre ++ out.2.2) ∧
      ∀ models, out.1 = .ok (some models) →
        Unwritten (out.2.1, models.map .fresh ++ (pre ++ out.2.2)) := by
  induction batch generalizing pre s with
  | nil => exact ⟨h, fun _ h => by cases h⟩
  | cons p rest ih =>
    -- From an entry that had its turn, the phase goes on with the rest.
    have hgoOn : ∀ {s₁ : Saving (Recorded Record σ)} {p' : BatchEntry (Named Record)},
        Unwritten (s₁, pre ++ p' :: rest) →
        let out := (e.recorded frames).beforePhase saver rest s₁
        Unwritten (out.2.1, pre ++ p' :: out.2.2) ∧
          ∀ models, out.1 = .ok (some models) →
            Unwritten (out.2.1, models.map .fresh ++ (pre ++ p' :: out.2.2)) := by
      intro s₁ p' h₁
      rw [← List.singleton_append, ← List.append_assoc] at h₁
      have hrest := ih _ s₁ h₁
      simpa only [List.append_assoc, List.singleton_append] using hrest
    rw [beforePhase]
    rcases hdone : p.hooksDone with _ | _
    · obtain ⟨hhistory, hidentity, -⟩ :=
        (he.leadsCode frames 0 hsaver).beforeModel.moves (s, p.model) trivial
      have hadded := (@beforeModel_asks _ _ frames e saver).added (s, p.model)
      rcases hf : ((e.recorded frames).beforeSave saver).perform (s, p.model) with
        ⟨_ | outcome, s₁, m'⟩ <;> rw [hf] at hhistory hidentity hadded
      all_goals
        have hname : m'.name = p.model.name := congrArg Prod.fst hidentity.symm
        have hstep : ∀ isSkipped, Unwritten (s₁, pre ++ { p with
            model := m', hooksDone := true, isSkipped } :: rest) :=
          fun _ => h.step hhistory hname rfl rfl
        simp only [Bool.false_eq_true, if_false]
      · exact ⟨hstep _, fun _ h => by cases h⟩
      · cases outcome with
        | add ms =>
          refine ⟨hstep _, fun models hmodels => ?_⟩
          cases hmodels
          obtain ⟨models, rfl⟩ := hadded _ rfl
          refine h.add hhistory hdone ?_ ?_ ?_ models
          · exact hname
          all_goals rfl
        | proceed | skip => exact hgoOn (hstep _)
    · exact hgoOn h

theorem KeepsSchemas.prepare_unwritten (restarts : Nat) :
    ((e.recorded frames).prepare saver route restarts).Keeps Unwritten := by
  have hphase : ∀ (s : Saving (Recorded Record σ)) batch phase, Unwritten (s, batch) →
      Unwritten (s.setPhase route phase, batch) :=
    fun s batch phase h => ⟨h.history, h.distinct, h.entries⟩
  refine prepare_moves (moveTo_keeps route hphase) ?_ (fun s batch => ?_) restarts
  · rintro ⟨s, batch⟩ h
    obtain ⟨hhistory, hbearing, -⟩ :=
      (he.validateEntry_bearing frames hsaver).forEach_lead (s, batch) fun _ _ => trivial
    exact h.congr hhistory hbearing
  · exact ⟨fun h => (he.beforePhase_unwritten frames hsaver batch [] s h).1, fun models hmodels h =>
      hphase _ _ _ ((he.beforePhase_unwritten frames hsaver batch [] s h).2 models hmodels)⟩

omit hsaver in
/-- A write of a model of the save itself is noted if it is the first one. -/
theorem KeepsSchemas.perform_write (s : Saving (Recorded Record σ)) {m : Named Record}
    (hown : m.name.isNested = false) :
    let out := ((e.recorded frames).write route).perform (s, m)
    m.identity = out.2.2.identity ∧ ∀ name,
      inHistory out.2.1 name = (inHistory s name).or (if m.name = name then some m.model else none) := by
  have hschema := he.write route (s.world.1, m.model)
  rw [perform_write_recorded]
  rcases hw : (e.routes route).writer.write.perform (s.world.1, m.model) with ⟨_ | _, w, m'⟩ <;>
    rw [hw] at hschema
  all_goals exact ⟨Prod.ext rfl hschema, ownWrites_append_own _ hown _⟩

omit hsaver in
theorem KeepsSchemas.writeEntry_noted {s : Saving (Recorded Record σ)}
    {pre rest : List (BatchEntry (Named Record))} {p : BatchEntry (Named Record)}
    (h : Noted (s, pre ++ p :: rest)) (hnone : p.prior = none) :
    let out := ((e.recorded frames).writeEntry route).perform (s, p)
    Noted (out.2.1, pre ++ out.2.2 :: rest) ∧
      (out.2.2.isSkipped = false → out.2.2.prior ≠ none) := by
  obtain ⟨hown, hprior, -⟩ := h.entries p (by simp)
  have hfirst : inHistory s p.model.name = none := by simpa [hnone] using hprior.symm
  obtain ⟨hidentity, hhistory⟩ := he.perform_write frames route s hown
  rw [perform_writeEntry]
  split
  next hskip => exact ⟨h, by simp [hskip]⟩
  next =>
    rcases hw : ((e.recorded frames).write route).perform (s, p.model) with ⟨r, s', m'⟩
    rw [hw] at hidentity hhistory
    dsimp only at hidentity hhistory ⊢
    have hname : m'.name = p.model.name := congrArg Prod.fst hidentity.symm
    have hnoted : inHistory s' p.model.name = some p.model.model := by
      rw [hhistory, hfirst, if_pos rfl, Option.none_or]
    refine ⟨h.step hname id (fun name hne => ?_) ⟨hname ▸ hown, ?_, ?_⟩, fun _ => nofun⟩
    · rw [hhistory, if_neg hne.symm, Option.or_none]
    · rw [hname, hnoted]
      rfl
    · rw [hname, hnoted]
      intro before hbefore
      cases hbefore
      exact congrArg Prod.snd hidentity

/-- What comes after the write of a model changes nothing that was noted. -/
theorem KeepsSchemas.finish_kept {s : Saving (Recorded Record σ)} {m : Named Record}
    (hown : m.name.isNested = false) (hwritten : inHistory s m.name ≠ none) :
    let out := (do (e.recorded frames).afterSave saver route
                   (e.recorded frames).writePending route :
      Act (Saving (Recorded Record σ) × Named Record) Unit).perform (s, m)
    inHistory s = inHistory out.2.1 ∧ m.identity = out.2.2.identity := by
  obtain ⟨hhistory, hidentity, -⟩ :=
    (he.leadsCode frames route hsaver).afterModel (s, m) trivial
  rw [Act.perform_bind]
  rcases hf : ((e.recorded frames).afterSave saver route).perform (s, m) with ⟨_ | _, s₁, m₁⟩ <;>
    rw [hf] at hhistory hidentity
  · exact ⟨hhistory, hidentity⟩
  · have hname : m.name = m₁.name := congrArg Prod.fst hidentity
    obtain ⟨hidentity', hhistory'⟩ :=
      he.perform_write frames route s₁ (hname ▸ hown)
    dsimp only
    rw [perform_writePending]
    split
    · rw [Act.perform_bind, perform_validate]
      rcases Model.validate m₁ with err | _
      · exact ⟨hhistory, hidentity⟩
      · refine ⟨funext fun name => ?_, hidentity.trans hidentity'⟩
        -- This is not the first write of the model.
        rw [hhistory', ← show inHistory s = inHistory s₁ from hhistory]
        split
        next heq =>
          rw [← heq, ← hname]
          rcases h : inHistory s m.name with _ | before
          · exact absurd h hwritten
          · rfl
        next => rw [Option.or_none]
    · exact ⟨hhistory, hidentity⟩

/-- What comes after the write changes nothing that was noted. -/
theorem KeepsSchemas.finishEntry_noted {s : Saving (Recorded Record σ)}
    {pre rest : List (BatchEntry (Named Record))} {p : BatchEntry (Named Record)}
    (h : Noted (s, pre ++ p :: rest)) (hwritten : p.isSkipped = false → p.prior ≠ none) :
    let out := ((e.recorded frames).finishEntry saver route).perform (s, p)
    Noted (out.2.1, pre ++ out.2.2 :: rest) ∧ (out.2.2.isSkipped = false → out.2.2.prior ≠ none) := by
  obtain ⟨hown, hprior, -⟩ := h.entries p (by simp)
  rw [perform_finishEntry]
  split
  next => exact ⟨h, hwritten⟩
  next hskip =>
    have hfirst : inHistory s p.model.name ≠ none := by
      refine fun hnone => hwritten (Bool.eq_false_iff.2 hskip) ?_
      rw [hprior, hnone]
      rfl
    obtain ⟨hhistory, hidentity⟩ :=
      he.finish_kept frames route hsaver hown hfirst
    refine ⟨h.congr hhistory (List.rel_append (Std.Refl.refl _) (.cons ?_ (Std.Refl.refl _))),
      hwritten⟩
    exact Prod.ext hidentity rfl

omit hsaver in
theorem KeepsSchemas.forEach_writeEntry :
    (Act.forEach ((e.recorded frames).writeEntry route)).Ensures Unwritten Written Noted := by
  have hstep : ∀ s pre p rest, Writing s pre (p :: rest) →
      let out := ((e.recorded frames).writeEntry route).perform (s, p)
      Writing out.2.1 (pre ++ [out.2.2]) rest := by
    intro s pre p rest h
    obtain ⟨hnoted, hwritten⟩ := he.writeEntry_noted frames route h.noted
      (h.unwritten p (by simp))
    refine ⟨?_, List.forall_mem_append.2 ⟨h.written, by simpa using hwritten⟩,
      fun q hq => h.unwritten q (by simp [hq])⟩
    rwa [List.append_assoc]
  rintro ⟨s, batch⟩ h
  have hstart : Writing s [] batch := ⟨h.noted, by simp, fun p hp => (h.entries p hp).2⟩
  obtain ⟨visited, rest, heq, hend, hok⟩ := Act.each_partway hstep hstart
  have hnoted : Noted (_, visited ++ rest) := hend.noted
  rw [← heq] at hnoted
  rw [Act.forEach, Act.perform_make]
  rcases hrun : Act.each ((e.recorded frames).writeEntry route) batch s with ⟨_ | _, s', batch'⟩ <;>
    rw [hrun] at heq hnoted hok
  · exact hnoted
  · obtain rfl : rest = [] := hok rfl
    obtain rfl : batch' = visited := heq.trans (List.append_nil _)
    exact ⟨hnoted, hend.written⟩

theorem KeepsSchemas.forEach_finishEntry :
    (Act.forEach ((e.recorded frames).finishEntry saver route)).Keeps Written := by
  rintro ⟨s, batch⟩ h
  refine Act.each_keeps (fun s batch => Written (s, batch)) (fun s pre p rest h => ?_) h
  obtain ⟨hnoted, hwritten⟩ := he.finishEntry_noted frames route hsaver h.toNoted
    (h.written p (by simp))
  refine ⟨hnoted, fun q hq => ?_⟩
  rcases List.mem_append.1 hq with hq | hq
  · exact h.written q (by simp [hq])
  · rcases List.mem_cons.1 hq with rfl | hq
    · exact hwritten
    · exact h.written q (by simp [hq])

/-- Wherever a batch breaks off, its models are noted. -/
theorem KeepsSchemas.runPhases_noted (bound : Nat) :
    ((e.recorded frames).runPhases saver route bound).Ensures Unwritten Written Noted := by
  have hunwritten : ∀ t : BatchWorld (Named Record) (Recorded Record σ), Unwritten t → Noted t :=
    fun t h => h.noted
  refine ((he.prepare_unwritten frames route hsaver _).ensures hunwritten).bind fun _ => ?_
  refine ((moveTo_keeps route ?_ .save).ensures hunwritten).bind fun _ => ?_
  · exact fun s batch phase h => ⟨h.history, h.distinct, h.entries⟩
  refine (he.forEach_writeEntry frames route).bind fun _ => ?_
  refine ((moveTo_keeps route ?_ .afterSave).ensures fun _ h => h.toNoted).bind fun _ => ?_
  · exact fun s batch phase h => ⟨h.toNoted.congr rfl (Std.Refl.refl _), h.written⟩
  exact (he.forEach_finishEntry frames route hsaver).ensures fun _ h => h.toNoted

end Phases

/-! ### Failed saves -/

omit route in
/-- The batch of given models is unwritten at first. -/
theorem unwritten_given {s : Saving (Recorded Record σ)} (hhistory : inHistory s = fun _ => none)
    {models : List Record} {named : List (Named Record)}
    (hnames : List.Forall₂ (Agree Named.identity) (Named.given models) named) :
    Unwritten (s, openBatch named) := by
  have heq : (openBatch named).map (·.model.name) = (List.range models.length).map .given := by
    have heq := congrArg (List.map Prod.fst) (map_eq_of_forall₂_agree hnames)
    rw [List.map_map, List.map_map] at heq
    rw [openBatch, List.map_map]
    refine heq.symm.trans ?_
    exact List.ext_getElem (by simp [Named.given]) (by simp [Named.given, Named.identity])
  refine ⟨hhistory, .of_given heq, fun p hp => ⟨?_, ?_⟩⟩
  · obtain ⟨i, -, hi⟩ := List.mem_map.1 (heq ▸ List.mem_map_of_mem hp)
    rw [← hi]
    rfl
  · obtain ⟨m, -, rfl⟩ := List.mem_map.1 hp
    rfl

/-- An entry that was noted is given back. -/
theorem undo_givenBack {s : Saving (Recorded Record σ)} {p : BatchEntry (Named Record)}
    (h : NotedOf s p) :
    (undo p).model.name = p.model.name ∧
      ∀ before, firstWrite s.history p.model.name = some before →
        before.GivenBack (undo p).model.model := by
  have hfirst : inHistory s p.model.name = firstWrite s.history p.model.name :=
    ownWrites_eq h.own s.history
  obtain ⟨-, hprior, hschema⟩ := h
  rw [hfirst] at hprior hschema
  rcases hbefore : firstWrite s.history p.model.name with _ | before <;> rw [hbefore] at hprior
  · simp only [undo, hprior, Option.map_none]
    exact ⟨trivial, fun _ h => by cases h⟩
  · simp only [undo, hprior, Option.map_some, Named.restore_eq]
    refine ⟨trivial, fun before' h => ?_⟩
    cases h
    exact Record.restore_givenBack (hschema before hbefore).symm

/-- A batch that fails leaves all of its models noted until they are given back. -/
theorem KeepsSchemas.runBatch_noted (he : e.KeepsSchemas)
    (hsaver : ∀ route, (saver route).Moves LeadsNested (seen inHistory))
    (hphases : ∀ route, (saver route).Moves Eq fun p => p.1.phases) (bound : Nat)
    {t t' : BatchWorld (Named Record) (Recorded Record σ)} {r : Except StoreError Unit}
    (h : Unwritten t)
    (hrun : ((e.recorded frames).runBatch (frames route) saver route bound).perform t = (r, t')) :
    Noted t' := by
  have hcontrol : ((e.recorded frames).batchConnection route).Moves Eq
      fun t => (inHistory t.1, t.2) := ⟨fun _ => rfl, fun _ => rfl, fun _ => rfl⟩
  have hkept : ∀ {t t' : BatchWorld (Named Record) (Recorded Record σ)},
      (inHistory t'.1, t'.2) = (inHistory t.1, t.2) → Noted t → Noted t' := by
    rintro ⟨s, batch⟩ ⟨s', batch'⟩ heq h
    obtain ⟨hhistory, rfl⟩ := Prod.mk.inj heq
    exact h.congr hhistory.symm (Std.Refl.refl _)
  rcases runBatch_once (frames route) hphases hcontrol hrun with
    ⟨hsame, -⟩ | ⟨t₁, hbefore, hafter, -⟩
  · exact hkept hsame h.noted
  · have h₁ : Unwritten t₁ := by
      obtain ⟨hhistory, hbatch⟩ := Prod.mk.inj hbefore
      exact ⟨hhistory.trans h.history, hbatch ▸ h.distinct, hbatch ▸ h.entries⟩
    refine hkept hafter ?_
    have hphases := he.runPhases_noted frames route hsaver bound t₁ h₁
    rcases hrun : ((e.recorded frames).runPhases saver route bound).perform t₁ with ⟨_ | _, t₂⟩ <;>
      rw [hrun] at hphases
    · exact hphases
    · exact hphases.toNoted

/-- When a save fails, every model of its batch that was about to be written is given back. -/
theorem KeepsSchemas.finalBatch_gives_back (he : e.KeepsSchemas) (bound : Nat) {s : Saving σ}
    (hphase : s.phases route ≠ .afterSave) (models : List Record) {err : StoreError}
    (hfail : (((e.recorded frames).save bound route).perform
      (s.recorded, Named.given models)).1 = .error err) :
    ∀ p ∈ e.finalBatch frames bound route s models, ∀ before,
      firstWrite (e.history frames bound route s models) p.model.name = some before →
        before.GivenBack p.model.model := by
  have hframes' : (e.recorded frames).HasFrames frames :=
    fun route => TransactionScheme.ofFrame_frames (frames route)
  have hcourse := save_course hframes' bound (s := s.recorded) hphase (Named.given models)
  rw [history, finalBatch]
  generalize ((e.recorded frames).save bound route).perform (s.recorded, Named.given models) = out
    at hcourse hfail
  have hvalidated : ∀ {depth : Nat} {r : Except StoreError Unit} {s₁ : Saving (Recorded Record σ)}
      {models₁ : List (Named Record)},
      (Act.forEach ((e.recorded frames).validateModel ((e.recorded frames).save depth))).perform
        (s.recorded.setPhase route .validate, Named.given models) = (r, s₁, models₁) →
      Unwritten (s₁, openBatch models₁) := by
    intro depth r s₁ models₁ hvalid
    obtain ⟨hhistory, hnames, -⟩ := (he.leadsCode frames route
      (he.save_leadsNested depth)).validateModel.forEach_lead
        (s.recorded.setPhase route .validate, Named.given models) fun _ _ => trivial
    rw [hvalid] at hhistory hnames
    exact unwritten_given (hhistory.symm.trans ownWrites_nil) hnames
  cases hcourse with
  | tooDeep hbound => exact fun _ _ _ hbefore => by cases hbefore
  | empty hmodels => cases hfail
  | invalid hbound hvalid =>
    subst hbound
    rw [lastBatch_of_invalid hvalid]
    intro p hp before hbefore
    have hunwritten := hvalidated hvalid
    have hnone := congrFun hunwritten.history p.model.name
    rw [inHistory, ownWrites_eq (hunwritten.entries p hp).1] at hnone
    cases hbefore.symm.trans hnone
  | @ran depth r s₁ s₂ models₁ batch hbound hmodels hvalid hrun =>
    subst hbound
    obtain rfl : r = .error err := hfail
    rw [lastBatch_of_ran hmodels hvalid hrun]
    intro p hp
    obtain ⟨q, hq, rfl⟩ := List.mem_map.1 hp
    have hnoted := he.runBatch_noted frames route (he.save_leadsNested _)
      (save_keeps_phases hframes' _) _ (hvalidated hvalid) hrun
    obtain ⟨hname, hback⟩ := undo_givenBack (hnoted.entries q hq)
    rw [hname]
    exact hback

/-- When a save fails, every model that was about to be written is given back as it was right before
    its first write: each model of the batch, and so each model that was given to the save. -/
theorem save_gives_back {frames : Nat → Frame} (hframes : e.HasFrames frames) (he : e.KeepsSchemas)
    (bound : Nat) {route : Nat} (s : Saving σ) (hphase : s.phases route ≠ .afterSave)
    (models : List Record) {err : StoreError}
    (hfail : ((e.save bound route).perform (s, models)).1 = .error err) :
    (∀ p ∈ e.finalBatch frames bound route s models, ∀ before,
      firstWrite (e.history frames bound route s models) p.model.name = some before →
        before.GivenBack p.model.model) ∧
      ∀ i after, ((e.save bound route).perform (s, models)).2.2[i]? = some after → ∀ before,
        firstWrite (e.history frames bound route s models) (.given i) = some before →
          before.GivenBack after := by
  have hsame := perform_save_eq hframes bound route s models
  rw [hsame] at hfail
  have hbatch := he.finalBatch_gives_back frames route bound hphase models hfail
  refine ⟨hbatch, fun i after hafter before hbefore => ?_⟩
  have hnames := (save_keeps_names e frames bound route (s.recorded, Named.given models)
    fun _ _ => trivial).2.1
  have hlast := save_lastBatch (e := e.recorded frames)
    (fun route => TransactionScheme.ofFrame_frames (frames route)) bound (s := s.recorded) hphase
    (Named.given models)
  rw [hsame] at hafter
  dsimp only [seen] at hafter hnames hlast
  rw [List.getElem?_map, Option.map_eq_some_iff] at hafter
  obtain ⟨m, hm, rfl⟩ := hafter
  have hname : m.name = .given i := by
    have heq := congrArg (·[i]?) (map_eq_of_forall₂_agree hnames)
    rw [List.getElem?_map, List.getElem?_map, hm, Named.given, List.getElem?_mapIdx] at heq
    rcases hi : models[i]? with _ | m₀ <;> rw [hi] at heq
    · cases heq
    · exact (Option.some.inj heq).symm
  have hmem := List.mem_of_getElem? hm
  rw [hlast, givenModels] at hmem
  obtain ⟨p, hp, rfl⟩ := List.mem_map.1 hmem
  exact hbatch p (List.mem_of_mem_drop hp) before (hname ▸ hbefore)

end SaveEngine

namespace Rehearsal.Stage

/-- Saves in which an item is confirmed after its write, and saved once more there. -/
def confirmingEngine : SaveEngine Record Stage where
  routes _ := {
    writer := (TableStore.mk (connection default 0)
      { table := "item", schema := itemSchema }).modelWriter }
  behaviour := {
    afterSave := .act (Act.change fun (w, m) =>
        (w, (m.set "name" (.string "confirmed")).toOption.getD m)) fun _ =>
      .save none (fun m => [m]) (fun ms m => ms.headD m) fun _ _ => .done .proceed }

theorem confirmingEngine_keepsSchemas : confirmingEngine.KeepsSchemas where
  write _ := TableStore.write_keepsSchema _
  beforeValidate := trivial
  beforeSave := trivial
  afterSave := by
    refine ⟨fun (w, m) => ?_, fun _ => ⟨fun ms m hms => ?_, fun _ _ => trivial⟩⟩
    · simp only [Act.perform_change]
      rcases h : m.set "name" (.string "confirmed") with _ | m'
      · rfl
      · exact (Record.schema_set h).symm
    · rcases ms with _ | ⟨m', rest⟩
      · rfl
      · exact (List.cons.inj hms).1
  before _ _ hhook := by cases hhook
  after _ _ hhook := by cases hhook

/-- A stage on whose first line nothing can be committed. -/
def uncommitting : Saving Stage where
  world := { lines := fun _ => { failures := fun call =>
    if call = .commit then .after 0 else .never } }

/-- An item that could not be committed is given back: it is flagged again, as right before its first
    write. -/
theorem item_given_back :
    ((confirmingEngine.save 3 0).perform (uncommitting, [item "a"])).1 =
        .error (Call.commit.failure "db") ∧
      ∃ before after : Record, ((confirmingEngine.save 3 0).perform (uncommitting, [item "a"])).2.2[0]? =
          some after ∧
        before.edits = ["name"] ∧ before.GivenBack after := by
  have hfail : ((confirmingEngine.save 3 0).perform (uncommitting, [item "a"])).1 =
      .error (Call.commit.failure "db") := by
    decide +kernel
  have hfirst : (firstWrite (confirmingEngine.history (fun _ => .connected 1) 3 0 uncommitting
      [item "a"]) (.given 0)).map (·.edits) = some ["name"] := by
    decide +kernel
  have hreturned : (((confirmingEngine.save 3 0).perform
      (uncommitting, [item "a"])).2.2[0]?).isSome = true := by
    decide +kernel
  obtain ⟨-, hback⟩ := SaveEngine.save_gives_back (fun _ => TransactionScheme.standard_frames)
    confirmingEngine_keepsSchemas 3 uncommitting nofun [item "a"] hfail
  obtain ⟨before, hbefore, hedits⟩ := Option.map_eq_some_iff.1 hfirst
  obtain ⟨after, hafter⟩ := Option.isSome_iff_exists.1 hreturned
  exact ⟨hfail, before, after, hafter, hedits, hback 0 after hafter before hbefore⟩

end Rehearsal.Stage

end RecordStore
