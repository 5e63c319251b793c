import RecordStore.Proofs.Save.Careful
import RecordStore.Proofs.Save.Retry
import RecordStore.Save.Shelf

/-!
# Saves that fail together

Units of work that save records from a shelf share a transaction with the units around them, and are
rolled back with them. But what a failed save gives back, it gives back itself, when it fails; a
rollback of the transaction does not touch the shelf. So it makes a difference how far a unit came
when a chain breaks off:

* a record is restored if no unit that was *finished* had touched it (`WorkUnit.finished`): the one
  unit that fails restores its own records, and those after it were never started
  (`SaveEngine.IsCareful.unfinished_records_restored`);
* a record that a finished unit has saved stays as it was saved, although it is stored no longer
  (`Rehearsal.Stage.item_kept_when_rolled_back`).
-/

namespace RecordStore

variable {γ μ σ τ : Type}

/-! ### Finished units -/

/-- The units that succeed one after another, before the first that fails. -/
def WorkUnit.finished : List (WorkUnit τ) → τ → List (WorkUnit τ)
  | [], _ => []
  | u :: rest, t =>
    match u.run.perform t with
    | (.ok _, t') => u :: finished rest t'
    | (.error _, _) => []

/-- The units that are finished when a chain that the scheme makes of them begins to commit or breaks
    off; if it cannot begin, none is. -/
def TransactionScheme.finished (scheme : TransactionScheme τ) (units : List (WorkUnit τ)) (t : τ) :
    List (WorkUnit τ) :=
  match scheme.transactions units with
  | .error _ => []
  | .ok ts =>
    match Act.each Transaction.begin ts t with
    | (.error _, _) => []
    | (.ok _, t₁, _) => WorkUnit.finished (ts.flatMap (·.units)) t₁

section Finished

variable {u : WorkUnit τ} {rest : List (WorkUnit τ)} {t : τ}

theorem WorkUnit.finished_of_ok (h : (u.run.perform t).1 = .ok ()) :
    finished (u :: rest) t = u :: finished rest (u.run.perform t).2 := by
  rcases hf : u.run.perform t with ⟨_ | _, t'⟩ <;> rw [hf] at h
  · cases h
  · simp only [finished, hf]

theorem WorkUnit.finished_of_error {err : StoreError} (h : (u.run.perform t).1 = .error err) :
    finished (u :: rest) t = [] := by
  rcases hf : u.run.perform t with ⟨_ | _, t'⟩ <;> rw [hf] at h
  · simp only [finished, hf]
  · cases h

end Finished

/-! ### Units over one connection -/

section OneConnection

variable {c : Connection τ} {units : List (WorkUnit τ)}

theorem TransactionScheme.foldl_addToGroup {cap : Capability} (group : List (WorkUnit τ))
    (h : ∀ u ∈ units, u.capability = cap) :
    units.foldl (fun groups u => addToGroup u groups) [(cap, group)] = [(cap, group ++ units)] := by
  induction units generalizing group with
  | nil => rw [List.foldl_nil, List.append_nil]
  | cons u rest ih =>
    obtain ⟨hu, hrest⟩ := List.forall_mem_cons.1 h
    rw [List.foldl_cons, addToGroup, if_pos hu.symm, ih _ hrest, List.append_assoc,
      List.singleton_append]

theorem Strand.foldlM_add (group : List (WorkUnit τ)) (h : ∀ u ∈ units, u.connection = some c) :
    (units.foldlM (fun strands u =>
      match u.connection with
      | some c => .ok (add c u strands)
      | none => .error .missingConnection)
      [{ connection := c, units := group }] : Except StoreError (List (Strand τ))) =
      .ok [{ connection := c, units := group ++ units }] := by
  induction units generalizing group with
  | nil =>
    rw [List.append_nil]
    rfl
  | cons u rest ih =>
    obtain ⟨hu, hrest⟩ := List.forall_mem_cons.1 h
    have hadd : add c u [{ connection := c, units := group }] =
        [{ connection := c, units := group ++ [u] }] := if_pos rfl
    rw [List.foldlM_cons, hu]
    change List.foldlM _ (add c u _) rest = _
    rw [hadd, ih _ hrest, List.append_assoc, List.singleton_append]

/-- Units over one connection make one transaction. -/
theorem TransactionScheme.standard_transactions_of_connection (hunits : units ≠ [])
    (h : ∀ u ∈ units, u.capability = .connected ∧ u.connection = some c) :
    standard.transactions units =
      .ok [.connected [{ connection := c, units }]] := by
  obtain ⟨u, rest, rfl⟩ := List.exists_cons_of_ne_nil hunits
  obtain ⟨⟨hcap, hu⟩, hrest⟩ := List.forall_mem_cons.1 h
  have hgroups : groupByCapability (u :: rest) = [(.connected, u :: rest)] := by
    rw [groupByCapability, List.foldl_cons, addToGroup, hcap]
    exact foldl_addToGroup [u] fun v hv => (hrest v hv).1
  have hstrands : Strand.ofUnits (u :: rest) = .ok [{ connection := c, units := u :: rest }] := by
    rw [Strand.ofUnits, List.foldlM_cons, hu]
    exact Strand.foldlM_add [u] fun v hv => (hrest v hv).2
  rw [transactions, hgroups]
  change (do let t ← Transaction.ofConnected (u :: rest); pure [t] : Except StoreError _) = _
  rw [Transaction.ofConnected, hstrands]
  rfl

/-- Units over one connection that is not in a transaction are finished in their order. -/
theorem TransactionScheme.finished_of_connection {t : τ} (hunits : units ≠ [])
    (h : ∀ u ∈ units, u.capability = .connected ∧ u.connection = some c)
    (hclosed : c.inTransaction t = false) (hbegin : (c.begin.perform t).1 = .ok ()) :
    standard.finished units t = WorkUnit.finished units (c.begin.perform t).2 := by
  rw [finished, standard_transactions_of_connection hunits h]
  simp only [Act.each, Transaction.begin, Strand.begin, Act.perform_make, hclosed]
  rcases hf : c.begin.perform t with ⟨_ | _, t'⟩ <;> rw [hf] at hbegin
  · cases hbegin
  · simp [Transaction.units]

end OneConnection

theorem WorkUnit.runAll_append (units units' : List (WorkUnit τ)) :
    runAll (units ++ units') = (do runAll units; runAll units' : Act τ Unit) := by
  induction units with
  | nil => rw [List.nil_append, runAll, pure_bind]
  | cons u rest ih => rw [List.cons_append, runAll, runAll, ih, bind_assoc]

/-- Transactions run their units, in order. -/
theorem Chain.runAll_eq (ts : List (Transaction τ)) :
    runAll ts = WorkUnit.runAll (ts.flatMap (·.units)) := by
  induction ts with
  | nil => rfl
  | cons tr rest ih =>
    rw [runAll, ih, Transaction.run, List.flatMap_cons, WorkUnit.runAll_append]

/-- What becomes of units that the standard scheme runs as a chain, if their connections move along a
    relation: none is started, or they run in some order. -/
theorem TransactionScheme.standard_course {R : γ → γ → Prop} [Std.Refl R] [IsTrans γ R] {view : τ → γ}
    {units : List (WorkUnit τ)}
    (hconnections : ∀ u ∈ units, ∀ c, u.connection = some c → c.Moves R view) (t : τ) :
    (standard.finished units t = [] ∧ R (view t) (view ((standard.execute units).perform t).2)) ∨
      ∃ order t₁, (∀ u ∈ order, u ∈ units) ∧
        standard.finished units t = WorkUnit.finished order t₁ ∧ R (view t) (view t₁) ∧
        R (view ((WorkUnit.runAll order).perform t₁).2)
          (view ((standard.execute units).perform t).2) := by
  simp only [finished, execute, executeChecked, Act.perform_bind, Act.perform_ofExcept]
  rcases hts : standard.transactions units with err | ts
  · exact .inl ⟨rfl, Std.Refl.refl _⟩
  · have hfresh := standard_isFresh hts
    have hmoves : ∀ tr ∈ ts, tr.Moves R view := by
      intro tr htr g hg
      obtain ⟨group, hgroup, hnew⟩ := hfresh tr htr
      obtain ⟨u, hu, hc⟩ := hnew.isNew.connection g hg
      exact hconnections u (hgroup u hu) _ hc
    have horder : ∀ u ∈ ts.flatMap (·.units), u ∈ units := by
      intro u hu
      obtain ⟨tr, htr, hu⟩ := List.mem_flatMap.1 hu
      obtain ⟨group, hgroup, hnew⟩ := hfresh tr htr
      exact hgroup u (hnew.isNew.units.mem_iff.1 hu)
    have hcourse : Chain.Course R view (pure ()) ts t _ := Chain.execute_course hmoves t
    dsimp only
    generalize (Chain.execute (pure ()) ts).perform t = out at hcourse
    cases hcourse with
    | unopened hbegin hend => exact .inl ⟨by rw [hbegin], hend⟩
    | @ran r t₁ t' ts₁ hbegin hbegun hend =>
      rw [bind_pure_unit, Chain.runAll_eq] at hend
      exact .inr ⟨_, t₁, horder, by rw [hbegin], hbegun, hend⟩

/-! ### Shelves -/

section Shelves

variable {P : μ → μ → Prop} {orig shelf : List μ}

theorem forall₂_set (h : List.Forall₂ P orig shelf) {i : Nat} {m : μ}
    (hm : ∀ before, orig[i]? = some before → P before m) : List.Forall₂ P orig (shelf.set i m) := by
  induction h generalizing i with
  | nil => exact .nil
  | cons hab hrest ih =>
    cases i with
    | zero => exact .cons (hm _ rfl) hrest
    | succ i => exact .cons hab (ih hm)

/-- Models that are put back are related to what lay there if they are one by one. -/
theorem forall₂_putBack (h : List.Forall₂ P orig shelf) {changes : List (Nat × μ)}
    (hchanges : ∀ change ∈ changes, ∀ before, orig[change.1]? = some before → P before change.2) :
    List.Forall₂ P orig (SaveEngine.putBack shelf changes) := by
  induction changes generalizing shelf with
  | nil => exact h
  | cons change rest ih =>
    obtain ⟨hchange, hrest⟩ := List.forall_mem_cons.1 hchanges
    exact ih (forall₂_set h hchange) hrest

theorem getElem?_putBack {j : Nat} {changes : List (Nat × μ)}
    (h : ∀ change ∈ changes, change.1 ≠ j) (shelf : List μ) :
    (SaveEngine.putBack shelf changes)[j]? = shelf[j]? := by
  induction changes generalizing shelf with
  | nil => rfl
  | cons change rest ih =>
    obtain ⟨hchange, hrest⟩ := List.forall_mem_cons.1 h
    exact (ih hrest _).trans (List.getElem?_set_ne hchange)

/-- The models at places of a shelf. -/
theorem forall₂_filterMap_getElem? (shelf : List μ) (picks : List Nat) :
    List.Forall₂ (fun i m => shelf[i]? = some m) (picks.filter (· < shelf.length))
      ((picks.filter (· < shelf.length)).filterMap (shelf[·]?)) := by
  induction picks with
  | nil => exact .nil
  | cons i rest ih =>
    by_cases hi : i < shelf.length
    · have hsome : shelf[i]? = some shelf[i] := List.getElem?_eq_getElem hi
      rw [List.filter_cons_of_pos (by simpa using hi), List.filterMap_cons_some hsome]
      exact .cons hsome ih
    · rwa [List.filter_cons_of_neg (by simpa using hi)]

end Shelves

/-! ### Save units -/

namespace SaveEngine

section Units

variable [Model μ] {e : SaveEngine μ σ} {frames : Nat → Frame}

/-- What a unit beside a shelf leaves alone if it has to do with no record there. -/
abbrev onShelf (t : ShelfWorld μ σ) : (Nat → SavePhase) × List μ := (t.1.phases, t.2)

/-- A unit of work beside a shelf saves models from there, along a route that is not in its
    after-save phase, or has to do with none of them. -/
inductive IsShelfUnit (e : SaveEngine μ σ) (phases : Nat → SavePhase) :
    WorkUnit (ShelfWorld μ σ) → Prop
  | save (bound : Nat) {route : Nat} (picks : List Nat) : phases route ≠ .afterSave →
    IsShelfUnit e phases (e.saveUnit bound route picks)
  | other {u : WorkUnit (ShelfWorld μ σ)} : u.run.Moves Eq onShelf →
    (∀ c, u.connection = some c → c.Moves Eq onShelf) → IsShelfUnit e phases u

omit [Model μ] in
/-- The connection of a route is such that control calls do not touch the shelf. -/
theorem unitConnection_moves (e : SaveEngine μ σ) (route : Nat) :
    (e.unitConnection route).Moves Eq onShelf :=
  ⟨fun _ => rfl, fun _ => rfl, fun _ => rfl⟩

theorem IsShelfUnit.connection_moves {phases : Nat → SavePhase} {u : WorkUnit (ShelfWorld μ σ)}
    (h : e.IsShelfUnit phases u) {c : Connection (ShelfWorld μ σ)} (hc : u.connection = some c) :
    c.Moves Eq onShelf := by
  cases h with
  | @save _ route _ hphase =>
    cases hc
    exact e.unitConnection_moves route
  | other _ hconnection => exact hconnection c hc

/-- A save leaves the other places of the shelf alone. -/
theorem savePicked_moves (e : SaveEngine μ σ) (bound route : Nat) {picks : List Nat} {j : Nat}
    (hj : j ∉ picks) : (e.savePicked bound route picks).Moves Eq fun t => t.2[j]? := by
  rintro ⟨s, shelf⟩
  refine (getElem?_putBack (fun change hchange => ?_) shelf).symm
  rintro rfl
  exact hj (List.mem_of_mem_filter (List.of_mem_zip hchange).1)

theorem savePicked_keeps_phases (hframes : e.HasFrames frames) (bound route : Nat)
    (picks : List Nat) : (e.savePicked bound route picks).Moves Eq fun t => t.1.phases :=
  fun (s, shelf) => save_keeps_phases hframes bound route
    (s, (picks.filter (· < shelf.length)).filterMap (shelf[·]?))

theorem IsShelfUnit.keeps_phases (hframes : e.HasFrames frames) {phases : Nat → SavePhase}
    {u : WorkUnit (ShelfWorld μ σ)} (h : e.IsShelfUnit phases u) :
    u.run.Moves Eq fun t => t.1.phases := by
  cases h with
  | save bound picks => exact savePicked_keeps_phases hframes bound _ picks
  | other hrun => exact fun t => (Prod.mk.inj (hrun t)).1

end Units

variable {e : SaveEngine Record σ} {frames : Nat → Frame}

/-- A failed save from the shelf restores what it had taken from there. -/
theorem IsCareful.failed_pick_restores (he : e.IsCareful) (hframes : e.HasFrames frames)
    {bound route : Nat} {picks : List Nat} {t : ShelfWorld Record σ} {err : StoreError}
    (hphase : t.1.phases route ≠ .afterSave)
    (hfail : ((e.savePicked bound route picks).perform t).1 = .error err) :
    List.Forall₂ Record.Restored t.2 ((e.savePicked bound route picks).perform t).2.2 := by
  have hrefl : List.Forall₂ Record.Restored t.2 t.2 := List.forall₂_same.2 fun m _ => .refl m
  have hrestored := he.failed_save_restores hframes bound hphase _ hfail
  refine forall₂_putBack hrefl fun change hchange => ?_
  refine List.forall₂_zip (forall₂_comp (T := fun i m => ∀ before, t.2[i]? = some before →
    before.Restored m) ?_ (forall₂_filterMap_getElem? t.2 picks) hrestored) hchange
  intro i m m' hm hrestored before hbefore
  rw [← Option.some.inj (hm.symm.trans hbefore)]
  exact hrestored

section Chains

variable {s : Saving σ} {j : Nat} {before : Record} {units : List (WorkUnit (ShelfWorld Record σ))}

/-- A unit that fails restores the shelf. -/
theorem IsCareful.failed_unit_restores (he : e.IsCareful) (hframes : e.HasFrames frames)
    {u : WorkUnit (ShelfWorld Record σ)} {t : ShelfWorld Record σ} (hu : e.IsShelfUnit t.1.phases u)
    {err : StoreError} (hfail : (u.run.perform t).1 = .error err) :
    List.Forall₂ Record.Restored t.2 (u.run.perform t).2.2 := by
  cases hu with
  | save bound picks hphase => exact he.failed_pick_restores hframes hphase hfail
  | other hrun =>
    rw [← (Prod.mk.inj (hrun t)).2]
    exact List.forall₂_same.2 fun m _ => .refl m

/-- Units that run in order, up to the first failure. -/
theorem IsCareful.runAll_restores (he : e.IsCareful) (hframes : e.HasFrames frames)
    {t : ShelfWorld Record σ} (hunits : ∀ u ∈ units, e.IsShelfUnit t.1.phases u)
    (hj : t.2[j]? = some before)
    (hfinished : ∀ u ∈ WorkUnit.finished units t, u.run.Moves Eq fun t => t.2[j]?) :
    ∃ after, ((WorkUnit.runAll units).perform t).2.2[j]? = some after ∧ before.Restored after := by
  induction units generalizing t with
  | nil => exact ⟨before, hj, .refl before⟩
  | cons u rest ih =>
    obtain ⟨hu, hrest⟩ := List.forall_mem_cons.1 hunits
    have hphases := hu.keeps_phases hframes t
    have hfailed := fun err (hfail : (u.run.perform t).1 = .error err) =>
      he.failed_unit_restores hframes hu hfail
    rw [WorkUnit.finished] at hfinished
    rw [WorkUnit.runAll, Act.perform_bind]
    rcases hf : u.run.perform t with ⟨err | _, t'⟩ <;> rw [hf] at hfinished hphases hfailed <;>
      dsimp only at hfinished hphases ⊢
    · obtain ⟨hlt, rfl⟩ := List.getElem?_eq_some_iff.1 hj
      have hrestored := hfailed err rfl
      have hlt' := hrestored.length_eq ▸ hlt
      exact ⟨_, List.getElem?_eq_getElem hlt', hrestored.get hlt hlt'⟩
    · obtain ⟨hone, hothers⟩ := List.forall_mem_cons.1 hfinished
      have hkept : t.2[j]? = t'.2[j]? := by simpa only [hf] using hone t
      exact ih (hphases ▸ hrest) (hkept ▸ hj) hothers

/-- Whatever becomes of units that run in one chain, a record on the shelf that no finished unit has
    touched ends with the key and the flags that it had: one that was to be saved by the unit that
    failed, or by a later one. -/
theorem IsCareful.unfinished_records_restored (he : e.IsCareful) (hframes : e.HasFrames frames)
    {shelf : List Record} (hunits : ∀ u ∈ units, e.IsShelfUnit s.phases u)
    (hj : shelf[j]? = some before)
    (hfinished : ∀ u ∈ TransactionScheme.standard.finished units (s, shelf),
      u.run.Moves Eq fun t => t.2[j]?) :
    ∃ after, ((TransactionScheme.standard.execute units).perform (s, shelf)).2.2[j]? = some after ∧
      before.Restored after := by
  rcases TransactionScheme.standard_course
      (fun u hu c hc => (hunits u hu).connection_moves hc) (s, shelf) with
    ⟨-, hend⟩ | ⟨order, t₁, horder, heq, hbegun, hend⟩ <;> rw [← (Prod.mk.inj hend).2]
  · exact ⟨before, hj, .refl before⟩
  · rw [heq] at hfinished
    obtain ⟨hphases, hshelf⟩ := Prod.mk.inj hbegun
    refine he.runAll_restores hframes (fun u hu => ?_) (hshelf ▸ hj) hfinished
    exact hphases ▸ hunits u (horder u hu)

end Chains

end SaveEngine

/-! ### On a stage -/

namespace Rehearsal.Stage

theorem plainEngine_isCareful : plainEngine.IsCareful where
  write _ := TableStore.write_keepsSchema _
  beforeValidate := trivial
  beforeSave := trivial
  afterSave := trivial
  before _ _ hhook := by cases hhook
  after _ _ hhook := by cases hhook
  carefulValidate := trivial
  carefulSave := trivial
  carefulBefore _ _ hhook := by cases hhook

/-- Two units over one connection, each of which saves an item. -/
def twoUnits : List (WorkUnit (ShelfWorld Record Stage)) :=
  [plainEngine.saveUnit 1 0 [0], plainEngine.saveUnit 1 0 [1]]

/-- The second unit fails: its item is restored. -/
theorem second_item_restored :
    ((TransactionScheme.standard.execute twoUnits).perform
        (interrupting, [item "a", item "b"])).1 = .error (Call.execute.failure "db") ∧
      ∃ after, ((TransactionScheme.standard.execute twoUnits).perform
          (interrupting, [item "a", item "b"])).2.2[1]? = some after ∧
        (item "b").Restored after := by
  have hunits : ∀ u ∈ twoUnits, plainEngine.IsShelfUnit interrupting.phases u :=
    List.forall_mem_cons.2 ⟨.save 1 [0] nofun, List.forall_mem_singleton.2 (.save 1 [1] nofun)⟩
  have hfinished : TransactionScheme.standard.finished twoUnits
      (interrupting, [item "a", item "b"]) = [plainEngine.saveUnit 1 0 [0]] := by
    have hconnected : ∀ u ∈ twoUnits, u.capability = .connected ∧
        u.connection = some (plainEngine.unitConnection 0) :=
      List.forall_mem_cons.2 ⟨⟨rfl, rfl⟩, List.forall_mem_singleton.2 ⟨rfl, rfl⟩⟩
    rw [TransactionScheme.finished_of_connection (by simp [twoUnits]) hconnected rfl
      (by decide +kernel), twoUnits, WorkUnit.finished_of_ok (by decide +kernel),
      @WorkUnit.finished_of_error _ _ _ _ (Call.execute.failure "db") (by decide +kernel)]
  refine ⟨by decide +kernel, plainEngine_isCareful.unfinished_records_restored
    (fun _ => TransactionScheme.standard_frames) hunits rfl ?_⟩
  rw [hfinished, List.forall_mem_singleton]
  exact plainEngine.savePicked_moves 1 0 (by decide)

/-- A unit that saves an item, and one over the same connection that fails. -/
def saveAndStop : List (WorkUnit (ShelfWorld Record Stage)) :=
  [plainEngine.saveUnit 1 0 [0],
    .connectedTask (plainEngine.unitConnection 0) (Act.fail (.queryFailed "stop"))]

/-- An item that a unit has saved keeps its key and is not flagged, though the failure of a later unit
    rolled its row back. -/
theorem item_kept_when_rolled_back :
    let out := (TransactionScheme.standard.execute saveAndStop).perform (emptyStage, [item "a"])
    ledger.isOpen 0 emptyStage.world = false ∧ out.1 = .error (.queryFailed "stop") ∧
      (ledger.entries out.2.1.world).countP (·.grants .rollback 0) = 1 ∧
      (ledger.entries out.2.1.world).countP (·.grants .commit 0) = 0 ∧
      ¬∃ after, out.2.2[0]? = some after ∧ (item "a").Restored after := by
  have hedits : (((TransactionScheme.standard.execute saveAndStop).perform
      (emptyStage, [item "a"])).2.2[0]?).map (·.edits) = some [] := by
    decide +kernel
  refine ⟨rfl, by decide +kernel, by decide +kernel, by decide +kernel,
    fun ⟨after, hafter, hrestored⟩ => ?_⟩
  have hname : "name" ∈ after.edits := hrestored.edits "name" (by decide)
  rw [hafter] at hedits
  have hnone : after.edits = [] := Option.some.inj hedits
  rw [hnone] at hname
  cases hname

end Rehearsal.Stage

end RecordStore
