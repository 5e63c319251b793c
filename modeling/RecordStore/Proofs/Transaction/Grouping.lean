import RecordStore.Transaction.Scheme
import RecordStore.Proofs.Except
import Mathlib.Data.List.Induction
import Mathlib.Data.List.Perm.Basic
import Mathlib.Data.List.Nodup

/-!
# What transactions are made of

Units of work are grouped twice: by capability into transactions, and by connection into the strands
of a connected transaction. Neither grouping loses a unit or makes one up.

* A transaction that was just made of units is *new* (`Transaction.IsNew`): it owns nothing, every
  strand is on the connection of one of the units, and its units are these, in some order.
* Grouping by capability keeps the order of the units inside a group and puts the group of the first
  unit first; no capability has two groups (`Grouped`, `groupByCapability_grouped`).
* The standard scheme makes one transaction of each group, connected if the group is
  (`standard_forall₂`), so at most one transaction is connected.
-/

namespace RecordStore

variable {σ : Type}

/-! ### By connection -/

namespace Strand

/-- Nothing is owned, and every connection is that of one of these units. -/
structure AllNew (units : List (WorkUnit σ)) (gs : List (Strand σ)) : Prop where
  isOwned : ∀ g ∈ gs, g.isOwned = false
  connection : ∀ g ∈ gs, ∃ u ∈ units, u.connection = some g.connection
  units : (gs.flatMap (·.units)).Perm units

theorem allNew_nil : AllNew ([] : List (WorkUnit σ)) [] := ⟨by simp, by simp, .refl _⟩

theorem isOwned_add {c : Connection σ} {u : WorkUnit σ} {gs : List (Strand σ)}
    (h : ∀ g ∈ gs, g.isOwned = false) : ∀ g ∈ add c u gs, g.isOwned = false := by
  induction gs with
  | nil => simp [add]
  | cons g rest ih =>
    obtain ⟨hg, hrest⟩ := List.forall_mem_cons.1 h
    rw [add]
    split
    · exact List.forall_mem_cons.2 ⟨hg, hrest⟩
    · exact List.forall_mem_cons.2 ⟨hg, ih hrest⟩

/-- A unit either goes to a strand that is there or opens one on its own connection. -/
theorem connection_add {c : Connection σ} {u : WorkUnit σ} {gs : List (Strand σ)} {g : Strand σ}
    (h : g ∈ add c u gs) : g.connection = c ∨ ∃ g' ∈ gs, g'.connection = g.connection := by
  induction gs with
  | nil => exact .inl (by rw [List.mem_singleton.1 h])
  | cons g' rest ih =>
    rw [add] at h
    split at h
    · rcases List.mem_cons.1 h with rfl | h
      · exact .inr ⟨g', List.mem_cons_self, rfl⟩
      · exact .inr ⟨g, List.mem_cons_of_mem _ h, rfl⟩
    · rcases List.mem_cons.1 h with rfl | h
      · exact .inr ⟨g, List.mem_cons_self, rfl⟩
      · refine (ih h).imp_right ?_
        rintro ⟨g'', hg'', heq⟩
        exact ⟨g'', List.mem_cons_of_mem _ hg'', heq⟩

theorem units_add {c : Connection σ} {u : WorkUnit σ} {gs : List (Strand σ)} :
    ((add c u gs).flatMap (·.units)).Perm (gs.flatMap (·.units) ++ [u]) := by
  induction gs with
  | nil => simp [add]
  | cons g rest ih =>
    rw [add]
    split
    · simp only [List.flatMap_cons, List.append_assoc]
      exact List.perm_append_comm.append_left _
    · simp only [List.flatMap_cons, List.append_assoc]
      exact ih.append_left _

theorem AllNew.add {units : List (WorkUnit σ)} {gs : List (Strand σ)} {c : Connection σ}
    {u : WorkUnit σ} (h : AllNew units gs) (hu : u.connection = some c) :
    AllNew (units ++ [u]) (Strand.add c u gs) where
  isOwned := isOwned_add h.isOwned
  connection g hg := by
    rcases connection_add hg with rfl | ⟨g', hg', heq⟩
    · exact ⟨u, by simp, hu⟩
    · obtain ⟨v, hv, hconn⟩ := h.connection g' hg'
      exact ⟨v, List.mem_append_left _ hv, by rw [hconn, heq]⟩
  units := units_add.trans (h.units.append_right _)

/-- The strands of some units, to which the strands of further units are added one by one. -/
theorem ofUnits_append {units : List (WorkUnit σ)} {u : WorkUnit σ} {gs : List (Strand σ)}
    (h : ofUnits (units ++ [u]) = .ok gs) :
    ∃ gs' c, ofUnits units = .ok gs' ∧ u.connection = some c ∧ gs = add c u gs' := by
  rw [ofUnits, List.foldlM_append] at h
  change (ofUnits units).bind _ = _ at h
  rcases hgs : ofUnits units with e | gs' <;> rw [hgs] at h
  · cases h
  · rcases hu : u.connection with _ | c <;>
      simp only [Except.bind, List.foldlM_cons, List.foldlM_nil, hu] at h <;> cases h
    exact ⟨gs', c, rfl, rfl, rfl⟩

/-- Units cannot be grouped if one of them has no connection, and for no other reason. -/
theorem ofUnits_eq_error {units : List (WorkUnit σ)} {e : StoreError}
    (h : ofUnits units = .error e) : e = .missingConnection := by
  induction units using List.reverseRecOn with
  | nil => cases h
  | append_singleton units u ih =>
    rw [ofUnits, List.foldlM_append] at h
    change (ofUnits units).bind _ = _ at h
    rcases hgs : ofUnits units with e' | gs <;> rw [hgs] at h
    · cases h
      exact ih hgs
    · rcases hu : u.connection with _ | c <;>
        simp only [Except.bind, List.foldlM_cons, List.foldlM_nil, hu] at h <;> cases h
      rfl

theorem ofUnits_allNew {units : List (WorkUnit σ)} {gs : List (Strand σ)}
    (h : ofUnits units = .ok gs) : AllNew units gs := by
  induction units using List.reverseRecOn generalizing gs with
  | nil =>
    cases h
    exact allNew_nil
  | append_singleton units u ih =>
    obtain ⟨gs', c, hgs', hu, rfl⟩ := ofUnits_append h
    exact (ih hgs').add hu

end Strand

namespace Transaction

/-- The strands of a transaction, of which a plain one has none. -/
def strands : Transaction σ → List (Strand σ)
  | connected strands => strands
  | plain _ => []

/-- Whether a transaction is on connections. -/
def isConnected : Transaction σ → Bool
  | connected .. => true
  | plain _ => false

/-- A transaction as it is made, of connected units or of plain ones. -/
def IsFresh (units : List (WorkUnit σ)) (t : Transaction σ) : Prop :=
  ofConnected units = .ok t ∨ ofPlain units = .ok t

/-- A transaction that was made of these units and has not begun. -/
structure IsNew (units : List (WorkUnit σ)) (t : Transaction σ) : Prop where
  isOwned : ∀ g ∈ t.strands, g.isOwned = false
  connection : ∀ g ∈ t.strands, ∃ u ∈ units, u.connection = some g.connection
  units : t.units.Perm units

theorem IsFresh.isNew {units : List (WorkUnit σ)} {t : Transaction σ} (h : t.IsFresh units) :
    t.IsNew units := by
  rcases h with h | h
  · rw [ofConnected] at h
    rcases hgs : Strand.ofUnits units with e | gs <;> rw [hgs] at h <;> cases h
    have hnew := Strand.ofUnits_allNew hgs
    exact ⟨hnew.isOwned, hnew.connection, hnew.units⟩
  · cases h
    exact ⟨by simp [strands], by simp [strands], .refl _⟩

end Transaction

/-- Running depends on what the transactions run, and on nothing else of them. -/
theorem Chain.runAll_congr {ts ts' : List (Transaction σ)}
    (h : ts.map (·.run) = ts'.map (·.run)) : Chain.runAll ts = Chain.runAll ts' := by
  induction ts generalizing ts' with
  | nil => rw [List.map_eq_nil_iff.1 h.symm]
  | cons t rest ih =>
    obtain ⟨t', rest', rfl, ht, hrest⟩ := List.map_eq_cons_iff.1 h.symm
    rw [Chain.runAll, Chain.runAll, ih hrest.symm, ht]

/-! ### By capability -/

namespace TransactionScheme

/-- The units of each capability in their order, and the first unit's capability first. -/
structure Grouped (units : List (WorkUnit σ)) (groups : List (Capability × List (WorkUnit σ))) :
    Prop where
  nodup : (groups.map (·.1)).Nodup
  mem : ∀ u ∈ units, u.capability ∈ groups.map (·.1)
  group : ∀ p ∈ groups, p.2 = units.filter (·.capability = p.1)
  head : (groups.map (·.1)).head? = units.head?.map (·.capability)

theorem grouped_nil : Grouped ([] : List (WorkUnit σ)) [] := ⟨.nil, by simp, by simp, rfl⟩

theorem map_fst_addToGroup (u : WorkUnit σ) (groups : List (Capability × List (WorkUnit σ))) :
    (addToGroup u groups).map (·.1) =
      if u.capability ∈ groups.map (·.1) then groups.map (·.1)
      else groups.map (·.1) ++ [u.capability] := by
  induction groups with
  | nil => rfl
  | cons p rest ih =>
    rw [addToGroup]
    split
    · next h => simp [h]
    · next h =>
      rw [List.map_cons, ih, List.map_cons]
      split
      · next hmem => rw [if_pos (List.mem_cons_of_mem _ hmem)]
      · next hmem => rw [if_neg (List.not_mem_cons_of_ne_of_not_mem (Ne.symm h) hmem), List.cons_append]

/-- A group after a unit was added: it grew by the unit, or is a group as before. -/
theorem mem_addToGroup {u : WorkUnit σ} {groups : List (Capability × List (WorkUnit σ))}
    {p : Capability × List (WorkUnit σ)} (hnodup : (groups.map (·.1)).Nodup)
    (h : p ∈ addToGroup u groups) :
    (p.1 = u.capability ∧ ((∃ group, (p.1, group) ∈ groups ∧ p.2 = group ++ [u]) ∨
      p.1 ∉ groups.map (·.1) ∧ p.2 = [u])) ∨ p.1 ≠ u.capability ∧ p ∈ groups := by
  induction groups with
  | nil =>
    rw [List.mem_singleton.1 h]
    exact .inl ⟨rfl, .inr ⟨by simp, rfl⟩⟩
  | cons q rest ih =>
    obtain ⟨c, group⟩ := q
    rw [List.map_cons, List.nodup_cons] at hnodup
    rw [addToGroup] at h
    split at h
    · next hc =>
      rcases List.mem_cons.1 h with rfl | h
      · exact .inl ⟨hc, .inl ⟨group, List.mem_cons_self, rfl⟩⟩
      · refine .inr ⟨fun heq => hnodup.1 ?_, List.mem_cons_of_mem _ h⟩
        rw [hc, ← heq]
        exact List.mem_map.2 ⟨p, h, rfl⟩
    · next hc =>
      rcases List.mem_cons.1 h with rfl | h
      · exact .inr ⟨hc, List.mem_cons_self⟩
      · rcases ih hnodup.2 h with ⟨hp, ⟨group', hgroup', heq⟩ | ⟨hnot, heq⟩⟩ | ⟨hp, hmem⟩
        · exact .inl ⟨hp, .inl ⟨group', List.mem_cons_of_mem _ hgroup', heq⟩⟩
        · have hne : p.1 ≠ c := hp ▸ Ne.symm hc
          exact .inl ⟨hp, .inr ⟨List.not_mem_cons_of_ne_of_not_mem hne hnot, heq⟩⟩
        · exact .inr ⟨hp, List.mem_cons_of_mem _ hmem⟩

theorem Grouped.addToGroup {units : List (WorkUnit σ)} {u : WorkUnit σ}
    {groups : List (Capability × List (WorkUnit σ))} (h : Grouped units groups) :
    Grouped (units ++ [u]) (addToGroup u groups) where
  nodup := by
    rw [map_fst_addToGroup]
    split
    · exact h.nodup
    · next hu =>
      rw [← List.concat_eq_append]
      exact h.nodup.concat hu
  mem v hv := by
    rw [map_fst_addToGroup]
    split
    · next hu =>
      rcases List.mem_append.1 hv with hv | hv
      · exact h.mem v hv
      · rwa [List.mem_singleton.1 hv]
    · rcases List.mem_append.1 hv with hv | hv
      · exact List.mem_append_left _ (h.mem v hv)
      · rw [List.mem_singleton.1 hv]
        simp
  group p hp := by
    rw [List.filter_append]
    rcases mem_addToGroup h.nodup hp with ⟨hu, ⟨group, hgroup, heq⟩ | ⟨hnot, heq⟩⟩ | ⟨hu, hp⟩
    · rw [heq, show group = _ from h.group _ hgroup, List.filter_singleton]
      simp [hu]
    · have hnone : units.filter (·.capability = p.1) = [] :=
        List.filter_eq_nil_iff.2 fun v hv hv' => hnot (of_decide_eq_true hv' ▸ h.mem v hv)
      rw [heq, hnone, List.filter_singleton]
      simp [hu]
    · rw [h.group p hp, List.filter_singleton]
      simp [Ne.symm hu]
  head := by
    rw [map_fst_addToGroup]
    cases units with
    | nil =>
      have hgroups : groups.map (·.1) = [] := List.head?_eq_none_iff.1 h.head
      simp [hgroups]
    | cons v rest =>
      have hhead := h.head
      cases hgroups : groups.map (·.1) with
      | nil => simp [hgroups] at hhead
      | cons c cs =>
        rw [hgroups] at hhead
        split <;> simpa using hhead

theorem groupByCapability_grouped (units : List (WorkUnit σ)) :
    Grouped units (groupByCapability units) := by
  induction units using List.reverseRecOn with
  | nil => exact grouped_nil
  | append_singleton units u ih =>
    rw [groupByCapability, List.foldl_append]
    exact ih.addToGroup

variable {units : List (WorkUnit σ)} {ts : List (Transaction σ)}

/-- The standard scheme makes one transaction of each group, connected if the group is. -/
theorem standard_forall₂ (h : standard.transactions units = .ok ts) :
    List.Forall₂ (fun p t => t.isConnected = decide (p.1 = .connected) ∧ t.IsFresh p.2)
      (groupByCapability units) ts := by
  refine (forall₂_of_mapM_eq_ok h).imp ?_
  rintro ⟨c, group⟩ t ht
  cases c with
  | plain =>
    cases ht
    exact ⟨rfl, .inr rfl⟩
  | connected =>
    refine ⟨?_, .inl ht⟩
    change Transaction.ofConnected group = .ok t at ht
    rw [Transaction.ofConnected] at ht
    rcases hgs : Strand.ofUnits group with e | gs <;> rw [hgs] at ht <;> cases ht
    rfl

theorem standard_isConnected (h : standard.transactions units = .ok ts) :
    ts.map (·.isConnected) =
      (groupByCapability units).map fun p => decide (p.1 = .connected) :=
  map_eq_map_of_forall₂ ((standard_forall₂ h).imp fun _ _ h => h.1).flip

theorem standard_isConnected_nodup (h : standard.transactions units = .ok ts) :
    (ts.map (·.isConnected)).Nodup := by
  have hinjective : Function.Injective fun c : Capability => decide (c = .connected) := by
    rintro (_ | _) (_ | _) heq
    · rfl
    · cases heq
    · cases heq
    · rfl
  have hnodup := (groupByCapability_grouped units).nodup.map hinjective
  rw [List.map_map] at hnodup
  rw [standard_isConnected h]
  exact hnodup

/-- The first transaction of the standard scheme is plain if the first unit is. -/
theorem standard_head_isConnected (h : standard.transactions units = .ok ts) :
    (ts.map (·.isConnected)).head? = some false ↔
      units.head?.map (·.capability) = some .plain := by
  have hhead := (groupByCapability_grouped units).head
  rw [List.head?_map] at hhead
  rw [standard_isConnected h, List.head?_map, ← hhead]
  rcases (groupByCapability units).head? with _ | ⟨_ | _, group⟩ <;> simp

/-- The transactions of the standard scheme are made of the given units. -/
theorem standard_isFresh (h : standard.transactions units = .ok ts) :
    ∀ t ∈ ts, ∃ group, (∀ u ∈ group, u ∈ units) ∧ t.IsFresh group := by
  intro t ht
  obtain ⟨i, hi, rfl⟩ := List.mem_iff_getElem.1 ht
  have hmade := standard_forall₂ h
  have hi' : i < (groupByCapability units).length := hmade.length_eq ▸ hi
  refine ⟨(groupByCapability units)[i].2, fun u hu => ?_, (hmade.get hi' hi).2⟩
  rw [(groupByCapability_grouped units).group _ (List.getElem_mem hi')] at hu
  exact List.mem_of_mem_filter hu

end TransactionScheme

end RecordStore
