import RecordStore.Proofs.Transaction.Grouping

/-!
# The order in which units run

Both groupings of units of work are of one kind: elements are grouped by a key, keys in the order in
which they are first seen, elements of a key in the order in which they are given (`arrangedBy`). So
what the transactions of a scheme run, one after the other, is the list of units arranged by
capability, and the units of a connected transaction arranged by connection
(`TransactionScheme.runOrder`, `TransactionScheme.usual_units`). An arrangement is a permutation: no
unit is lost, and none is run twice (`runOrder_perm`).

The connections of a connected transaction are those of the first unit of each identity, in the same
order (`TransactionScheme.standard_connections`).
-/

namespace RecordStore

/-! ### Elements by key -/

section Keys

variable {α κ : Type} [DecidableEq κ] {key : α → κ} {as : List α}

/-- The first element of each key. -/
def firstOf (key : α → κ) : List α → List α
  | [] => []
  | a :: rest => a :: (firstOf key rest).filter (key · ≠ key a)

/-- The keys of elements, in the order in which they are first seen. -/
def firstSeen (key : α → κ) (as : List α) : List κ := (firstOf key as).map key

/-- The elements of each key, as a group is arranged itself, keys in the order in which they are
    first seen. -/
def arrangedBy (key : α → κ) (inner : κ → List α → List α) (as : List α) : List α :=
  (firstSeen key as).flatMap fun k => inner k (as.filter (key · = k))

theorem firstOf_append_singleton (key : α → κ) (as : List α) (a : α) :
    firstOf key (as ++ [a]) =
      if key a ∈ as.map key then firstOf key as else firstOf key as ++ [a] := by
  induction as with
  | nil => rfl
  | cons b rest ih =>
    rw [List.cons_append, firstOf, firstOf, ih, List.map_cons]
    by_cases hrest : key a ∈ rest.map key
    · rw [if_pos hrest, if_pos (List.mem_cons_of_mem _ hrest)]
    · rw [if_neg hrest, List.filter_append, List.filter_singleton]
      by_cases hab : key a = key b
      · simp [hab]
      · have hfirst : key a ∉ key b :: rest.map key := by simpa [hab] using hrest
        simp [hab, hfirst]

theorem firstSeen_append_singleton (key : α → κ) (as : List α) (a : α) :
    firstSeen key (as ++ [a]) =
      if key a ∈ as.map key then firstSeen key as else firstSeen key as ++ [key a] := by
  rw [firstSeen, firstOf_append_singleton]
  split
  · rfl
  · rw [List.map_append, List.map_singleton, firstSeen]

@[simp]
theorem mem_firstSeen {k : κ} : k ∈ firstSeen key as ↔ k ∈ as.map key := by
  induction as using List.reverseRecOn with
  | nil => rfl
  | append_singleton as a ih =>
    rw [firstSeen_append_singleton]
    split
    · next ha =>
      rw [ih, List.map_append, List.mem_append, List.map_singleton, List.mem_singleton]
      exact ⟨.inl, fun h => h.elim id fun h => h ▸ ha⟩
    · rw [List.mem_append, ih, List.map_append, List.mem_append, List.map_singleton]

theorem nodup_firstSeen (key : α → κ) (as : List α) : (firstSeen key as).Nodup := by
  induction as using List.reverseRecOn with
  | nil => exact .nil
  | append_singleton as a ih =>
    rw [firstSeen_append_singleton]
    split
    · exact ih
    · next ha =>
      rw [← List.concat_eq_append]
      exact ih.concat (mt mem_firstSeen.1 ha)

/-- Groups of distinct keys hold every element once. -/
theorem flatMap_filter_perm {ks : List κ} (hnodup : ks.Nodup) (hcover : ∀ a ∈ as, key a ∈ ks) :
    (ks.flatMap fun k => as.filter (key · = k)).Perm as := by
  induction ks generalizing as with
  | nil =>
    rw [List.eq_nil_iff_forall_not_mem.2 fun a ha => List.not_mem_nil (hcover a ha)]
    exact .nil
  | cons k ks ih =>
    obtain ⟨hk, hnodup⟩ := List.nodup_cons.1 hnodup
    -- The other keys find their elements among those that do not have this one.
    have hothers : (ks.flatMap fun k' => as.filter (key · = k')) =
        ks.flatMap fun k' => (as.filter (key · ≠ k)).filter (key · = k') := by
      refine List.flatMap_congr fun k' hk' => ?_
      rw [List.filter_filter]
      refine List.filter_congr fun a _ => ?_
      by_cases ha : key a = k' <;> simp [ha, ne_of_mem_of_not_mem hk' hk]
    have hrest := @ih (as.filter (key · ≠ k)) hnodup fun a ha => by
      obtain ⟨ha, hne⟩ := List.mem_filter.1 ha
      exact List.mem_of_ne_of_mem (of_decide_eq_true hne) (hcover a ha)
    rw [List.flatMap_cons, hothers]
    refine (hrest.append_left _).trans ?_
    simpa using List.filter_append_perm (fun a => decide (key a = k)) as

/-- Of distinct keys, one at most is this one. -/
theorem flatMap_ite {β : Type} {ks : List κ} (hnodup : ks.Nodup) {k : κ} {bs : List β} :
    (ks.flatMap fun k' => if k' = k then bs else []) = if k ∈ ks then bs else [] := by
  induction ks with
  | nil => rfl
  | cons k' ks ih =>
    obtain ⟨hk', hnodup⟩ := List.nodup_cons.1 hnodup
    rw [List.flatMap_cons, ih hnodup]
    by_cases heq : k' = k
    · subst heq
      simp [hk']
    · simp [heq, Ne.symm heq]

/-- What meets one of two conditions that exclude each other. -/
theorem filter_or_perm {p q : α → Bool} (hexclusive : ∀ a ∈ as, q a = true → p a = false) :
    (as.filter fun a => p a || q a).Perm (as.filter p ++ as.filter q) := by
  have hp : as.filter p = (as.filter fun a => p a || q a).filter p := by
    rw [List.filter_filter]
    exact List.filter_congr fun a _ => by cases p a <;> simp
  have hq : as.filter q = (as.filter fun a => p a || q a).filter (!p ·) := by
    rw [List.filter_filter]
    refine List.filter_congr fun a ha => ?_
    have hexcluded := hexclusive a ha
    cases hqa : q a <;> simp_all
  rw [hp, hq]
  exact (List.filter_append_perm p _).symm

theorem arrangedBy_perm {inner : κ → List α → List α}
    (hinner : ∀ k group, (inner k group).Perm group) (as : List α) : (arrangedBy key inner as).Perm as :=
  (List.Perm.flatMap_left _ fun k _ => hinner k _).trans
    (flatMap_filter_perm (nodup_firstSeen key as) fun _ ha =>
      mem_firstSeen.2 (List.mem_map_of_mem ha))

/-- Whether the key of one element is first seen before that of another. -/
def sooner (key : α → κ) (as : List α) (b a : α) : Bool :=
  (as.map key).idxOf (key b) < (as.map key).idxOf (key a)

theorem firstSeen_pairwise (key : α → κ) (as : List α) :
    (firstSeen key as).Pairwise fun k k' => (as.map key).idxOf k < (as.map key).idxOf k' := by
  induction as using List.reverseRecOn with
  | nil => exact .nil
  | append_singleton as a ih =>
    rw [List.map_append, List.map_singleton, firstSeen_append_singleton]
    have hkept : (firstSeen key as).Pairwise fun k k' =>
        (as.map key ++ [key a]).idxOf k < (as.map key ++ [key a]).idxOf k' := by
      refine ih.imp_of_mem fun hk hk' h => ?_
      rwa [List.idxOf_append_of_mem (mem_firstSeen.1 hk),
        List.idxOf_append_of_mem (mem_firstSeen.1 hk')]
    split
    · exact hkept
    · next ha =>
      refine List.pairwise_append.2 ⟨hkept, List.pairwise_singleton _ _, fun k hk k' hk' => ?_⟩
      rw [List.mem_singleton.1 hk', List.idxOf_append_of_mem (mem_firstSeen.1 hk),
        List.idxOf_append_of_notMem ha]
      exact Nat.lt_add_right _ (List.idxOf_lt_length_of_mem (mem_firstSeen.1 hk))

/-- What is arranged before an element: all elements whose keys are seen sooner, and what its own
    group puts before it. -/
theorem arrangedBy_split {inner : κ → List α → List α}
    (hinner : ∀ k group, (inner k group).Perm group) {earlier later : List α} {a : α}
    {ahead' behind' : List α}
    (hsplit : inner (key a) ((earlier ++ a :: later).filter (key · = key a)) =
      ahead' ++ a :: behind') :
    ∃ ahead behind, arrangedBy key inner (earlier ++ a :: later) = ahead ++ a :: behind ∧
      ahead.Perm ((earlier ++ a :: later).filter (sooner key (earlier ++ a :: later) · a) ++
        ahead') := by
  generalize hall : earlier ++ a :: later = all at hsplit ⊢
  have ha : a ∈ all := by simp [← hall]
  obtain ⟨pre, post, hks⟩ :=
    List.append_of_mem (mem_firstSeen.2 (List.mem_map_of_mem (f := key) ha))
  have hsorted := hks ▸ firstSeen_pairwise key all
  obtain ⟨-, hpost, hpre⟩ := List.pairwise_append.1 hsorted
  -- The keys before that of the element are those that are seen sooner.
  have hsooner : ∀ b ∈ all, sooner key all b a = true ↔ key b ∈ pre := by
    intro b hb
    have hkey : key b ∈ pre ++ key a :: post :=
      hks ▸ mem_firstSeen.2 (List.mem_map_of_mem hb)
    rw [sooner, decide_eq_true_iff]
    refine ⟨fun hlt => ?_, fun hmem => hpre _ hmem _ List.mem_cons_self⟩
    rcases List.mem_append.1 hkey with hmem | hmem
    · exact hmem
    · rcases List.mem_cons.1 hmem with heq | hmem
      · exact absurd hlt (heq ▸ Nat.lt_irrefl _)
      · exact absurd hlt (Nat.lt_asymm ((List.pairwise_cons.1 hpost).1 _ hmem))
  refine ⟨(pre.flatMap fun k => inner k (all.filter (key · = k))) ++ ahead',
    behind' ++ post.flatMap fun k => inner k (all.filter (key · = k)), ?_, ?_⟩
  · simp [arrangedBy, hks, hsplit]
  · refine List.Perm.append_right _ ?_
    have hgroups : ∀ k ∈ pre, all.filter (key · = k) =
        (all.filter (sooner key all · a)).filter (key · = k) := by
      intro k hk
      rw [List.filter_filter]
      refine List.filter_congr fun b hb => ?_
      by_cases heq : key b = k
      · simp [heq, (hsooner b hb).2 (heq ▸ hk)]
      · simp [heq]
    have hperm : (pre.flatMap fun k => all.filter (key · = k)).Perm
        (all.filter (sooner key all · a)) := by
      rw [List.flatMap_congr hgroups]
      refine flatMap_filter_perm (List.nodup_append.1 (hks ▸ nodup_firstSeen key all)).1 ?_
      intro b hb
      obtain ⟨hb, hlt⟩ := List.mem_filter.1 hb
      exact (hsooner b hb).1 hlt
    exact (List.Perm.flatMap_left _ fun k _ => hinner k _).trans hperm

end Keys

variable {σ : Type} {units : List (WorkUnit σ)} {u : WorkUnit σ} {c : Connection σ}

/-- The identity of the connection that a unit of work names. -/
def WorkUnit.connectionId? (u : WorkUnit σ) : Option ConnectionId := u.connection.map (·.id)

/-! ### By connection -/

namespace Strand

variable {gs : List (Strand σ)}

/-- A unit goes to the strand of its connection, or to one of its own at the end. -/
theorem add_eq (hnodup : (gs.map (·.connection.id)).Nodup) :
    add c u gs =
      if c.id ∈ gs.map (·.connection.id) then
        gs.map fun g => if g.connection.id = c.id then { g with units := g.units ++ [u] } else g
      else gs ++ [{ connection := c, units := [u] }] := by
  induction gs with
  | nil => rfl
  | cons g rest ih =>
    obtain ⟨hg, hnodup⟩ := List.nodup_cons.1 hnodup
    by_cases heq : g.connection.id = c.id
    · have hrest : rest.map (fun g => if g.connection.id = c.id then
          { g with units := g.units ++ [u] } else g) = rest := by
        refine (List.map_congr_left fun g' hg' => if_neg fun heq' => hg ?_).trans (List.map_id _)
        exact List.mem_map.2 ⟨g', hg', heq'.trans heq.symm⟩
      simp [add, heq, hrest]
    · rw [add, if_neg heq, ih hnodup, List.map_cons, List.map_cons, if_neg heq]
      by_cases hc : c.id ∈ rest.map (·.connection.id)
      · rw [if_pos hc, if_pos (List.mem_cons_of_mem _ hc)]
      · rw [if_neg hc, if_neg (List.not_mem_cons_of_ne_of_not_mem (Ne.symm heq) hc),
          List.cons_append]

/-- One strand for each connection of these units, in the order in which they are first seen, with
    all units of that connection in their order. -/
structure Laid (units : List (WorkUnit σ)) (gs : List (Strand σ)) : Prop where
  connections : gs.map (·.connection) = firstOf (·.id) (units.filterMap (·.connection))
  ids : gs.map (some ·.connection.id) = firstSeen (·.connectionId?) units
  units : ∀ g ∈ gs, g.units = units.filter (·.connectionId? = some g.connection.id)

theorem Laid.add (h : Laid units gs) (hu : u.connection = some c) :
    Laid (units ++ [u]) (Strand.add c u gs) := by
  have hid : u.connectionId? = some c.id := by rw [WorkUnit.connectionId?, hu]; rfl
  have hseen : some c.id ∈ units.map (·.connectionId?) ↔ c.id ∈ gs.map (·.connection.id) := by
    rw [← mem_firstSeen, ← h.ids]
    simp
  have hnamed : c.id ∈ (units.filterMap (·.connection)).map (·.id) ↔
      c.id ∈ gs.map (·.connection.id) := by
    rw [← hseen, List.map_filterMap, List.mem_filterMap, List.mem_map]
    rfl
  have hnodup : (gs.map (·.connection.id)).Nodup := by
    refine List.Nodup.of_map some ?_
    rw [List.map_map]
    exact h.ids ▸ nodup_firstSeen _ units
  by_cases hc : c.id ∈ gs.map (·.connection.id)
  · rw [add_eq hnodup, if_pos hc]
    have hconnection : ∀ g : Strand σ, (if g.connection.id = c.id then
        { g with units := g.units ++ [u] } else g).connection = g.connection := fun g => by
      split <;> rfl
    refine ⟨?_, ?_, fun g hg => ?_⟩
    · rw [List.map_map]
      refine (List.map_congr_left fun g _ => hconnection g).trans ?_
      simp [h.connections, firstOf_append_singleton, hu, hnamed, hc]
    · rw [List.map_map]
      refine (List.map_congr_left fun g _ => congrArg (some ·.id) (hconnection g)).trans ?_
      simp [h.ids, firstSeen_append_singleton, hid, hseen, hc]
    · obtain ⟨g', hg', rfl⟩ := List.mem_map.1 hg
      rw [hconnection, List.filter_append, ← h.units g' hg', List.filter_singleton, hid]
      by_cases heq : g'.connection.id = c.id <;> simp [heq, Ne.symm]
  · rw [add_eq hnodup, if_neg hc]
    refine ⟨?_, ?_, fun g hg => ?_⟩
    · simp [h.connections, firstOf_append_singleton, hu, hnamed, hc]
    · simp [h.ids, firstSeen_append_singleton, hid, hseen, hc]
    · rw [List.filter_append, List.filter_singleton, hid]
      rcases List.mem_append.1 hg with hg | hg
      · have hne : c.id ≠ g.connection.id := fun heq => hc (List.mem_map.2 ⟨g, hg, heq.symm⟩)
        simp [h.units g hg, hne]
      · rw [List.mem_singleton.1 hg]
        have hnone : units.filter (·.connectionId? = some c.id) = [] :=
          List.filter_eq_nil_iff.2 fun v hv hv' =>
            hc (hseen.1 (List.mem_map.2 ⟨v, hv, of_decide_eq_true hv'⟩))
        simp [hnone]

theorem ofUnits_laid (h : ofUnits units = .ok gs) : Laid units gs := by
  induction units using List.reverseRecOn generalizing gs with
  | nil =>
    cases h
    exact ⟨rfl, rfl, by simp⟩
  | append_singleton units u ih =>
    obtain ⟨gs', c, hgs', hu, rfl⟩ := ofUnits_append h
    exact (ih hgs').add hu

/-- The strands hold the units arranged by connection. -/
theorem Laid.flatMap_units (h : Laid units gs) :
    gs.flatMap (·.units) = arrangedBy (·.connectionId?) (fun _ group => group) units := by
  rw [arrangedBy, ← h.ids, List.flatMap_map]
  exact List.flatMap_congr h.units

end Strand

/-! ### By capability -/

namespace TransactionScheme

/-- Units of these capabilities run on their connections, the others by themselves. -/
def usual (connects : Capability → Bool) : TransactionScheme σ where
  assemble c := if connects c then Transaction.ofConnected else Transaction.ofPlain

theorem standard_eq_usual : (standard : TransactionScheme σ) = usual (· = .connected) := by
  rw [standard, usual]
  congr 1
  funext c
  cases c <;> rfl

/-- The order in which the units of a capability run: as they are given, or, where they run on their
    connections, by connection, in the order in which these are first seen. -/
def lanes (connects : Capability → Bool) (c : Capability) (group : List (WorkUnit σ)) :
    List (WorkUnit σ) :=
  if connects c then arrangedBy (·.connectionId?) (fun _ line => line) group else group

theorem lanes_perm (connects : Capability → Bool) (c : Capability) (group : List (WorkUnit σ)) :
    (lanes connects c group).Perm group := by
  rw [lanes]
  split
  · exact arrangedBy_perm (fun _ line => .refl line) group
  · exact .refl group

/-- The order in which units run: by capability, in the order in which these are first seen. -/
def runOrder (connects : Capability → Bool) (units : List (WorkUnit σ)) : List (WorkUnit σ) :=
  arrangedBy (·.capability) (lanes connects) units

/-- Every unit runs, and none more often than it is given. -/
theorem runOrder_perm (connects : Capability → Bool) (units : List (WorkUnit σ)) :
    (runOrder connects units).Perm units := arrangedBy_perm (lanes_perm connects) units

/-! ### What runs before a unit -/

/-- Whether a unit is of the same capability as another, but on a connection that is seen sooner. -/
def goesAheadInLane (connects : Capability → Bool) (units : List (WorkUnit σ))
    (v u : WorkUnit σ) : Bool :=
  v.capability = u.capability && connects u.capability &&
    sooner (·.connectionId?) (units.filter (·.capability = u.capability)) v u

/-- Whether a unit runs before another wherever it is given: its capability is first seen sooner, or
    it is of the same capability and its connection is first seen sooner. -/
def goesAhead (connects : Capability → Bool) (units : List (WorkUnit σ))
    (v u : WorkUnit σ) : Bool :=
  sooner (·.capability) units v u || goesAheadInLane connects units v u

/-- Whether two units run in the order in which they are given. -/
def keepsPace (connects : Capability → Bool) (v u : WorkUnit σ) : Bool :=
  v.capability = u.capability && (!connects u.capability || v.connectionId? = u.connectionId?)

section Before

variable {connects : Capability → Bool} {units earlier later : List (WorkUnit σ)} {v : WorkUnit σ}

theorem goesAhead_self : goesAhead connects units u u = false := by
  simp [goesAhead, goesAheadInLane, sooner]

theorem not_goesAhead_of_keepsPace (h : keepsPace connects v u = true) :
    goesAhead connects units v u = false := by
  simp only [keepsPace, Bool.and_eq_true, decide_eq_true_eq, Bool.or_eq_true] at h
  obtain ⟨hcapability, hconnects | hconnection⟩ := h
  · simp_all [goesAhead, goesAheadInLane, sooner]
  · simp [goesAhead, goesAheadInLane, sooner, hcapability, hconnection]

/-- What goes ahead of a unit does so by its capability or by its connection. -/
theorem filter_goesAhead_perm :
    (units.filter (goesAhead connects units · u)).Perm
      (units.filter (sooner (·.capability) units · u) ++
        units.filter (goesAheadInLane connects units · u)) := by
  refine filter_or_perm fun v _ hv => ?_
  have hsame : v.capability = u.capability := by simp_all [goesAheadInLane]
  simp [sooner, hsame]

/-- In its capability, a unit follows those on connections that are seen sooner, and those before it
    on its own. -/
theorem lanes_split (hunits : earlier ++ u :: later = units) :
    ∃ ahead behind, lanes connects u.capability (units.filter (·.capability = u.capability)) =
        ahead ++ u :: behind ∧
      ahead.Perm (units.filter (goesAheadInLane connects units · u) ++
        earlier.filter (keepsPace connects · u)) := by
  have hgroup : units.filter (·.capability = u.capability) =
      earlier.filter (·.capability = u.capability) ++
        u :: later.filter (·.capability = u.capability) := by simp [← hunits]
  by_cases hconnects : connects u.capability = true
  · simp only [lanes, hconnects, if_true, keepsPace, goesAheadInLane]
    obtain ⟨ahead, behind, harranged, hahead⟩ := @arrangedBy_split _ _ _ (·.connectionId?)
      (fun _ line => line) (fun _ line => .refl line)
      (earlier.filter (·.capability = u.capability)) (later.filter (·.capability = u.capability))
      u _ _ (by rw [List.filter_append, List.filter_cons_of_pos (by simp)])
    rw [← hgroup] at harranged hahead
    refine ⟨ahead, behind, harranged, ?_⟩
    rw [List.filter_filter, List.filter_filter] at hahead
    refine hahead.trans (.of_eq ?_)
    congr 1 <;> exact List.filter_congr fun v _ => by simp [Bool.and_comm]
  · refine ⟨_, _, by rw [lanes, if_neg hconnects, hgroup], .of_eq ?_⟩
    simp [hconnects, keepsPace, goesAheadInLane]

/-- What runs before a unit: those that are given before it and go ahead of it or keep pace with it,
    and those that are given after it and go ahead of it. -/
theorem runOrder_split (connects : Capability → Bool) (hunits : earlier ++ u :: later = units) :
    ∃ ahead behind, runOrder connects units = ahead ++ u :: behind ∧
      ahead.Perm (earlier.filter (fun v => goesAhead connects units v u || keepsPace connects v u) ++
        later.filter (goesAhead connects units · u)) := by
  obtain ⟨ahead', behind', hlanes, hahead'⟩ := @lanes_split _ _ connects _ _ _ hunits
  obtain ⟨ahead, behind, harranged, hahead⟩ := @arrangedBy_split _ _ _ (·.capability) _
    (lanes_perm connects) earlier later u ahead' behind' (by rw [hunits]; exact hlanes)
  rw [hunits] at harranged hahead
  have hgoes : units.filter (goesAhead connects units · u) =
      earlier.filter (goesAhead connects units · u) ++
        later.filter (goesAhead connects units · u) := by
    conv_lhs => rw [← hunits, List.filter_append, List.filter_cons, hunits, goesAhead_self]
    rfl
  have hearlier := @filter_or_perm _ earlier (goesAhead connects units · u)
    (keepsPace connects · u) fun v _ h => not_goesAhead_of_keepsPace h
  refine ⟨ahead, behind, harranged, hahead.trans ((hahead'.append_left _).trans ?_)⟩
  rw [← List.append_assoc]
  refine (filter_goesAhead_perm.symm.append_right _).trans ?_
  rw [hgoes, List.append_assoc]
  refine (List.perm_append_comm.append_left _).trans ?_
  rw [← List.append_assoc]
  exact hearlier.symm.append_right _

end Before

/-! ### The transactions of a scheme -/

theorem groupByCapability_eq (units : List (WorkUnit σ)) :
    groupByCapability units =
      (firstSeen (·.capability) units).map fun c => (c, units.filter (·.capability = c)) := by
  have hkeys : (groupByCapability units).map (·.1) = firstSeen (·.capability) units := by
    induction units using List.reverseRecOn with
    | nil => rfl
    | append_singleton units u ih =>
      have hadd : groupByCapability (units ++ [u]) = addToGroup u (groupByCapability units) := by
        rw [groupByCapability, List.foldl_append]
        rfl
      rw [hadd, map_fst_addToGroup, ih, firstSeen_append_singleton]
      simp only [mem_firstSeen]
  rw [← hkeys, List.map_map]
  refine (List.map_id _).symm.trans (List.map_congr_left fun p hp => ?_)
  exact Prod.ext rfl ((groupByCapability_grouped units).group p hp)

variable {connects : Capability → Bool} {ts : List (Transaction σ)}

/-- A usual scheme makes one transaction of the units of each capability. -/
theorem usual_forall₂ (h : (usual connects).transactions units = .ok ts) :
    List.Forall₂ (fun c t =>
      (if connects c then Transaction.ofConnected else Transaction.ofPlain)
        (units.filter (·.capability = c)) = .ok t) (firstSeen (·.capability) units) ts := by
  have hmade := forall₂_of_mapM_eq_ok h
  rwa [groupByCapability_eq, List.forall₂_map_left_iff] at hmade

theorem usual_isFresh (h : (usual connects).transactions units = .ok ts) :
    ∀ t ∈ ts, ∃ group, t.IsFresh group := by
  intro t ht
  obtain ⟨i, hi, rfl⟩ := List.mem_iff_getElem.1 ht
  have hmade := usual_forall₂ h
  have hone := hmade.get (hmade.length_eq ▸ hi) hi
  simp only [List.get_eq_getElem] at hone
  split at hone
  · exact ⟨_, .inl hone⟩
  · exact ⟨_, .inr hone⟩

/-- What the transactions have is what each of them has, in the order of the capabilities. -/
theorem usual_flatMap {β : Type} {part : Transaction σ → List β} {f : Capability → List β}
    (h : (usual connects).transactions units = .ok ts)
    (hpart : ∀ c t, (if connects c then Transaction.ofConnected else Transaction.ofPlain)
      (units.filter (·.capability = c)) = .ok t → part t = f c) :
    ts.flatMap part = (firstSeen (·.capability) units).flatMap f := by
  have hmade := usual_forall₂ h
  clear h
  generalize firstSeen (·.capability) units = cs at hmade
  induction hmade with
  | nil => rfl
  | cons ht _ ih => rw [List.flatMap_cons, List.flatMap_cons, hpart _ _ ht, ih]

theorem ofConnected_laid {group : List (WorkUnit σ)} {t : Transaction σ}
    (h : Transaction.ofConnected group = .ok t) : Strand.Laid group t.strands ∧
      t.units = t.strands.flatMap (·.units) := by
  rw [Transaction.ofConnected] at h
  rcases hgs : Strand.ofUnits group with e | gs <;> rw [hgs] at h <;> cases h
  exact ⟨Strand.ofUnits_laid hgs, rfl⟩

/-- The transactions of a usual scheme run the units in their order. -/
theorem usual_units (h : (usual connects).transactions units = .ok ts) :
    ts.flatMap (·.units) = runOrder connects units := by
  refine usual_flatMap h fun c t ht => ?_
  split at ht
  · next hc =>
    obtain ⟨hlaid, hunits⟩ := ofConnected_laid ht
    rw [hunits, hlaid.flatMap_units]
    exact (if_pos hc).symm
  · next hc =>
    cases ht
    exact (if_neg hc).symm

/-- The connections of the standard scheme are those of the first connected unit of each identity. -/
theorem standard_connections (h : standard.transactions units = .ok ts) :
    (ts.flatMap (·.strands)).map (·.connection) =
      firstOf (·.id) ((units.filter (·.capability = .connected)).filterMap (·.connection)) := by
  rw [standard_eq_usual] at h
  have hstrands : (ts.flatMap (·.strands)).map (·.connection) =
      (firstSeen (·.capability) units).flatMap fun c => if c = .connected then
        firstOf (·.id) ((units.filter (·.capability = .connected)).filterMap (·.connection))
      else [] := by
    rw [List.map_flatMap]
    refine usual_flatMap h fun c t ht => ?_
    cases c with
    | connected => exact (ofConnected_laid ht).1.connections
    | plain =>
      cases ht
      rfl
  rw [hstrands, flatMap_ite (nodup_firstSeen _ units)]
  split
  · rfl
  · next hnone =>
    have hempty : units.filter (·.capability = .connected) = [] :=
      List.filter_eq_nil_iff.2 fun u hu hcap =>
        hnone (mem_firstSeen.2 (List.mem_map.2 ⟨u, hu, of_decide_eq_true hcap⟩))
    rw [hempty]
    rfl

end TransactionScheme

end RecordStore
