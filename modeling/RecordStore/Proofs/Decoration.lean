import RecordStore.Proofs.Transaction.Grouping

/-!
# Decorated worlds

To say what happens on the way of an action, it is run in a world that holds more than the action
needs: notes of what was done, or models with names. Such a world is *decorated*; a *view* takes the
decoration away. An action in the decorated world *decorates* another one (`Act.Decorates`) if, seen
through the view, it does the same: it has the same result and leaves the same world. So whatever is
found out about the decorated run is true of the run itself.

* What is made of decorated actions by sequence and loops is decorated.
* A chain of decorated units, on decorated connections, is decorated
  (`TransactionScheme.standard_decorates`).
-/

namespace RecordStore

variable {σ τ ρ ϱ α α' β β' : Type} {view : τ → σ}

namespace Act

/-- Seen through the view of its world and of its result, `f'` does what `f` does. -/
def Decorates (view : τ → σ) (value : α' → α) (f' : Act τ α') (f : Act σ α) : Prop :=
  ∀ t, f.perform (view t) = ((f'.perform t).1.map value, view (f'.perform t).2)

/-- Seen through the view of its world, `f'` does what `f` does. -/
abbrev Follows (view : τ → σ) (f' : Act τ α) (f : Act σ α) : Prop := f'.Decorates view id f

/-- The outcome of a loop, seen through the view, with related things beside the world. -/
def Reflects (view : τ → σ) (A : β' → β → Prop) (r' : Except StoreError Unit × τ × β')
    (r : Except StoreError Unit × σ × β) : Prop :=
  ∃ b, A r'.2.2 b ∧ r = (r'.1, view r'.2.1, b)

section Rules

variable {value : α' → α}

theorem follows_iff {f' : Act τ α} {f : Act σ α} :
    f'.Follows view f ↔
      ∀ t, f.perform (view t) = ((f'.perform t).1, view (f'.perform t).2) := by
  simp only [Decorates, Except.map_id, id]

theorem decorates_pure (a : α') :
    (pure a : Act τ α').Decorates view value (pure (value a)) := fun _ => rfl

theorem decorates_fail (e : StoreError) :
    (fail e : Act τ α').Decorates view value (fail e) := fun _ => rfl

theorem decorates_ofExcept (r : Except StoreError Unit) :
    (ofExcept r : Act τ Unit).Follows view (ofExcept r) :=
  follows_iff.2 fun _ => rfl

theorem decorates_change {f' : τ → τ} {f : σ → σ} (h : ∀ t, f (view t) = view (f' t)) :
    (change f').Follows view (change f) :=
  follows_iff.2 fun t => by rw [perform_change, perform_change, h]

theorem Decorates.bind {value' : β' → β} {f' : Act τ α'} {g' : α' → Act τ β'} {f : Act σ α}
    {g : α → Act σ β} (hf : f'.Decorates view value f)
    (hg : ∀ a, (g' a).Decorates view value' (g (value a))) :
    (f' >>= g').Decorates view value' (f >>= g) := by
  intro t
  rw [perform_bind, perform_bind, hf t]
  rcases f'.perform t with ⟨_ | a, t'⟩
  · rfl
  · exact hg a t'

/-- What is read of the world, and what follows from it. -/
theorem decorates_read_bind {value' : β' → β} {f' : τ → α'} {f : σ → α} {g' : α' → Act τ β'}
    {g : α → Act σ β} (hg : ∀ t, (g' (f' t)).Decorates view value' (g (f (view t)))) :
    (read f' >>= g').Decorates view value' (read f >>= g) := fun t => hg t t

/-- An action on a part of the world, where the view of the whole is that of the part. -/
theorem Decorates.zoom {l' : Lens τ ϱ} {l : Lens σ ρ} {inner : ϱ → ρ} {f' : Act ϱ α'}
    {f : Act ρ α} (h : f'.Decorates inner value f) (hget : ∀ t, l.get (view t) = inner (l'.get t))
    (hset : ∀ r t, l.set (inner r) (view t) = view (l'.set r t)) :
    (f'.zoom l').Decorates view value (f.zoom l) := by
  intro t
  rw [perform_zoom, perform_zoom, hget, h]
  exact Prod.ext rfl (hset _ t)

/-- An action that is done to a part of a decorated world. -/
theorem zoom_decorates {l' : Lens τ ρ} {l : Lens σ ρ} (hget : ∀ t, l.get (view t) = l'.get t)
    (hset : ∀ r t, l.set r (view t) = view (l'.set r t)) (f : Act ρ α) :
    (f.zoom l').Follows view (f.zoom l) := by
  intro t
  rw [perform_zoom, perform_zoom, hget, hset, Except.map_id]
  rfl

end Rules

theorem each_reflects {A : β' → β → Prop} {f' : Act (τ × β') Unit} {f : Act (σ × β) Unit}
    (h : ∀ t b' b, A b' b → Reflects view A (f'.perform (t, b')) (f.perform (view t, b)))
    {bs' : List β'} {bs : List β} (hbs : List.Forall₂ A bs' bs) (t : τ) :
    Reflects view (List.Forall₂ A) (each f' bs' t) (each f bs (view t)) := by
  induction hbs generalizing t with
  | nil => exact ⟨[], .nil, rfl⟩
  | @cons b' b rest' rest hb hrest ih =>
    obtain ⟨b₁, hb₁, heq⟩ := h t b' b hb
    rw [each, each, heq]
    rcases hf : f'.perform (t, b') with ⟨_ | _, t₁, b₁'⟩ <;> rw [hf] at hb₁
    · exact ⟨b₁ :: rest, .cons hb₁ hrest, rfl⟩
    · obtain ⟨bs₁, hbs₁, heq⟩ := ih t₁
      exact ⟨b₁ :: bs₁, .cons hb₁ hbs₁, by simp only [heq]⟩

/-- A loop over decorated elements. -/
theorem Decorates.forEach {item : β' → β} {f' : Act (τ × β') Unit} {f : Act (σ × β) Unit}
    (h : f'.Follows (fun p => (view p.1, item p.2)) f) :
    (forEach f').Follows (fun p => (view p.1, p.2.map item)) (forEach f) := by
  rw [follows_iff] at h ⊢
  rintro ⟨t, bs'⟩
  have hone : ∀ t b' b, item b' = b →
      Reflects view (fun b' b => item b' = b) (f'.perform (t, b')) (f.perform (view t, b)) := by
    rintro t b' b rfl
    exact ⟨_, rfl, h (t, b')⟩
  have hitems : List.Forall₂ (fun b' b => item b' = b) bs' (bs'.map item) :=
    List.forall₂_map_right_iff.2 (List.forall₂_same.2 fun _ _ => rfl)
  obtain ⟨bs, hbs, heq⟩ := each_reflects hone hitems t
  obtain rfl : (Act.each f' bs' t).2.2.map item = bs := by
    rw [← List.forall₂_eq_eq_eq, List.forall₂_map_left_iff]
    exact hbs
  exact heq

end Act

/-! ### Connections, units and transactions -/

/-- A connection whose control calls decorate those of another one. -/
structure Connection.Decorates (view : τ → σ) (c' : Connection τ) (c : Connection σ) : Prop where
  sameId : c'.id = c.id
  inTransaction : ∀ t, c.inTransaction (view t) = c'.inTransaction t
  begin : c'.begin.Follows view c.begin
  commit : c'.commit.Follows view c.commit
  rollback : c'.rollback.Follows view c.rollback

theorem Connection.zoom_decorates {l' : Lens τ ρ} {l : Lens σ ρ}
    (hget : ∀ t, l.get (view t) = l'.get t) (hset : ∀ r t, l.set r (view t) = view (l'.set r t))
    (c : Connection ρ) : (c.zoom l').Decorates view (c.zoom l) where
  sameId := rfl
  inTransaction t := by simp only [zoom, hget]
  begin := Act.zoom_decorates hget hset _
  commit := Act.zoom_decorates hget hset _
  rollback := Act.zoom_decorates hget hset _

/-- Connections of parts of the worlds, where the view of the whole is that of the part. -/
theorem Connection.Decorates.zoom {l' : Lens τ ϱ} {l : Lens σ ρ} {inner : ϱ → ρ}
    {c' : Connection ϱ} {c : Connection ρ} (h : c'.Decorates inner c)
    (hget : ∀ t, l.get (view t) = inner (l'.get t))
    (hset : ∀ r t, l.set (inner r) (view t) = view (l'.set r t)) :
    (c'.zoom l').Decorates view (c.zoom l) where
  sameId := h.sameId
  inTransaction t := by simp only [Connection.zoom, hget, h.inTransaction]
  begin := h.begin.zoom hget hset
  commit := h.commit.zoom hget hset
  rollback := h.rollback.zoom hget hset

/-- A unit that decorates another one, on a connection that decorates the other's. -/
structure WorkUnit.Decorates (view : τ → σ) (u' : WorkUnit τ) (u : WorkUnit σ) : Prop where
  connection : Option.Rel (Connection.Decorates view) u'.connection u.connection
  capability : u'.capability = u.capability
  run : u'.run.Follows view u.run

structure Strand.Decorates (view : τ → σ) (g' : Strand τ) (g : Strand σ) : Prop where
  connection : g'.connection.Decorates view g.connection
  isOwned : g'.isOwned = g.isOwned
  units : List.Forall₂ (WorkUnit.Decorates view) g'.units g.units

inductive Transaction.Decorates (view : τ → σ) : Transaction τ → Transaction σ → Prop
  | connected {gs' : List (Strand τ)} {gs : List (Strand σ)} :
    List.Forall₂ (Strand.Decorates view) gs' gs → Decorates view (.connected gs') (.connected gs)
  | plain {us' : List (WorkUnit τ)} {us : List (WorkUnit σ)} :
    List.Forall₂ (WorkUnit.Decorates view) us' us → Decorates view (.plain us') (.plain us)

theorem WorkUnit.runAll_decorates {us' : List (WorkUnit τ)} {us : List (WorkUnit σ)}
    (h : List.Forall₂ (Decorates view) us' us) :
    (runAll us').Follows view (runAll us) := by
  induction h with
  | nil => exact Act.decorates_pure ()
  | cons hu _ ih => exact hu.run.bind fun _ => ih

namespace Strand

variable {gs' : List (Strand τ)} {gs : List (Strand σ)}

theorem begin_reflects {g' : Strand τ} {g : Strand σ} (h : g'.Decorates view g) (t : τ) :
    Act.Reflects view (Decorates view) (begin.perform (t, g')) (begin.perform (view t, g)) := by
  simp only [begin, Act.perform_make, h.connection.inTransaction]
  by_cases hopen : g'.connection.inTransaction t = true
  · simp only [hopen, if_true]
    exact ⟨g, h, rfl⟩
  · simp only [hopen, Act.follows_iff.1 h.connection.begin t]
    rcases g'.connection.begin.perform t with ⟨_ | _, t₁⟩
    · exact ⟨g, h, rfl⟩
    · exact ⟨{ g with isOwned := true }, ⟨h.connection, rfl, h.units⟩, rfl⟩

theorem commitAll_reflects (total n : Nat) (h : List.Forall₂ (Decorates view) gs' gs) (t : τ) :
    Act.Reflects view (List.Forall₂ (Decorates view)) (commitAll total n gs' t)
      (commitAll total n gs (view t)) := by
  induction h generalizing n t with
  | nil => exact ⟨[], .nil, rfl⟩
  | @cons g' g rest' rest hg hrest ih =>
    simp only [commitAll, ← hg.isOwned]
    by_cases howned : g'.isOwned = true
    · simp only [howned, if_true, Act.follows_iff.1 hg.connection.commit t]
      rcases g'.connection.commit.perform t with ⟨_ | _, t₁⟩
      · exact ⟨g :: rest, .cons hg hrest, rfl⟩
      · obtain ⟨gs₁, hgs₁, heq⟩ := ih (n + 1) t₁
        exact ⟨{ g with isOwned := false } :: gs₁, .cons ⟨hg.connection, rfl, hg.units⟩ hgs₁,
          by simp only [heq]⟩
    · obtain ⟨gs₁, hgs₁, heq⟩ := ih n t
      refine ⟨g :: gs₁, ?_, by simp only [howned, heq]; rfl⟩
      simp only [howned]
      exact .cons hg hgs₁

theorem undoAll_reflects (h : List.Forall₂ (Decorates view) gs' gs) (t : τ) :
    Act.Reflects view (List.Forall₂ (Decorates view)) (undoAll gs' t)
      (undoAll gs (view t)) := by
  induction h generalizing t with
  | nil => exact ⟨[], .nil, rfl⟩
  | @cons g' g rest' rest hg hrest ih =>
    simp only [undoAll, ← hg.isOwned]
    by_cases howned : g'.isOwned = true
    · simp only [howned, if_true, Act.follows_iff.1 hg.connection.rollback t]
      rcases g'.connection.rollback.perform t with ⟨r, t₁⟩
      obtain ⟨gs₁, hgs₁, heq⟩ := ih t₁
      exact ⟨{ g with isOwned := false } :: gs₁, .cons ⟨hg.connection, rfl, hg.units⟩ hgs₁,
        by simp only [heq]⟩
    · obtain ⟨gs₁, hgs₁, heq⟩ := ih t
      refine ⟨g :: gs₁, ?_, by simp only [howned, heq]; rfl⟩
      simp only [howned]
      exact .cons hg hgs₁

theorem filter_isOwned_length (h : List.Forall₂ (Decorates view) gs' gs) :
    (gs'.filter (·.isOwned)).length = (gs.filter (·.isOwned)).length := by
  induction h with
  | nil => rfl
  | cons hg _ ih =>
    simp only [List.filter_cons, hg.isOwned]
    split <;> simp [ih]

theorem add_decorates {c' : Connection τ} {c : Connection σ} {u' : WorkUnit τ} {u : WorkUnit σ}
    (hc : c'.Decorates view c) (hu : u'.Decorates view u)
    (h : List.Forall₂ (Decorates view) gs' gs) :
    List.Forall₂ (Decorates view) (add c' u' gs') (add c u gs) := by
  induction h with
  | nil => exact .cons ⟨hc, rfl, .cons hu .nil⟩ .nil
  | @cons g' g rest' rest hg hrest ih =>
    simp only [add, hg.connection.sameId, hc.sameId]
    split
    · exact .cons ⟨hg.connection, hg.isOwned, List.rel_append hg.units (.cons hu .nil)⟩ hrest
    · exact .cons hg ih

end Strand

namespace Transaction

variable {t' : Transaction τ} {t : Transaction σ}

theorem begin_reflects (h : t'.Decorates view t) (s : τ) :
    Act.Reflects view (Decorates view) (begin.perform (s, t')) (begin.perform (view s, t)) := by
  cases h with
  | plain hus => exact ⟨_, .plain hus, rfl⟩
  | connected hgs =>
    obtain ⟨gs₁, hgs₁, heq⟩ :=
      Act.each_reflects (fun s _ _ hg => Strand.begin_reflects hg s) hgs s
    exact ⟨.connected gs₁, .connected hgs₁,
      by simp only [begin, Act.perform_make, heq]⟩

theorem commit_reflects (h : t'.Decorates view t) (s : τ) :
    Act.Reflects view (Decorates view) (commit.perform (s, t')) (commit.perform (view s, t)) := by
  cases h with
  | plain hus => exact ⟨_, .plain hus, rfl⟩
  | @connected gs' gs hgs =>
    obtain ⟨gs₁, hgs₁, heq⟩ :=
      Strand.commitAll_reflects (gs.filter (·.isOwned)).length 0 hgs s
    refine ⟨.connected gs₁, ?_, ?_⟩ <;>
      simp only [commit, Act.perform_make, Strand.filter_isOwned_length hgs]
    · exact .connected hgs₁
    · simp only [heq]

theorem rollback_reflects (h : t'.Decorates view t) (s : τ) :
    Act.Reflects view (Decorates view) (rollback.perform (s, t'))
      (rollback.perform (view s, t)) := by
  cases h with
  | plain hus => exact ⟨_, .plain hus, rfl⟩
  | connected hgs =>
    obtain ⟨gs₁, hgs₁, heq⟩ := Strand.undoAll_reflects hgs s
    exact ⟨.connected gs₁, .connected hgs₁,
      by simp only [rollback, Act.perform_make, heq]⟩

theorem Decorates.units (h : t'.Decorates view t) :
    List.Forall₂ (WorkUnit.Decorates view) t'.units t.units := by
  cases h with
  | plain hus => exact hus
  | connected hgs => exact List.rel_flatMap hgs fun _ _ hg => hg.units

theorem run_decorates (h : t'.Decorates view t) : t'.run.Follows view t.run :=
  WorkUnit.runAll_decorates h.units

end Transaction

/-! ### Chains -/

namespace Chain

variable {ts' : List (Transaction τ)} {ts : List (Transaction σ)}

theorem runAll_decorates (h : List.Forall₂ (Transaction.Decorates view) ts' ts) :
    (runAll ts').Follows view (runAll ts) := by
  induction h with
  | nil => exact Act.decorates_pure ()
  | cons ht _ ih => exact (Transaction.run_decorates ht).bind fun _ => ih

theorem undoAll_eq_view (h : List.Forall₂ (Transaction.Decorates view) ts' ts) (s : τ) :
    undoAll ts (view s) = view (undoAll ts' s) := by
  induction h generalizing s with
  | nil => rfl
  | cons ht _ ih =>
    obtain ⟨t₁, -, heq⟩ := Transaction.rollback_reflects ht s
    rw [undoAll, undoAll, heq]
    exact ih _

theorem commitAll_reflects (total index : Nat)
    (h : List.Forall₂ (Transaction.Decorates view) ts' ts) (s : τ) :
    Act.Reflects view (List.Forall₂ (Transaction.Decorates view)) (commitAll total index ts' s)
      (commitAll total index ts (view s)) := by
  induction h generalizing index s with
  | nil => exact ⟨[], .nil, rfl⟩
  | @cons t' t rest' rest ht hrest ih =>
    obtain ⟨t₁, ht₁, heq⟩ := Transaction.commit_reflects ht s
    simp only [commitAll, heq]
    rcases hf : Transaction.commit.perform (s, t') with ⟨_ | _, s₁, t₁'⟩ <;> rw [hf] at ht₁
    · exact ⟨t₁ :: rest, .cons ht₁ hrest, rfl⟩
    · obtain ⟨ts₁, hts₁, heq⟩ := ih (index + 1) s₁
      exact ⟨t₁ :: ts₁, .cons ht₁ hts₁, by simp only [heq]⟩

theorem execute_decorates {check' : Act τ Unit} {check : Act σ Unit}
    (hcheck : check'.Follows view check)
    (h : List.Forall₂ (Transaction.Decorates view) ts' ts) :
    (execute check' ts').Follows view (execute check ts) := by
  refine Act.follows_iff.2 fun s => ?_
  obtain ⟨ts₁, hts₁, hbegin⟩ :=
    Act.each_reflects (fun s _ _ ht => Transaction.begin_reflects ht s) h s
  simp only [execute, Act.perform_make, hbegin]
  rcases hf : Act.each Transaction.begin ts' s with ⟨_ | _, s₁, ts₁'⟩ <;> rw [hf] at hts₁
  · simp only [undoAll_eq_view hts₁]
  · have hbody : (do runAll ts₁'; check' : Act τ Unit).Follows view (do runAll ts₁; check) :=
      (runAll_decorates hts₁).bind fun _ => hcheck
    simp only [Act.follows_iff.1 hbody s₁]
    rcases (do runAll ts₁'; check' : Act τ Unit).perform s₁ with ⟨_ | _, s₂⟩
    · simp only [undoAll_eq_view hts₁]
    · obtain ⟨ts₂, hts₂, hcommit⟩ := commitAll_reflects ts₁'.length 0 hts₁ s₂
      simp only [← hts₁.length_eq, hcommit]
      rcases hf : commitAll ts₁'.length 0 ts₁' s₂ with ⟨_ | _, s₃, ts₂'⟩ <;> rw [hf] at hts₂
      simp only [undoAll_eq_view hts₂]

end Chain

namespace TransactionScheme

/-- Results that fail alike, or succeed with related values. -/
inductive Matches (A : β' → β → Prop) : Except StoreError β' → Except StoreError β → Prop
  | ok {b' : β'} {b : β} : A b' b → Matches A (.ok b') (.ok b)
  | error (e : StoreError) : Matches A (.error e) (.error e)

theorem mapM_matches {γ γ' : Type} {A : γ' → γ → Prop} {B : β' → β → Prop}
    {f' : γ' → Except StoreError β'} {f : γ → Except StoreError β}
    (hf : ∀ c' c, A c' c → Matches B (f' c') (f c)) {cs' : List γ'} {cs : List γ}
    (h : List.Forall₂ A cs' cs) : Matches (List.Forall₂ B) (cs'.mapM f') (cs.mapM f) := by
  induction h with
  | nil => exact .ok .nil
  | @cons c' c rest' rest hc _ ih =>
    have hhead := hf c' c hc
    rw [List.mapM_cons, List.mapM_cons]
    generalize f' c' = r' at hhead
    generalize f c = r at hhead
    generalize rest'.mapM f' = q' at ih
    generalize rest.mapM f = q at ih
    cases hhead with
    | error e => exact .error e
    | ok hb =>
      cases ih with
      | error e => exact .error e
      | ok hbs => exact .ok (.cons hb hbs)

variable {us' : List (WorkUnit τ)} {us : List (WorkUnit σ)}

theorem foldUnits_matches (h : List.Forall₂ (WorkUnit.Decorates view) us' us)
    {gs' : List (Strand τ)} {gs : List (Strand σ)}
    (hgs : List.Forall₂ (Strand.Decorates view) gs' gs) :
    Matches (List.Forall₂ (Strand.Decorates view))
      (us'.foldlM (fun strands u =>
        match u.connection with
        | some c => .ok (Strand.add c u strands)
        | none => .error .missingConnection) gs')
      (us.foldlM (fun strands u =>
        match u.connection with
        | some c => .ok (Strand.add c u strands)
        | none => .error .missingConnection) gs) := by
  induction h generalizing gs' gs with
  | nil => exact .ok hgs
  | @cons u' u rest' rest hu _ ih =>
    rw [List.foldlM_cons, List.foldlM_cons]
    have hconnection := hu.connection
    rcases hc' : u'.connection with _ | c' <;> rcases hc : u.connection with _ | c <;>
      rw [hc', hc] at hconnection <;> cases hconnection
    · exact .error _
    · next hcc => exact ih (Strand.add_decorates hcc hu hgs)

/-- A group of decorated units with one capability. -/
def GroupDecorates (view : τ → σ) (p' : Capability × List (WorkUnit τ))
    (p : Capability × List (WorkUnit σ)) : Prop :=
  p'.1 = p.1 ∧ List.Forall₂ (WorkUnit.Decorates view) p'.2 p.2

theorem addToGroup_decorates {u' : WorkUnit τ} {u : WorkUnit σ} (hu : u'.Decorates view u)
    {gs' : List (Capability × List (WorkUnit τ))} {gs : List (Capability × List (WorkUnit σ))}
    (h : List.Forall₂ (GroupDecorates view) gs' gs) :
    List.Forall₂ (GroupDecorates view) (addToGroup u' gs') (addToGroup u gs) := by
  induction h with
  | nil => exact .cons ⟨hu.capability, .cons hu .nil⟩ .nil
  | @cons p' p rest' rest hp hrest ih =>
    obtain ⟨c', group'⟩ := p'
    obtain ⟨c, group⟩ := p
    obtain ⟨rfl, hgroup⟩ := hp
    simp only [addToGroup, hu.capability]
    split
    · exact .cons ⟨rfl, List.rel_append hgroup (.cons hu .nil)⟩ hrest
    · exact .cons ⟨rfl, hgroup⟩ ih

theorem groupByCapability_decorates (h : List.Forall₂ (WorkUnit.Decorates view) us' us) :
    List.Forall₂ (GroupDecorates view) (groupByCapability us') (groupByCapability us) :=
  List.rel_foldl (P := List.Forall₂ (GroupDecorates view))
    (fun _ _ hgs _ _ hu => addToGroup_decorates hu hgs) List.Forall₂.nil h

/-- The standard scheme makes decorated transactions of decorated units. -/
theorem standard_transactions_matches (h : List.Forall₂ (WorkUnit.Decorates view) us' us) :
    Matches (List.Forall₂ (Transaction.Decorates view)) (standard.transactions us')
      (standard.transactions us) := by
  refine mapM_matches ?_ (groupByCapability_decorates h)
  rintro ⟨c', group'⟩ ⟨c, group⟩ ⟨rfl, hgroup⟩
  cases c' with
  | plain => exact .ok (.plain hgroup)
  | connected =>
    have hstrands := foldUnits_matches hgroup List.Forall₂.nil
    change Matches _ ((Strand.ofUnits group').map _) ((Strand.ofUnits group).map _)
    change Matches _ (Strand.ofUnits group') (Strand.ofUnits group) at hstrands
    generalize Strand.ofUnits group' = r' at hstrands
    generalize Strand.ofUnits group = r at hstrands
    cases hstrands with
    | error e => exact .error e
    | ok hgs => exact .ok (.connected hgs)

/-- A chain of decorated units is decorated. -/
theorem standard_decorates {check' : Act τ Unit} {check : Act σ Unit}
    (hcheck : check'.Follows view check)
    (h : List.Forall₂ (WorkUnit.Decorates view) us' us) :
    (standard.executeChecked us' check').Follows view (standard.executeChecked us check) := by
  have hmade := standard_transactions_matches h
  rw [executeChecked, executeChecked]
  generalize standard.transactions us' = r' at hmade
  generalize standard.transactions us = r at hmade
  cases hmade with
  | error e => exact Act.decorates_fail e
  | ok hts => exact Chain.execute_decorates hcheck hts

end TransactionScheme

end RecordStore
