import RecordStore.Transaction.Chain
import Mathlib.Order.Defs.Unbundled

/-!
# Where actions lead

An action *moves* along a relation (`Act.Moves`) if, whatever it returns, the world before it and
the world after it are related. What matters of the world may be a part of it, which is taken by a
*view*. For a relation that is reflexive and transitive, moving along it is a property of the parts
of a composed action: sequences, loops, and actions on a part of the world move along the relation
if what they are made of does.
-/

namespace RecordStore

variable {σ τ ρ α β : Type}

namespace Act

/-- What succeeds in sequence has succeeded in its first part. -/
theorem perform_bind_eq_ok {f : Act σ α} {g : α → Act σ β} {s s' : σ} {b : β}
    (h : (f >>= g).perform s = (.ok b, s')) :
    ∃ a s₁, f.perform s = (.ok a, s₁) ∧ (g a).perform s₁ = (.ok b, s') := by
  rw [perform_bind] at h
  rcases hf : f.perform s with ⟨_ | a, s₁⟩ <;> rw [hf] at h
  · cases h
  · exact ⟨a, s₁, rfl, h⟩

theorem length_each (f : Act (σ × α) Unit) (as : List α) (s : σ) :
    (each f as s).2.2.length = as.length := by
  induction as generalizing s with
  | nil => rfl
  | cons a rest ih =>
    rw [each]
    rcases f.perform (s, a) with ⟨_ | _, s', a'⟩
    · rfl
    · exact congrArg Nat.succ (ih s')

/-- What holds of the elements that a loop is through with and of those to come, and is kept by a
    successful round, holds of a loop that succeeds. -/
theorem each_invariant (Inv : σ → List α → List α → Prop) {f : Act (σ × α) Unit}
    (hstep : ∀ s pre a rest s' a', Inv s pre (a :: rest) →
      f.perform (s, a) = (.ok (), s', a') → Inv s' (pre ++ [a']) rest)
    {as as' : List α} {s s' : σ} (hrun : each f as s = (.ok (), s', as')) (h : Inv s [] as) :
    Inv s' as' [] := by
  -- The induction is on the elements to come, whichever the loop is through with.
  suffices hpartway : ∀ pre, Inv s pre as → Inv s' (pre ++ as') [] from hpartway [] h
  clear h
  induction as generalizing s as' with
  | nil =>
    cases hrun
    intro pre h
    rwa [List.append_nil]
  | cons a rest ih =>
    intro pre h
    rw [each] at hrun
    rcases hf : f.perform (s, a) with ⟨_ | _, s₁, a'⟩ <;> rw [hf] at hrun
    · cases hrun
    · dsimp only at hrun
      rcases hrest : each f rest s₁ with ⟨r, s₂, rest'⟩
      rw [hrest] at hrun
      cases hrun
      have hdone := ih hrest (pre ++ [a']) (hstep s pre a rest s₁ a' h hf)
      rwa [List.append_assoc] at hdone

/-- What holds of the elements that a loop has visited and of those to come, and is kept by every
    round, holds where the loop ends or breaks off. -/
theorem each_partway {Inv : σ → List α → List α → Prop} {f : Act (σ × α) Unit}
    (hstep : ∀ s pre a rest, Inv s pre (a :: rest) →
      Inv (f.perform (s, a)).2.1 (pre ++ [(f.perform (s, a)).2.2]) rest)
    {as pre : List α} {s : σ} (h : Inv s pre as) :
    ∃ visited rest, (each f as s).2.2 = visited ++ rest ∧
      Inv (each f as s).2.1 (pre ++ visited) rest ∧ ((each f as s).1 = .ok () → rest = []) := by
  induction as generalizing s pre with
  | nil => exact ⟨[], [], rfl, by rwa [List.append_nil], fun _ => rfl⟩
  | cons a as ih =>
    have hnext := hstep s pre a as h
    rw [each]
    rcases hf : f.perform (s, a) with ⟨_ | _, s₁, a'⟩ <;> rw [hf] at hnext
    · exact ⟨[a'], as, rfl, hnext, nofun⟩
    · obtain ⟨visited, rest, heq, hInv, hok⟩ := ih hnext
      rw [List.append_assoc] at hInv
      exact ⟨a' :: visited, rest, congrArg (a' :: ·) heq, hInv, hok⟩

/-- What is kept by every round is kept by a loop, wherever it breaks off. -/
theorem each_keeps (Inv : σ → List α → Prop) {f : Act (σ × α) Unit}
    (hstep : ∀ s pre a rest, Inv s (pre ++ a :: rest) →
      Inv (f.perform (s, a)).2.1 (pre ++ (f.perform (s, a)).2.2 :: rest))
    {as : List α} {s : σ} (h : Inv s as) : Inv (each f as s).2.1 (each f as s).2.2 := by
  have hpart : ∀ s pre a rest, Inv s (pre ++ a :: rest) →
      Inv (f.perform (s, a)).2.1 (pre ++ [(f.perform (s, a)).2.2] ++ rest) := by
    intro s pre a rest h
    rw [List.append_assoc]
    exact hstep s pre a rest h
  obtain ⟨visited, rest, heq, hend, -⟩ :=
    @each_partway σ α (fun s pre rest => Inv s (pre ++ rest)) f hpart as [] s h
  rwa [List.nil_append, ← heq] at hend

/-- The part of the world in view goes only where the relation leads. -/
def Moves (R : σ → σ → Prop) (view : τ → σ) (f : Act τ α) : Prop :=
  ∀ t, R (view t) (view (f.perform t).2)

variable {R : σ → σ → Prop} {view : τ → σ}

theorem Moves.mono {S : σ → σ → Prop} (hRS : ∀ s s', R s s' → S s s') {f : Act τ α}
    (h : f.Moves R view) : f.Moves S view := fun t => hRS _ _ (h t)

/-- An action on a part of the world moves as it does there. -/
theorem Moves.zoom {l : Lens τ ρ} {v : ρ → σ} {f : Act ρ α} (h : f.Moves R v)
    (hview : ∀ t, view t = v (l.get t)) : (f.zoom l).Moves R view := by
  intro t
  rw [perform_zoom, hview, hview, l.get_set]
  exact h (l.get t)

/-- It does not matter what becomes of the outcome. -/
theorem Moves.attempt {f : Act τ α} (h : f.Moves R view) : f.attempt.Moves R view := h

theorem Moves.bestEffort {f : Act τ α} (h : f.Moves R view) : f.bestEffort.Moves R view := h

section Refl

variable [Std.Refl R]

theorem moves_of_view_eq {f : Act τ α} (h : ∀ t, view (f.perform t).2 = view t) :
    f.Moves R view := by
  intro t
  rw [h t]
  exact Std.Refl.refl _

theorem moves_pure (a : α) : (pure a : Act τ α).Moves R view := moves_of_view_eq fun _ => rfl

theorem moves_ofExcept (r : Except StoreError α) : (ofExcept r : Act τ α).Moves R view :=
  moves_of_view_eq fun _ => rfl

theorem moves_fail (e : StoreError) : (fail e : Act τ α).Moves R view := moves_ofExcept _

theorem moves_read (f : τ → α) : (read f).Moves R view := moves_of_view_eq fun _ => rfl

theorem moves_change {f : τ → τ} (h : ∀ t, view (f t) = view t) : (change f).Moves R view :=
  moves_of_view_eq h

end Refl

variable [IsTrans σ R]

theorem Moves.bind {f : Act τ α} {g : α → Act τ β} (hf : f.Moves R view)
    (hg : ∀ a, (g a).Moves R view) : (f >>= g).Moves R view := by
  intro t
  have hfirst := hf t
  rw [perform_bind]
  rcases h : f.perform t with ⟨_ | a, t'⟩ <;> rw [h] at hfirst
  · exact hfirst
  · exact IsTrans.trans _ _ _ hfirst (hg a t')

variable [Std.Refl R]

/-- A loop moves as its rounds do. -/
theorem Moves.forEach {f : Act (τ × α) Unit} (h : f.Moves R fun p => view p.1) :
    (forEach f).Moves R fun p => view p.1 := by
  rintro ⟨t, as⟩
  change R (view t) (view (Act.each f as t).2.1)
  induction as generalizing t with
  | nil => exact Std.Refl.refl _
  | cons a rest ih =>
    have hfirst := h (t, a)
    rcases hf : f.perform (t, a) with ⟨_ | _, t', a'⟩ <;> rw [hf] at hfirst <;>
      simp only [each, hf]
    · exact hfirst
    · exact IsTrans.trans _ _ _ hfirst (ih t')

/-- What holds in one world holds in another. -/
def Carries (Inv : τ → Prop) (t t' : τ) : Prop := Inv t → Inv t'

instance (Inv : τ → Prop) : Std.Refl (Carries Inv) := ⟨fun _ => id⟩

instance (Inv : τ → Prop) : IsTrans τ (Carries Inv) := ⟨fun _ _ _ h h' => h' ∘ h⟩

/-- What holds before the action holds after it, whatever it returns. -/
abbrev Keeps (Inv : τ → Prop) (f : Act τ α) : Prop := f.Moves (Carries Inv) id

/-- From worlds of a kind, the action leads to worlds of another kind if it succeeds, and to worlds
    of a third kind if it fails. -/
def Ensures (P Q E : τ → Prop) (f : Act τ α) : Prop :=
  ∀ t, P t → match f.perform t with
    | (.ok _, t') => Q t'
    | (.error _, t') => E t'

theorem ensures_same_iff {P Q : τ → Prop} {f : Act τ α} :
    f.Ensures P Q Q ↔ ∀ t, P t → Q (f.perform t).2 := by
  refine forall₂_congr fun t _ => ?_
  rcases f.perform t with ⟨_ | _, t'⟩ <;> rfl

theorem Keeps.ensures {P E : τ → Prop} {f : Act τ α} (h : f.Keeps P) (hE : ∀ t, P t → E t) :
    f.Ensures P P E := by
  intro t hP
  have hkept := h t hP
  rcases hf : f.perform t with ⟨_ | _, t'⟩ <;> rw [hf] at hkept
  · exact hE _ hkept
  · exact hkept

theorem Ensures.bind {P Q S E : τ → Prop} {f : Act τ α} {g : α → Act τ β}
    (hf : f.Ensures P Q E) (hg : ∀ a, (g a).Ensures Q S E) : (f >>= g).Ensures P S E := by
  intro t hP
  have hfirst := hf t hP
  rw [perform_bind]
  rcases h : f.perform t with ⟨_ | a, t'⟩ <;> rw [h] at hfirst
  · exact hfirst
  · exact hg a t' hfirst

end Act

variable {R : σ → σ → Prop} {view : τ → σ} [Std.Refl R] [IsTrans σ R]

theorem WorkUnit.runAll_moves {units : List (WorkUnit τ)}
    (h : ∀ u ∈ units, u.run.Moves R view) : (runAll units).Moves R view := by
  induction units with
  | nil => exact Act.moves_pure ()
  | cons u rest ih =>
    obtain ⟨hu, hrest⟩ := List.forall_mem_cons.1 h
    exact hu.bind fun _ => ih hrest

theorem Transaction.run_moves {t : Transaction τ} (h : ∀ u ∈ t.units, u.run.Moves R view) :
    t.run.Moves R view := WorkUnit.runAll_moves h

theorem Chain.runAll_moves {ts : List (Transaction τ)}
    (h : ∀ t ∈ ts, ∀ u ∈ t.units, u.run.Moves R view) : (runAll ts).Moves R view := by
  induction ts with
  | nil => exact Act.moves_pure ()
  | cons t rest ih =>
    obtain ⟨ht, hrest⟩ := List.forall_mem_cons.1 h
    exact (Transaction.run_moves ht).bind fun _ => ih hrest

end RecordStore
