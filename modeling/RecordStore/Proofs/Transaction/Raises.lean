import RecordStore.Proofs.Transaction.Moves
import RecordStore.Proofs.Transaction.PartialCommit

/-!
# Which errors are raised

An action *raises* errors of a kind if whatever it fails with is of this kind (`Act.Raises`). What
is made of actions raises what they do, and a chain besides, what its connections raise when they
are begun and committed, its report of a partial commit, and the error of a unit without a
connection (`TransactionScheme.standard_raises`). Errors of rollbacks are dropped.
-/

namespace RecordStore

variable {σ τ α β : Type} {P : StoreError → Prop}

/-- A result that is no error but of this kind. -/
def Raised (P : StoreError → Prop) (r : Except StoreError α) : Prop := ∀ e, r = .error e → P e

theorem raised_ok (a : α) : Raised P (.ok a) := fun _ h => by cases h

theorem raised_error {e : StoreError} (h : P e) : Raised P (.error e : Except StoreError α) := by
  intro e' he
  cases he
  exact h

namespace Act

/-- Whatever the action fails with is of this kind. -/
def Raises (P : StoreError → Prop) (f : Act σ α) : Prop := ∀ s, Raised P (f.perform s).1

theorem raises_pure (a : α) : (pure a : Act σ α).Raises P := fun _ => raised_ok a

theorem raises_ofExcept {r : Except StoreError α} (h : Raised P r) :
    (ofExcept r : Act σ α).Raises P := fun _ => h

theorem raises_fail {e : StoreError} (h : P e) : (fail e : Act σ α).Raises P :=
  raises_ofExcept (raised_error h)

theorem raises_read (f : σ → α) : (read f).Raises P := fun s => raised_ok (f s)

theorem raises_change (f : σ → σ) : (change f).Raises P := fun _ => raised_ok ()

theorem Raises.bind {f : Act σ α} {g : α → Act σ β} (hf : f.Raises P) (hg : ∀ a, (g a).Raises P) :
    (f >>= g).Raises P := by
  intro s
  have hfirst := hf s
  rw [perform_bind]
  rcases h : f.perform s with ⟨e | a, s'⟩
  · rw [h] at hfirst
    exact raised_error (hfirst e rfl)
  · exact hg a s'

theorem Raises.zoom {l : Lens τ σ} {f : Act σ α} (h : f.Raises P) : (f.zoom l).Raises P :=
  fun t => h (l.get t)

/-- A loop raises what its rounds raise, if these keep what they need for it. -/
theorem each_raises {A : α → Prop} {f : Act (σ × α) Unit}
    (h : ∀ s a, A a → Raised P (f.perform (s, a)).1 ∧ A (f.perform (s, a)).2.2) {as : List α}
    (has : ∀ a ∈ as, A a) (s : σ) :
    Raised P (each f as s).1 ∧ ∀ a ∈ (each f as s).2.2, A a := by
  induction as generalizing s with
  | nil => exact ⟨raised_ok (), has⟩
  | cons a rest ih =>
    obtain ⟨ha, hrest⟩ := List.forall_mem_cons.1 has
    obtain ⟨hraised, hkept⟩ := h s a ha
    rcases hf : f.perform (s, a) with ⟨_ | _, s', a'⟩ <;> rw [hf] at hraised hkept <;>
      simp only [each, hf]
    · exact ⟨hraised, List.forall_mem_cons.2 ⟨hkept, hrest⟩⟩
    · obtain ⟨hraised', hkept'⟩ := ih hrest s'
      exact ⟨hraised', List.forall_mem_cons.2 ⟨hkept, hkept'⟩⟩

theorem Raises.forEach {f : Act (σ × α) Unit} (h : f.Raises P) : (forEach f).Raises P :=
  fun t => (each_raises (A := fun _ => True) (fun s a _ => ⟨h (s, a), trivial⟩)
    (fun _ _ => trivial) t.1).1

end Act

/-- The errors that chains raise by themselves. -/
structure ChainErrors (P : StoreError → Prop) : Prop where
  missingConnection : P .missingConnection
  partialCommit : ∀ committed failedAt total e, P e → P (.partialCommit committed failedAt total e)

/-- A connection that raises errors of a kind when it is begun or committed. -/
structure Connection.Raises (P : StoreError → Prop) (c : Connection τ) : Prop where
  begin : c.begin.Raises P
  commit : c.commit.Raises P

namespace Strand

theorem begin_raises {g : Strand τ} (h : g.connection.Raises P) (t : τ) :
    Raised P (begin.perform (t, g)).1 ∧ (begin.perform (t, g)).2.2.connection.Raises P := by
  have hbegin := h.begin t
  simp only [begin, Act.perform_make]
  split
  · exact ⟨raised_ok (), h⟩
  · rcases hf : g.connection.begin.perform t with ⟨_ | _, t'⟩ <;> rw [hf] at hbegin <;>
      exact ⟨hbegin, h⟩

theorem commitAll_raises (hP : ChainErrors P) {gs : List (Strand τ)}
    (h : ∀ g ∈ gs, g.connection.Raises P) (total n : Nat) (t : τ) :
    Raised P (commitAll total n gs t).1 := by
  induction gs generalizing n t with
  | nil => exact raised_ok ()
  | cons g rest ih =>
    obtain ⟨hg, hrest⟩ := List.forall_mem_cons.1 h
    have hcommit := hg.commit t
    simp only [commitAll]
    split
    · rcases hf : g.connection.commit.perform t with ⟨e | _, t'⟩ <;> rw [hf] at hcommit
      · -- Behind a commit that went well, the failure is reported as a partial one.
        refine raised_error ?_
        split
        · exact hcommit e rfl
        · exact hP.partialCommit _ _ _ e (hcommit e rfl)
      · exact ih hrest (n + 1) t'
    · exact ih hrest n t

end Strand

namespace Transaction

/-- A transaction whose connections raise errors of a kind. -/
def Raises (P : StoreError → Prop) (tr : Transaction τ) : Prop :=
  ∀ g ∈ tr.strands, g.connection.Raises P

variable {tr : Transaction τ}

theorem begin_raises (h : tr.Raises P) (t : τ) :
    Raised P (begin.perform (t, tr)).1 ∧ (begin.perform (t, tr)).2.2.Raises P := by
  cases tr with
  | plain units => exact ⟨raised_ok (), h⟩
  | connected gs => exact Act.each_raises (fun t _ hg => Strand.begin_raises hg t) h t

theorem commit_raises (hP : ChainErrors P) (h : tr.Raises P) (t : τ) :
    Raised P (commit.perform (t, tr)).1 := by
  cases tr with
  | plain units => exact raised_ok ()
  | connected gs => exact Strand.commitAll_raises hP h (gs.filter (·.isOwned)).length 0 t

theorem run_raises (h : ∀ u ∈ tr.units, u.run.Raises P) : tr.run.Raises P := by
  rw [run]
  generalize tr.units = units at h
  induction units with
  | nil => exact Act.raises_pure ()
  | cons u rest ih =>
    obtain ⟨hu, hrest⟩ := List.forall_mem_cons.1 h
    exact hu.bind fun _ => ih hrest

end Transaction

namespace Chain

variable {ts : List (Transaction τ)} {check : Act τ Unit}

theorem runAll_raises (h : ∀ tr ∈ ts, ∀ u ∈ tr.units, u.run.Raises P) : (runAll ts).Raises P := by
  induction ts with
  | nil => exact Act.raises_pure ()
  | cons tr rest ih =>
    obtain ⟨htr, hrest⟩ := List.forall_mem_cons.1 h
    exact (Transaction.run_raises htr).bind fun _ => ih hrest

theorem commitAll_raises (hP : ChainErrors P) (h : ∀ tr ∈ ts, tr.Raises P) (total index : Nat)
    (t : τ) : Raised P (commitAll total index ts t).1 := by
  induction ts generalizing index t with
  | nil => exact raised_ok ()
  | cons tr rest ih =>
    obtain ⟨htr, hrest⟩ := List.forall_mem_cons.1 h
    have hcommit := Transaction.commit_raises hP htr t
    rcases hf : Transaction.commit.perform (t, tr) with ⟨e | _, t', tr'⟩ <;>
      rw [hf] at hcommit <;> simp only [commitAll, hf]
    · refine raised_error ?_
      split
      · exact hcommit e rfl
      · exact hP.partialCommit _ _ _ e (hcommit e rfl)
    · exact ih hrest (index + 1) t'

/-- A chain raises what its connections raise, its units and its check. -/
theorem execute_raises (hP : ChainErrors P) (h : ∀ tr ∈ ts, tr.Raises P)
    (hunits : ∀ tr ∈ ts, ∀ u ∈ tr.units, u.run.Raises P) (hcheck : check.Raises P) :
    (execute check ts).Raises P := by
  intro t
  obtain ⟨hbegin, hbegun⟩ := Act.each_raises (fun t _ htr => Transaction.begin_raises htr t) h t
  have hruns := Act.map_each Transaction.run_begin ts t
  simp only [execute, Act.perform_make]
  rcases hf : Act.each Transaction.begin ts t with ⟨e | _, t₁, ts₁⟩ <;>
    rw [hf] at hbegin hbegun hruns
  · exact raised_error (hbegin e rfl)
  · have hran := ((runAll_raises hunits).bind fun _ => hcheck) t₁
    dsimp only at hruns ⊢
    rw [runAll_congr hruns]
    rcases hf : (do runAll ts; check : Act τ Unit).perform t₁ with ⟨e | _, t₂⟩ <;> rw [hf] at hran
    · exact raised_error (hran e rfl)
    · have hcommit := commitAll_raises hP hbegun ts₁.length 0 t₂
      simp only
      rcases hf : commitAll ts₁.length 0 ts₁ t₂ with ⟨e | _, t₃, ts₃⟩ <;> rw [hf] at hcommit
      · exact raised_error (hcommit e rfl)
      · exact raised_ok ()

end Chain

/-- A chain that the standard scheme makes of units raises what their connections raise, the units
    and the check. -/
theorem TransactionScheme.standard_raises (hP : ChainErrors P) {units : List (WorkUnit τ)}
    {check : Act τ Unit} (hconnections : ∀ u ∈ units, ∀ c, u.connection = some c → c.Raises P)
    (hunits : ∀ u ∈ units, u.run.Raises P) (hcheck : check.Raises P) :
    (standard.executeChecked units check).Raises P := by
  intro t
  simp only [executeChecked, Act.perform_bind, Act.perform_ofExcept]
  rcases hts : standard.transactions units with e | ts
  · rw [standard_transactions_error hts]
    exact raised_error hP.missingConnection
  · refine Chain.execute_raises hP (fun tr htr g hg => ?_) (fun tr htr u hu => ?_) hcheck t
    all_goals obtain ⟨group, hgroup, hfresh⟩ := standard_isFresh hts tr htr
    · obtain ⟨u, hu, hc⟩ := hfresh.isNew.connection g hg
      exact hconnections u (hgroup u hu) _ hc
    · exact hunits u (hgroup u (hfresh.isNew.units.mem_iff.1 hu))

end RecordStore
