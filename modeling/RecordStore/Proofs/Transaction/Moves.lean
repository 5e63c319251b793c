import RecordStore.Proofs.Moves
import RecordStore.Proofs.Transaction.Grouping

/-!
# Where chains lead

A chain does to the world what its connections do when they are begun, committed and rolled back,
and what its units and its check do. So it moves along a relation if these do (`Chain.execute_moves`),
and so does a chain of units that the standard scheme makes (`TransactionScheme.standard_moves`).

Of a part of the world that the control calls leave alone, more can be said: there a chain comes to
nothing if a transaction cannot be begun, and otherwise to what its units and its check do, up to the
first failure (`Chain.execute_course`).
-/

namespace RecordStore

variable {σ τ γ : Type} {R : σ → σ → Prop} {view : τ → σ}

/-- A connection whose control calls move along a relation. -/
structure Connection.Moves (R : σ → σ → Prop) (view : τ → σ) (c : Connection τ) : Prop where
  begin : c.begin.Moves R view
  commit : c.commit.Moves R view
  rollback : c.rollback.Moves R view

/-- A transaction whose connections move along a relation. -/
def Transaction.Moves (R : σ → σ → Prop) (view : τ → σ) (t : Transaction τ) : Prop :=
  ∀ g ∈ t.strands, g.connection.Moves R view

/-- What all rounds leave of the elements is left of them by a loop. -/
theorem Act.map_each {α β : Type} {f : Act (τ × α) Unit} {g : α → β}
    (h : ∀ t a, g (f.perform (t, a)).2.2 = g a) (as : List α) (t : τ) :
    (each f as t).2.2.map g = as.map g := by
  induction as generalizing t with
  | nil => rfl
  | cons a rest ih =>
    have ha := h t a
    rcases hf : f.perform (t, a) with ⟨_ | _, t', a'⟩ <;> rw [hf] at ha <;>
      simp only [each, hf, List.map_cons, ha]
    rw [ih]

/-- Beginning a transaction does not change what it runs. -/
theorem Transaction.run_begin (t : τ) (tr : Transaction τ) :
    (begin.perform (t, tr)).2.2.run = tr.run := by
  cases tr with
  | plain units => rfl
  | connected strands =>
    have hunits : ∀ t (g : Strand τ), (Strand.begin.perform (t, g)).2.2.units = g.units := by
      intro t g
      simp only [Strand.begin, Act.perform_make]
      split
      · rfl
      · rcases g.connection.begin.perform t with ⟨_ | _, _⟩ <;> rfl
    exact congrArg (fun units : List (List (WorkUnit τ)) =>
      WorkUnit.runAll units.flatten) (Act.map_each hunits strands t)

variable [Std.Refl R] [IsTrans σ R]

/-- A loop moves along a relation, if its rounds do and keep what they need for it. -/
theorem Act.each_moves {α : Type} {A : α → Prop} {f : Act (τ × α) Unit}
    (h : ∀ t a, A a → R (view t) (view (f.perform (t, a)).2.1) ∧ A (f.perform (t, a)).2.2)
    {as : List α} (has : ∀ a ∈ as, A a) (t : τ) :
    R (view t) (view (each f as t).2.1) ∧ ∀ a ∈ (each f as t).2.2, A a := by
  induction as generalizing t with
  | nil => exact ⟨Std.Refl.refl _, by simp [each]⟩
  | cons a rest ih =>
    obtain ⟨ha, hrest⟩ := List.forall_mem_cons.1 has
    have hfirst := h t a ha
    rcases hf : f.perform (t, a) with ⟨_ | _, t', a'⟩ <;> rw [hf] at hfirst <;>
      simp only [each, hf]
    · exact ⟨hfirst.1, List.forall_mem_cons.2 ⟨hfirst.2, hrest⟩⟩
    · obtain ⟨hmoves, hkept⟩ := ih hrest t'
      exact ⟨IsTrans.trans _ _ _ hfirst.1 hmoves, List.forall_mem_cons.2 ⟨hfirst.2, hkept⟩⟩

namespace Strand

omit [IsTrans σ R] in
theorem begin_moves {g : Strand τ} (h : g.connection.Moves R view) (t : τ) :
    R (view t) (view (begin.perform (t, g)).2.1) ∧
      (begin.perform (t, g)).2.2.connection.Moves R view := by
  have hbegin := h.begin t
  simp only [begin, Act.perform_make]
  split
  · exact ⟨Std.Refl.refl _, h⟩
  · rcases hf : g.connection.begin.perform t with ⟨_ | _, t'⟩ <;> rw [hf] at hbegin <;>
      exact ⟨hbegin, h⟩

variable {gs : List (Strand τ)}

theorem commitAll_moves (h : ∀ g ∈ gs, g.connection.Moves R view) (total n : Nat) (t : τ) :
    R (view t) (view (commitAll total n gs t).2.1) ∧
      ∀ g ∈ (commitAll total n gs t).2.2, g.connection.Moves R view := by
  induction gs generalizing n t with
  | nil => exact ⟨Std.Refl.refl _, h⟩
  | cons g rest ih =>
    obtain ⟨hg, hrest⟩ := List.forall_mem_cons.1 h
    have hcommit := hg.commit t
    simp only [commitAll]
    split
    · rcases hf : g.connection.commit.perform t with ⟨_ | _, t'⟩ <;> rw [hf] at hcommit
      · exact ⟨hcommit, h⟩
      · obtain ⟨hmoves, hkept⟩ := ih hrest (n + 1) t'
        exact ⟨IsTrans.trans _ _ _ hcommit hmoves, List.forall_mem_cons.2 ⟨hg, hkept⟩⟩
    · obtain ⟨hmoves, hkept⟩ := ih hrest n t
      exact ⟨hmoves, List.forall_mem_cons.2 ⟨hg, hkept⟩⟩

theorem undoAll_moves (h : ∀ g ∈ gs, g.connection.Moves R view) (t : τ) :
    R (view t) (view (undoAll gs t).2.1) := by
  induction gs generalizing t with
  | nil => exact Std.Refl.refl _
  | cons g rest ih =>
    obtain ⟨hg, hrest⟩ := List.forall_mem_cons.1 h
    simp only [undoAll]
    split
    · exact IsTrans.trans _ _ _ (hg.rollback t) (ih hrest _)
    · exact ih hrest t

end Strand

namespace Transaction

variable {tr : Transaction τ}

theorem begin_moves (h : tr.Moves R view) (t : τ) :
    R (view t) (view (begin.perform (t, tr)).2.1) ∧ (begin.perform (t, tr)).2.2.Moves R view := by
  cases tr with
  | plain units => exact ⟨Std.Refl.refl _, h⟩
  | connected gs => exact Act.each_moves (fun t _ hg => Strand.begin_moves hg t) h t

theorem commit_moves (h : tr.Moves R view) (t : τ) :
    R (view t) (view (commit.perform (t, tr)).2.1) ∧
      (commit.perform (t, tr)).2.2.Moves R view := by
  cases tr with
  | plain units => exact ⟨Std.Refl.refl _, h⟩
  | connected gs => exact Strand.commitAll_moves h (gs.filter (·.isOwned)).length 0 t

theorem rollback_moves (h : tr.Moves R view) (t : τ) :
    R (view t) (view (rollback.perform (t, tr)).2.1) := by
  cases tr with
  | plain units => exact Std.Refl.refl _
  | connected gs => exact Strand.undoAll_moves h t

end Transaction

namespace Chain

variable {ts : List (Transaction τ)} {check : Act τ Unit}

theorem undoAll_moves (h : ∀ tr ∈ ts, tr.Moves R view) (t : τ) :
    R (view t) (view (undoAll ts t)) := by
  induction ts generalizing t with
  | nil => exact Std.Refl.refl _
  | cons tr rest ih =>
    obtain ⟨htr, hrest⟩ := List.forall_mem_cons.1 h
    exact IsTrans.trans _ _ _ (Transaction.rollback_moves htr t) (ih hrest _)

theorem commitAll_moves (h : ∀ tr ∈ ts, tr.Moves R view) (total index : Nat) (t : τ) :
    R (view t) (view (commitAll total index ts t).2.1) ∧
      ∀ tr ∈ (commitAll total index ts t).2.2, tr.Moves R view := by
  induction ts generalizing index t with
  | nil => exact ⟨Std.Refl.refl _, h⟩
  | cons tr rest ih =>
    obtain ⟨htr, hrest⟩ := List.forall_mem_cons.1 h
    have hcommit := Transaction.commit_moves htr t
    rcases hf : Transaction.commit.perform (t, tr) with ⟨_ | _, t', tr'⟩ <;>
      rw [hf] at hcommit <;> simp only [commitAll, hf]
    · exact ⟨hcommit.1, List.forall_mem_cons.2 ⟨hcommit.2, hrest⟩⟩
    · obtain ⟨hmoves, hkept⟩ := ih hrest (index + 1) t'
      exact ⟨IsTrans.trans _ _ _ hcommit.1 hmoves, List.forall_mem_cons.2 ⟨hcommit.2, hkept⟩⟩

/-- What becomes of a chain in a world: it cannot begin, or it runs from the world in which it has
    begun, and then commits or rolls back. -/
inductive Course (R : σ → σ → Prop) (view : τ → σ) (check : Act τ Unit) (ts : List (Transaction τ))
    (t : τ) : Except StoreError Unit × τ → Prop
  | unopened {e : StoreError} {t₁ t' : τ} {ts₁ : List (Transaction τ)} :
    Act.each Transaction.begin ts t = (.error e, t₁, ts₁) → R (view t) (view t') →
    Course R view check ts t (.error e, t')
  | ran {r : Except StoreError Unit} {t₁ t' : τ} {ts₁ : List (Transaction τ)} :
    Act.each Transaction.begin ts t = (.ok (), t₁, ts₁) → R (view t) (view t₁) →
    R (view ((do runAll ts; check : Act τ Unit).perform t₁).2) (view t') →
    Course R view check ts t (r, t')

/-- A chain whose connections move along a relation does so before it runs and after it has run. -/
theorem execute_course (h : ∀ tr ∈ ts, tr.Moves R view) (t : τ) :
    Course R view check ts t ((execute check ts).perform t) := by
  obtain ⟨hbegin, hbegun⟩ := Act.each_moves (fun t _ htr => Transaction.begin_moves htr t) h t
  have hruns := Act.map_each Transaction.run_begin ts t
  simp only [execute, Act.perform_make]
  rcases hf : Act.each Transaction.begin ts t with ⟨_ | _, t₁, ts₁⟩ <;>
    rw [hf] at hbegin hbegun hruns
  · exact .unopened hf (IsTrans.trans _ _ _ hbegin (undoAll_moves hbegun t₁))
  · refine .ran hf hbegin ?_
    rw [runAll_congr hruns]
    rcases (do runAll ts; check : Act τ Unit).perform t₁ with ⟨_ | _, t₂⟩
    · exact undoAll_moves hbegun t₂
    · obtain ⟨hcommit, hleft⟩ := commitAll_moves hbegun ts₁.length 0 t₂
      simp only
      rcases hf : commitAll ts₁.length 0 ts₁ t₂ with ⟨_ | _, t₃, ts₃⟩ <;> rw [hf] at hcommit hleft
      · exact IsTrans.trans _ _ _ hcommit (undoAll_moves hleft t₃)
      · exact hcommit

/-- A chain moves along a relation if its connections do, its units and its check. -/
theorem execute_moves (h : ∀ tr ∈ ts, tr.Moves R view) (hrun : (runAll ts).Moves R view)
    (hcheck : check.Moves R view) : (execute check ts).Moves R view := by
  intro t
  have hcourse : Course R view check ts t _ := execute_course h t
  generalize (execute check ts).perform t = out at hcourse
  cases hcourse with
  | unopened _ hend => exact hend
  | @ran r t₁ t' ts₁ _ hbegin hend =>
    have hbody := (hrun.bind fun _ => hcheck) t₁
    exact IsTrans.trans _ _ _ hbegin (IsTrans.trans _ _ _ hbody hend)

end Chain

/-- A chain that the standard scheme makes of units moves along a relation if their connections do,
    the units and the check. -/
theorem TransactionScheme.standard_moves {units : List (WorkUnit τ)} {check : Act τ Unit}
    (hconnections : ∀ u ∈ units, ∀ c, u.connection = some c → c.Moves R view)
    (hunits : ∀ u ∈ units, u.run.Moves R view) (hcheck : check.Moves R view) :
    (standard.executeChecked units check).Moves R view := by
  intro t
  simp only [executeChecked, Act.perform_bind, Act.perform_ofExcept]
  rcases hts : standard.transactions units with e | ts
  · exact Std.Refl.refl _
  · refine Chain.execute_moves (fun tr htr g hg => ?_) (Chain.runAll_moves fun tr htr u hu => ?_)
      hcheck t
    all_goals obtain ⟨group, hgroup, hfresh⟩ := standard_isFresh hts tr htr
    · obtain ⟨u, hu, hc⟩ := hfresh.isNew.connection g hg
      exact hconnections u (hgroup u hu) _ hc
    · exact hunits u (hgroup u (hfresh.isNew.units.mem_iff.1 hu))

end RecordStore
