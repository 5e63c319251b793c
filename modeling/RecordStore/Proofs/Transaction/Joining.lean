import RecordStore.Proofs.Transaction.Ownership

/-!
# Joining a transaction

A chain whose connections are all in a transaction joins it: it runs its units and its check and
nothing else, and whatever comes of them, it neither commits nor rolls back
(`Chain.execute_of_inTransaction`).

A chain of one transaction with one connection, which is in none, is the smallest that has a
transaction of its own. What it does is said in full by `Chain.execute_single`.
-/

namespace RecordStore

variable {σ : Type} {s : σ}

namespace Strand

theorem begin_of_inTransaction {g : Strand σ} (h : g.connection.inTransaction s = true) :
    begin.perform (s, g) = (.ok (), s, g) := by
  simp only [begin, Act.perform_make, h, if_true]

theorem commitAll_of_not_owned {gs : List (Strand σ)} (h : ∀ g ∈ gs, g.isOwned = false)
    (total committed : Nat) : commitAll total committed gs s = (.ok (), s, gs) := by
  induction gs with
  | nil => rfl
  | cons g rest ih =>
    obtain ⟨hg, hrest⟩ := List.forall_mem_cons.1 h
    simp only [commitAll, hg, ih hrest, Bool.false_eq_true, if_false]

theorem undoAll_of_not_owned {gs : List (Strand σ)} (h : ∀ g ∈ gs, g.isOwned = false) :
    undoAll gs s = (.ok (), s, gs) := by
  induction gs with
  | nil => rfl
  | cons g rest ih =>
    obtain ⟨hg, hrest⟩ := List.forall_mem_cons.1 h
    simp only [undoAll, hg, ih hrest, Bool.false_eq_true, if_false]

end Strand

/-- A loop in which no round does anything. -/
theorem Act.each_eq_self {α : Type} {f : Act (σ × α) Unit} {as : List α}
    (h : ∀ a ∈ as, f.perform (s, a) = (.ok (), s, a)) : Act.each f as s = (.ok (), s, as) := by
  induction as with
  | nil => rfl
  | cons a rest ih =>
    obtain ⟨ha, hrest⟩ := List.forall_mem_cons.1 h
    simp only [Act.each, ha, ih hrest]

namespace Transaction

variable {t : Transaction σ}

theorem begin_of_inTransaction
    (h : ∀ g ∈ t.strands, g.connection.inTransaction s = true) :
    begin.perform (s, t) = (.ok (), s, t) := by
  cases t with
  | plain units => rfl
  | connected strands =>
    change ∀ g ∈ strands, _ at h
    have heach := Act.each_eq_self fun g hg => Strand.begin_of_inTransaction (h g hg)
    simp only [begin, Act.perform_make, heach]

theorem commit_of_not_owned (h : ∀ g ∈ t.strands, g.isOwned = false) :
    commit.perform (s, t) = (.ok (), s, t) := by
  cases t with
  | plain units => rfl
  | connected strands =>
    change ∀ g ∈ strands, _ at h
    simp only [commit, Act.perform_make, Strand.commitAll_of_not_owned h]

theorem rollback_of_not_owned (h : ∀ g ∈ t.strands, g.isOwned = false) :
    rollback.perform (s, t) = (.ok (), s, t) := by
  cases t with
  | plain units => rfl
  | connected strands =>
    change ∀ g ∈ strands, _ at h
    simp only [rollback, Act.perform_make, Strand.undoAll_of_not_owned h]

end Transaction

namespace Chain

variable {ts : List (Transaction σ)}

theorem commitAll_of_not_owned (h : ∀ t ∈ ts, ∀ g ∈ t.strands, g.isOwned = false)
    (total index : Nat) : commitAll total index ts s = (.ok (), s, ts) := by
  induction ts generalizing index with
  | nil => rfl
  | cons t rest ih =>
    obtain ⟨ht, hrest⟩ := List.forall_mem_cons.1 h
    simp only [commitAll, Transaction.commit_of_not_owned ht, ih hrest]

theorem undoAll_of_not_owned (h : ∀ t ∈ ts, ∀ g ∈ t.strands, g.isOwned = false) :
    undoAll ts s = s := by
  induction ts with
  | nil => rfl
  | cons t rest ih =>
    obtain ⟨ht, hrest⟩ := List.forall_mem_cons.1 h
    rw [undoAll, Transaction.rollback_of_not_owned ht, ih hrest]

/-- A chain of new transactions whose connections are all in a transaction only runs its units and
    its check. -/
theorem execute_of_inTransaction (check : Act σ Unit)
    (hnew : ∀ t ∈ ts, ∀ g ∈ t.strands, g.isOwned = false)
    (hopen : ∀ t ∈ ts, ∀ g ∈ t.strands, g.connection.inTransaction s = true) :
    (execute check ts).perform s = (do runAll ts; check : Act σ Unit).perform s := by
  have heach := Act.each_eq_self fun t ht => Transaction.begin_of_inTransaction (hopen t ht)
  simp only [execute, Act.perform_make, heach]
  rcases (do runAll ts; check : Act σ Unit).perform s with ⟨e | _, s'⟩
  · simp only [undoAll_of_not_owned hnew]
  · simp only [commitAll_of_not_owned hnew]

/-- A chain of one transaction on a connection that is in none: it begins one, runs the units and
    the check, and commits, or rolls back after what failed. -/
theorem execute_single (check : Act σ Unit) {c : Connection σ} (units : List (WorkUnit σ))
    (hclosed : c.inTransaction s = false) :
    (execute check [.connected [{ connection := c, units := units }]]).perform s =
      match c.begin.perform s with
      | (.error e, s₁) => (.error e, s₁)
      | (.ok _, s₁) =>
        match (do WorkUnit.runAll units; check : Act σ Unit).perform s₁ with
        | (.error e, s₂) => (.error e, (c.rollback.perform s₂).2)
        | (.ok _, s₂) =>
          match c.commit.perform s₂ with
          | (.error e, s₃) => (.error e, (c.rollback.perform s₃).2)
          | (.ok _, s₃) => (.ok (), s₃) := by
  have hrun : ∀ gs, (runAll [Transaction.connected gs] : Act σ Unit) =
      WorkUnit.runAll (gs.flatMap (·.units)) := fun _ => bind_pure_unit
  simp only [execute, Act.perform_make, Act.each, Transaction.begin, Strand.begin, hclosed]
  rcases c.begin.perform s with ⟨e | _, s₁⟩
  · simp [undoAll, Transaction.rollback, Strand.undoAll]
  · simp only [Bool.false_eq_true, if_false, hrun, List.flatMap_cons, List.flatMap_nil,
      List.append_nil]
    rcases (do WorkUnit.runAll units; check : Act σ Unit).perform s₁ with
      ⟨e | _, s₂⟩
    · simp [undoAll, Transaction.rollback, Strand.undoAll]
    · simp only [commitAll, Transaction.commit, Strand.commitAll, Act.perform_make]
      rcases c.commit.perform s₂ with ⟨e | _, s₃⟩
      · simp [undoAll, Transaction.rollback, Strand.undoAll]
      · simp

end Chain

end RecordStore
