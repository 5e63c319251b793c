import RecordStore.Proofs.Transaction.Report

/-!
# When a partial commit is reported

A chain counts transactions, and a transaction can come to its end without any connection being
committed: a plain one has none. The standard scheme makes at most two transactions, a connected and
a plain one. If the plain one comes first, it counts as committed, and then any commit that fails is
reported as that of a chain that was committed in part, whether or not a connection was.

`TransactionScheme.standard_isPartialCommit_iff` says when the standard scheme reports a partial
commit: a commit failed, and either another one succeeded before or the first unit of work is plain.
In the second case the report can come without any commit
(`TransactionScheme.standard_partialCommit_of_nothing`).
-/

namespace RecordStore

variable {κ ι σ : Type} {L : Ledger κ ι σ}

namespace Ledger

namespace Entry

/-- Whether a line was committed. -/
def isCommitted : Entry κ ι → Bool
  | control _ .commit (.ok _) => true
  | _ => false

/-- Whether a line was asked to commit, and failed. -/
def isCommitFailure : Entry κ ι → Bool
  | control _ .commit (.error _) => true
  | _ => false

end Entry

section Course

variable {s : σ} {ts : List (Transaction σ)} {steps : List ι} {lines : List κ}
  {r : Except StoreError Unit} {es : List (Entry κ ι)} {i : Nat} {e report : StoreError}

/-- With one connected transaction at most, a failed commit is reported as partial if it follows
    another commit, or a plain transaction. -/
theorem ChainBlame.isPartialCommit_iff (h : ChainBlame ts 0 ts.length i e report)
    (hnodup : (ts.map (·.isConnected)).Nodup) (he : e.isPartialCommit = false) :
    report.isPartialCommit = true ↔
      i ≠ 0 ∨ (ts.map (·.isConnected)).head? = some false := by
  cases h with
  | @intro j n size hj _ _ hzero =>
    generalize ts.map (·.isConnected) = kinds at hj hnodup
    cases kinds with
    | nil => simp at hj
    | cons first rest =>
      cases j with
      | zero =>
        -- The failing transaction is the first, so all commits before were its own.
        obtain rfl : first = true := by simpa using hj
        simp [hzero rfl, he]
      | succ j =>
        -- No other transaction is connected.
        have hrest : true ∈ rest := List.mem_of_getElem? (by simpa using hj)
        have hfirst : first = false :=
          Bool.eq_false_iff.2 fun heq => (List.nodup_cons.1 hnodup).1 (heq ▸ hrest)
        simp [hfirst]

theorem Went.any_eq_false (h : Went steps es) {p : Entry κ ι → Bool}
    (hp : ∀ x, p x = true → x.isControl = true) : es.any p = false := by
  refine List.any_eq_false.2 fun x hx hpx => ?_
  exact Bool.false_ne_true ((h.quiet x hx).symm.trans (hp x hpx))

theorem Undoing.any_eq_false (h : Undoing lines es) {p : Entry κ ι → Bool}
    (hp : ∀ x, p x = true → x.isRollback = false) : es.any p = false := by
  refine List.any_eq_false.2 fun x hx hpx => ?_
  exact Bool.false_ne_true ((hp x hpx).symm.trans (h.isRollback x hx))

theorem isControl_of_isCommitted {x : Entry κ ι} (h : x.isCommitted = true) :
    x.isControl = true ∧ x.isRollback = false := by
  rcases x with ⟨_, _ | _ | _, _ | _⟩ | _ | _ <;>
    simp_all [Entry.isCommitted, Entry.isControl, Entry.isRollback]

theorem isControl_of_isCommitFailure {x : Entry κ ι} (h : x.isCommitFailure = true) :
    x.isControl = true ∧ x.isRollback = false := by
  rcases x with ⟨_, _ | _ | _, _ | _⟩ | _ | _ <;>
    simp_all [Entry.isCommitFailure, Entry.isControl, Entry.isRollback]

/-- When the error of a chain is a partial commit, given that no call of it failed with one, and that
    one transaction at most is connected. -/
theorem Course.isPartialCommit_iff (h : Course L s ts steps lines r es)
    (hnodup : (ts.map (·.isConnected)).Nodup)
    (hself : ∀ e ∈ es.filterMap Entry.failure?, e.isPartialCommit = false) :
    (∃ report, r = .error report ∧ report.isPartialCommit = true) ↔
      es.any Entry.isCommitFailure = true ∧
        (es.any Entry.isCommitted = true ∨ (ts.map (·.isConnected)).head? = some false) := by
  -- Neither what the steps enter nor what is rolled back tells of a commit.
  have hran : ∀ {steps ran}, Went steps ran → (ran : List (Entry κ ι)).any Entry.isCommitFailure =
      false ∧ ran.any Entry.isCommitted = false := fun hwent =>
    ⟨hwent.any_eq_false fun _ hx => (isControl_of_isCommitFailure hx).1,
      hwent.any_eq_false fun _ hx => (isControl_of_isCommitted hx).1⟩
  have hundone : ∀ {lines undo}, Undoing lines undo →
      (undo : List (Entry κ ι)).any Entry.isCommitFailure = false ∧
        undo.any Entry.isCommitted = false := fun hundo =>
    ⟨hundo.any_eq_false fun _ hx => (isControl_of_isCommitFailure hx).2,
      hundo.any_eq_false fun _ hx => (isControl_of_isCommitted hx).2⟩
  cases h with
  | @beginFailed k e undo _ hundo =>
    have he : e.isPartialCommit = false := hself e (by simp [Entry.failure?])
    simp [he, hundone hundo, Entry.isCommitFailure]
  | @stepFailed done rest i e ran undo _ hwent hundo =>
    have he : e.isPartialCommit = false := hself e (by simp [Entry.failure?])
    simp [he, hran hwent, hundone hundo, Entry.isCommitFailure]
  | @commitFailed done rest k e report ran undo _ hwent hblame hundo =>
    have he : e.isPartialCommit = false := hself e (by simp [Entry.failure?])
    have hdone : (done.map (.committed : κ → Entry κ ι)).any Entry.isCommitted =
        decide (done.length ≠ 0) := by
      cases done <;> simp [Entry.isCommitted]
    have hiff := hblame.isPartialCommit_iff hnodup he
    simp [hran hwent, hundone hundo, hdone, hiff, Entry.isCommitFailure, Entry.isCommitted]
  | succeeded hwent =>
    simp [hran hwent, Entry.isCommitFailure]

end Course

end Ledger

namespace TransactionScheme

variable {isOpen : ConnectionId → σ → Bool} {units : List (WorkUnit σ)} {check : Act σ Unit}

/-- What happens when units are run under a scheme; nothing if it makes no transactions of them. -/
def history (scheme : TransactionScheme σ) (units : List (WorkUnit σ)) (check : Act σ Unit)
    (s : σ) : List (ChainEvent σ) :=
  match scheme.transactions units with
  | .ok ts => Chain.history check ts s
  | .error _ => []

theorem standard_transactions_error {e : StoreError}
    (h : standard.transactions units = .error e) : e = .missingConnection := by
  obtain ⟨⟨c, group⟩, -, he⟩ := exists_of_mapM_eq_error h
  cases c with
  | plain => cases he
  | connected =>
    change Transaction.ofConnected group = .error e at he
    rw [Transaction.ofConnected] at he
    rcases hgs : Strand.ofUnits group with e' | gs <;> rw [hgs] at he <;> cases he
    exact Strand.ofUnits_eq_error hgs

theorem isFair_standard {ts : List (Transaction σ)}
    (hconnections : ∀ u ∈ units, ∀ c, u.connection = some c → c.IsFaithful isOpen)
    (hunits : ∀ u ∈ units, u.run.Spares isOpen) (hcheck : check.Spares isOpen)
    (h : standard.transactions units = .ok ts) : Chain.IsFair isOpen check ts where
  fresh t ht := by
    obtain ⟨group, -, hfresh⟩ := standard_isFresh h t ht
    exact ⟨group, hfresh⟩
  connections t ht u hu := by
    obtain ⟨group, hgroup, hfresh⟩ := standard_isFresh h t ht
    exact hconnections u (hgroup u (hfresh.isNew.units.mem_iff.1 hu))
  units t ht u hu := by
    obtain ⟨group, hgroup, hfresh⟩ := standard_isFresh h t ht
    exact hunits u (hgroup u (hfresh.isNew.units.mem_iff.1 hu))
  check := hcheck

/-- The standard scheme reports a partial commit if a commit failed and another one had succeeded,
    but also if a commit failed and the first unit of work is plain. No call of the run itself
    failed with such a report. -/
theorem standard_isPartialCommit_iff
    (hconnections : ∀ u ∈ units, ∀ c, u.connection = some c → c.IsFaithful isOpen)
    (hunits : ∀ u ∈ units, u.run.Spares isOpen) (hcheck : check.Spares isOpen) (s : σ)
    (hself : ∀ e ∈ (standard.history units check s).filterMap Ledger.Entry.failure?,
      e.isPartialCommit = false) :
    (∃ report, ((standard.executeChecked units check).perform s).1 = .error report ∧
        report.isPartialCommit = true) ↔
      (standard.history units check s).any Ledger.Entry.isCommitFailure = true ∧
        ((standard.history units check s).any Ledger.Entry.isCommitted = true ∨
          units.head?.map (·.capability) = some .plain) := by
  rw [executeChecked, Act.perform_bind, Act.perform_ofExcept]
  rcases hts : standard.transactions units with e | ts
  · simp [history, hts, standard_transactions_error hts, StoreError.isPartialCommit]
  · obtain ⟨lines, -, -, hcourse⟩ := (isFair_standard hconnections hunits hcheck hts).course s
    have hkinds : ((ts.map (·.observed)).map (·.isConnected)) = ts.map (·.isConnected) := by
      rw [List.map_map]
      exact List.map_congr_left fun t _ => t.isConnected_observed
    simp only [history, hts] at hself ⊢
    rw [hcourse.isPartialCommit_iff (hkinds ▸ standard_isConnected_nodup hts) hself, hkinds,
      standard_head_isConnected hts]

section

open Rehearsal (Stage)
open Rehearsal.Stage

/-- A plain unit, and one on a line. -/
def plainFirst : List (WorkUnit Stage) := [.task (pure ()), .connectedTask (lineOf ⟨0⟩) (pure ())]

/-- A stage on which nothing is committed. -/
def stuckStage : Stage where
  lines _ := { name := "a", failures := fun call _ => call = .commit }

theorem plainFirst_isFaithful :
    ∀ u ∈ plainFirst, ∀ c, u.connection = some c → c.IsFaithful isOpenOn := by
  simp [plainFirst, WorkUnit.task, WorkUnit.connectedTask, lineOf_isFaithful]

theorem plainFirst_spares : ∀ u ∈ plainFirst, u.run.Spares isOpenOn := by
  simp [plainFirst, WorkUnit.task, WorkUnit.connectedTask, Act.Spares]

/-- The report of a stuck stage is partial because the plain unit comes first. -/
theorem plainFirst_isPartialCommit_iff :
    (∃ report, ((standard.executeChecked plainFirst (pure ())).perform stuckStage).1 =
        .error report ∧ report.isPartialCommit = true) ↔
      (standard.history plainFirst (pure ()) stuckStage).any Ledger.Entry.isCommitFailure = true ∧
        ((standard.history plainFirst (pure ()) stuckStage).any Ledger.Entry.isCommitted = true ∨
          plainFirst.head?.map (·.capability) = some .plain) :=
  standard_isPartialCommit_iff plainFirst_isFaithful plainFirst_spares (fun _ _ => rfl) stuckStage
    (by decide +kernel)

/-- A partial commit is reported where nothing was committed: the only connection of the chain failed
    to commit, and no call failed with such a report itself. -/
theorem standard_partialCommit_of_nothing :
    (∀ u ∈ plainFirst, ∀ c, u.connection = some c → c.IsFaithful isOpenOn) ∧
      (∀ u ∈ plainFirst, u.run.Spares isOpenOn) ∧
      (∀ e ∈ (standard.history plainFirst (pure ()) stuckStage).filterMap Ledger.Entry.failure?,
        e.isPartialCommit = false) ∧
      ((standard.executeChecked plainFirst (pure ())).perform stuckStage).1 =
        .error (.partialCommit 1 2 2 (.queryFailed "commit failed on a")) ∧
      (standard.history plainFirst (pure ()) stuckStage).any Ledger.Entry.isCommitted = false :=
  ⟨plainFirst_isFaithful, plainFirst_spares, by decide +kernel, by decide +kernel,
    by decide +kernel⟩

end

end TransactionScheme

end RecordStore
