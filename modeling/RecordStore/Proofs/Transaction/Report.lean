import RecordStore.Proofs.Transaction.Pairing

/-!
# What the error of a chain tells

The error of a chain is that of the first call, unit or check that failed in it, as it is or inside
reports of partial commits. A rollback is never the first to fail, and its errors never show. Every
such report counts the commits that went before, the one that failed, and all there are
(`StoreError.TellsOf`).

* A chain returns no error only if it has committed all that it has begun.
* A chain that reports no partial commit has committed nothing.

Both levels at which commits are counted, the connections of a transaction and the transactions of
a chain, are one argument here: a report of a commit that failed as the first of all is the error
itself (`Ledger.ChainBlame.eq_zero`).
-/

namespace RecordStore

variable {κ ι σ : Type} {L : Ledger κ ι σ}

namespace StoreError

/-- The report of a chain that was committed in part. -/
def isPartialCommit : StoreError → Bool
  | partialCommit .. => true
  | _ => false

/-- A report that leads to an error, through partial commits whose numbers fit. -/
inductive TellsOf : StoreError → StoreError → Prop
  | itself (e : StoreError) : TellsOf e e
  | partialCommit {committed failedAt total : Nat} {source e : StoreError} :
    committed + 1 = failedAt → failedAt ≤ total → TellsOf source e →
    TellsOf (.partialCommit committed failedAt total source) e

theorem TellsOf.afterCommits {report e : StoreError} (h : TellsOf report e) {n total : Nat}
    (hn : n < total) : TellsOf (report.afterCommits n total) e := by
  by_cases hzero : n = 0
  · rwa [hzero, afterCommits_zero]
  · rw [afterCommits_of_ne hzero]
    exact .partialCommit rfl hn h

@[simp]
theorem isPartialCommit_afterCommits (e : StoreError) (n total : Nat) :
    (e.afterCommits n total).isPartialCommit = (decide (n ≠ 0) || e.isPartialCommit) := by
  by_cases hzero : n = 0
  · simp [hzero]
  · simp [afterCommits_of_ne hzero, isPartialCommit, hzero]

end StoreError

namespace Ledger

variable {ts : List (Transaction σ)} {i : Nat} {e report : StoreError}

theorem ChainBlame.tellsOf (h : ChainBlame ts 0 ts.length i e report) : report.TellsOf e := by
  cases h with
  | @intro j n size hj hn _ _ =>
    have hlength : j < ts.length := by
      obtain ⟨hlt, -⟩ := List.getElem?_eq_some_iff.1 hj
      simpa using hlt
    exact ((StoreError.TellsOf.itself e).afterCommits hn).afterCommits (by omega)

/-- A report that is not of a partial commit is of the first commit of all. -/
theorem ChainBlame.eq_zero (h : ChainBlame ts 0 ts.length i e report)
    (hreport : report.isPartialCommit = false) : i = 0 := by
  cases h with
  | @intro j n size _ _ _ hzero =>
    obtain ⟨hj, hn, -⟩ : j = 0 ∧ n = 0 ∧ _ := by simpa using hreport
    rw [← hzero hj, hn]

section Course

variable {s : σ} {steps : List ι} {lines : List κ} {r : Except StoreError Unit}
  {es : List (Entry κ ι)}

theorem failure?_map_control (lines : List κ) (q : Request) :
    ∀ x ∈ lines.map fun k => (.control k q (.ok ()) : Entry κ ι), x.failure? = none := by
  simp [Entry.failure?]

theorem Undoing.isRollback (h : Undoing lines es) : ∀ x ∈ es, x.isRollback = true := by
  intro x hx
  obtain ⟨k, -, r, rfl⟩ := h.exists_of_mem hx
  rfl

/-- What failed first is told by the error, and is followed by nothing but rollbacks. -/
theorem Course.exists_first_failure (h : Course L s ts steps lines r es)
    (hr : r = .error report) :
    ∃ before x after e, es = before ++ x :: after ∧ (∀ y ∈ before, y.failure? = none) ∧
      x.failure? = some e ∧ x.isRollback = false ∧ (∀ y ∈ after, y.isRollback = true) ∧
      report.TellsOf e := by
  cases h with
  | @beginFailed k e undo _ hundo =>
    cases hr
    exact ⟨lines.map .begun, .control k .begin (.error report), undo, report, rfl,
      failure?_map_control lines .begin, rfl, rfl, hundo.isRollback, .itself report⟩
  | @stepFailed done rest i e ran undo _ hwent hundo =>
    cases hr
    exact ⟨lines.map .begun ++ ran, .step i (.error report), undo, report, rfl,
      List.forall_mem_append.2 ⟨failure?_map_control lines .begin, hwent.unfailing⟩, rfl, rfl,
      hundo.isRollback, .itself report⟩
  | @commitFailed done rest k e _ ran undo _ hwent hblame hundo =>
    cases hr
    refine ⟨lines.map .begun ++ ran ++ done.map .committed, .control k .commit (.error e), undo, e,
      rfl, ?_, rfl, rfl, hundo.isRollback, hblame.tellsOf⟩
    rw [List.forall_mem_append, List.forall_mem_append]
    exact ⟨⟨failure?_map_control lines .begin, hwent.unfailing⟩,
      failure?_map_control done .commit⟩
  | succeeded => cases hr

variable [DecidableEq κ]

/-- Without an error, what is begun is committed. -/
theorem Course.committed_of_begun (h : Course L s ts steps lines r es) (hr : r = .ok ())
    {x : Entry κ ι} (hx : x ∈ es) {k : κ} (hbegun : x.grants .begin k = true) :
    ∃ y ∈ es, y.grants .commit k = true := by
  have hk := h.mem_of_begun hx hbegun
  cases h with
  | beginFailed | stepFailed | commitFailed => cases hr
  | succeeded =>
    exact ⟨.committed k, List.mem_append_right _ (List.mem_map_of_mem hk), by simp⟩

theorem Undoing.grants_commit_eq_false (h : Undoing lines es) :
    ∀ x ∈ es, ∀ k, x.grants .commit k = false := fun x hx k =>
  Entry.grants_eq_false (h.asks_commit_eq_false x hx k)

theorem grants_commit_begun (lines : List κ) :
    ∀ x ∈ lines.map (.begun : κ → Entry κ ι), ∀ k, x.grants .commit k = false := by
  simp

/-- With an error that is not a partial commit, nothing is committed. -/
theorem Course.not_committed (h : Course L s ts steps lines r es) (hr : r = .error report)
    (hreport : report.isPartialCommit = false) :
    ∀ x ∈ es, ∀ k, x.grants .commit k = false := by
  cases h with
  | beginFailed _ hundo =>
    rw [List.forall_mem_append, List.forall_mem_cons]
    exact ⟨grants_commit_begun lines, fun _ => rfl, hundo.grants_commit_eq_false⟩
  | stepFailed _ hwent hundo =>
    rw [List.forall_mem_append, List.forall_mem_append, List.forall_mem_cons]
    exact ⟨⟨grants_commit_begun lines, hwent.grants_eq_false _⟩, fun _ => rfl,
      hundo.grants_commit_eq_false⟩
  | @commitFailed done rest j e _ ran undo _ hwent hblame hundo =>
    cases hr
    -- A commit after another one would be reported as partial.
    have hdone : done = [] := List.eq_nil_of_length_eq_zero (hblame.eq_zero hreport)
    rw [hdone, List.map_nil, List.append_nil, List.forall_mem_append, List.forall_mem_append,
      List.forall_mem_cons]
    exact ⟨⟨grants_commit_begun lines, hwent.grants_eq_false _⟩, fun _ => rfl,
      hundo.grants_commit_eq_false⟩
  | succeeded => cases hr

end Course

end Ledger

namespace Chain

variable {isOpen : ConnectionId → σ → Bool} {check : Act σ Unit} {ts : List (Transaction σ)}

/-- A chain that returns no error has committed what it has begun. A chain that returns one has
    committed nothing, or reports a partial commit; and the error is, or tells of, that of the first
    begin, unit, check or commit that failed, after which there were only rollbacks. -/
theorem IsFair.reports_first_failure (h : IsFair isOpen check ts) (s : σ) :
    (((execute check ts).perform s).1 = .ok () → ∀ id, ∀ x ∈ history check ts s,
      x.grants .begin id = true → ∃ y ∈ history check ts s, y.grants .commit id = true) ∧
    ∀ report, ((execute check ts).perform s).1 = .error report →
      (report.isPartialCommit = false →
        ∀ x ∈ history check ts s, ∀ id, x.grants .commit id = false) ∧
      ∃ before x after e, history check ts s = before ++ x :: after ∧
        (∀ y ∈ before, y.failure? = none) ∧ x.failure? = some e ∧ x.isRollback = false ∧
        (∀ y ∈ after, y.isRollback = true) ∧ report.TellsOf e := by
  obtain ⟨lines, -, -, hcourse⟩ := h.course s
  refine ⟨fun hok id x hx hbegun => hcourse.committed_of_begun hok hx hbegun,
    fun report hreport => ⟨?_, hcourse.exists_first_failure hreport⟩⟩
  exact hcourse.not_committed hreport

open Rehearsal.Stage in
/-- On a torn stage, the second line does not commit after the first one has. -/
theorem sharedChain_reports_first_failure :
    ((execute (pure ()) sharedChain).perform tornStage).1 =
        .error (.partialCommit 1 2 2 (.queryFailed "commit failed on b")) ∧
      ∃ before x after e, history (pure ()) sharedChain tornStage = before ++ x :: after ∧
        (∀ y ∈ before, y.failure? = none) ∧ x.failure? = some e ∧ x.isRollback = false ∧
        (∀ y ∈ after, y.isRollback = true) ∧
        (StoreError.partialCommit 1 2 2 (.queryFailed "commit failed on b")).TellsOf e := by
  have hresult : ((execute (pure ()) sharedChain).perform tornStage).1 =
      .error (.partialCommit 1 2 2 (.queryFailed "commit failed on b")) := by decide +kernel
  exact ⟨hresult,
    ((IsFair.reports_first_failure sharedChain_isFair tornStage).2 _ hresult).2⟩

end Chain

end RecordStore
