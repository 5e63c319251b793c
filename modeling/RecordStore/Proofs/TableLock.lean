import RecordStore.Proofs.Transaction.Pairing
import RecordStore.Proofs.Save.Retry

/-!
# Work under a table lock

A body that runs under the lock of its table runs in a transaction: locking opens it, unlocking
commits it, and it is rolled back if the body fails. Each of the three calls may fail, and so may the
body, so there are four ways that this takes (`TableStore.LockCourse`).

What a connection does is told by two views of its world: what is *stored*, and what is *present* to
the connection, its open transaction included. A call that fails changes neither what is stored nor
whether a transaction is open (`Connection.Stores`). A body may do whatever it likes inside the
transaction (`Act.StaysInside`).

* The work of the body is stored exactly if the result is a success
  (`TableStore.underTableLock_settles`).
* The connection is left in the transaction exactly if it failed to unlock or to roll back. Nothing
  is rolled back after unlocking has failed, so one failing call is enough for the lock to outlive
  the work (`Rehearsal.Stage.lockedItem_left_open`).
-/

namespace RecordStore

variable {σ α δ : Type}

/-! ### What connections and bodies do -/

/-- A call that leaves this stored and the transaction open or closed if it succeeds, and both as
    they are if it fails. -/
structure Act.Settles (c : Connection σ) (stored : σ → δ) (toOpen : Bool) (left : σ → δ)
    (f : Act σ Unit) : Prop where
  granted : ∀ s, (f.perform s).1 = .ok () →
    c.inTransaction (f.perform s).2 = toOpen ∧ stored (f.perform s).2 = left s
  failed : ∀ s e, (f.perform s).1 = .error e →
    c.inTransaction (f.perform s).2 = c.inTransaction s ∧ stored (f.perform s).2 = stored s

/-- A connection that stores what is present to it when it unlocks its tables, and nothing when it
    locks them or rolls back. -/
structure Connection.Stores (stored present : σ → δ) (c : Connection σ) : Prop where
  lockTables : ∀ names, (c.lockTables names).Settles c stored true stored
  unlockTables : c.unlockTables.Settles c stored false present
  rollback : c.rollback.Settles c stored false stored

/-- Work that leaves an open transaction open, so that nothing of it is stored yet. -/
def Act.StaysInside (c : Connection σ) (stored : σ → δ) (f : Act σ α) : Prop :=
  ∀ s, c.inTransaction s = true →
    c.inTransaction (f.perform s).2 = true ∧ stored (f.perform s).2 = stored s

/-! ### What happens under a lock -/

/-- An event under a lock. Locking begins a transaction, unlocking commits it, and the body is the
    one step between them. -/
abbrev LockEvent := Ledger.Entry ConnectionId Unit

/-- An action that is entered in the history with its outcome. -/
def Act.entering (enter : Except StoreError α → LockEvent) (f : Act σ α) :
    Act (σ × List LockEvent) α :=
  Act.make fun (s, history) =>
    let (r, s') := f.perform s
    (r, s', history ++ [enter r])

theorem Act.perform_entering (enter : Except StoreError α → LockEvent) (f : Act σ α) (s : σ)
    (history : List LockEvent) :
    (f.entering enter).perform (s, history) =
      ((f.perform s).1, (f.perform s).2, history ++ [enter (f.perform s).1]) := rfl

/-- A body that is entered when it has come to its end. -/
def Act.observedBody (body : Act σ α) : Act (σ × List LockEvent) α :=
  body.entering fun r => .step () (r.map fun _ => ())

/-- A connection that enters when tables are locked and unlocked, and when it rolls back. -/
def Connection.lockObserved (c : Connection σ) : Connection (σ × List LockEvent) :=
  { c.zoom .fst with
    lockTables := fun names => (c.lockTables names).entering (.control c.id .begin)
    unlockTables := c.unlockTables.entering (.control c.id .commit)
    rollback := c.rollback.entering (.control c.id .rollback) }

namespace TableStore

/-- The store on such a connection. -/
def lockObserved (t : TableStore σ) : TableStore (σ × List LockEvent) where
  connection := t.connection.lockObserved
  compiler := t.compiler

section Observed

variable (t : TableStore σ) (s : σ) (history : List LockEvent)

theorem table_lockObserved : t.lockObserved.table = t.table := rfl

theorem lockTables_lockObserved (names : List String) :
    t.lockObserved.connection.lockTables names =
      (t.connection.lockTables names).entering (.control t.connection.id .begin) := rfl

theorem unlockTables_lockObserved : t.lockObserved.connection.unlockTables =
    t.connection.unlockTables.entering (.control t.connection.id .commit) := rfl

theorem rollback_lockObserved : t.lockObserved.connection.rollback =
    t.connection.rollback.entering (.control t.connection.id .rollback) := rfl

end Observed

/-- What happens when a body runs under the lock of the table. -/
def lockHistory (t : TableStore σ) (body : Act σ α) (s : σ) : List LockEvent :=
  ((t.lockObserved.underTableLock body.observedBody).perform (s, [])).2.2

/-- The ways of a body under a lock: its result and the world it leaves, and what has happened. -/
inductive LockCourse (t : TableStore σ) (body : Act σ α) (s : σ) :
    Except StoreError α × σ → List LockEvent → Prop
  /-- The table could not be locked. -/
  | refused {e : StoreError} {s' : σ} :
    (t.connection.lockTables [t.table]).perform s = (.error e, s') →
    LockCourse t body s (.error e, s') [.control t.connection.id .begin (.error e)]
  /-- The body failed, and an attempt was made to roll back. -/
  | undone {e : StoreError} {r : Except StoreError Unit} {s₁ s₂ s' : σ} :
    (t.connection.lockTables [t.table]).perform s = (.ok (), s₁) →
    body.perform s₁ = (.error e, s₂) → t.connection.rollback.perform s₂ = (r, s') →
    LockCourse t body s (.error e, s') [.begun t.connection.id, .step () (.error e),
      .control t.connection.id .rollback r]
  /-- The body succeeded, but the table could not be unlocked. -/
  | stuck {a : α} {e : StoreError} {s₁ s₂ s' : σ} :
    (t.connection.lockTables [t.table]).perform s = (.ok (), s₁) →
    body.perform s₁ = (.ok a, s₂) → t.connection.unlockTables.perform s₂ = (.error e, s') →
    LockCourse t body s (.error e, s') [.begun t.connection.id, .step () (.ok ()),
      .control t.connection.id .commit (.error e)]
  /-- Nothing failed. -/
  | finished {a : α} {s₁ s₂ s' : σ} :
    (t.connection.lockTables [t.table]).perform s = (.ok (), s₁) →
    body.perform s₁ = (.ok a, s₂) → t.connection.unlockTables.perform s₂ = (.ok (), s') →
    LockCourse t body s (.ok a, s') [.begun t.connection.id, .step () (.ok ()),
      .committed t.connection.id]

theorem underTableLock_course (t : TableStore σ) (body : Act σ α) (s : σ) :
    LockCourse t body s ((t.underTableLock body).perform s) (t.lockHistory body s) := by
  simp only [lockHistory, underTableLock, Act.observedBody, Act.attempt, Act.bestEffort,
    Act.perform_bind, Act.perform_make, Act.perform_entering, table_lockObserved,
    lockTables_lockObserved]
  rcases hlock : (t.connection.lockTables [t.table]).perform s with ⟨e | _, s₁⟩
  · exact .refused hlock
  · dsimp only
    rcases hbody : body.perform s₁ with ⟨e | a, s₂⟩
    · simp only [hbody, Act.perform_bind, Act.perform_make, rollback_lockObserved,
        Act.perform_entering]
      exact .undone hlock hbody rfl
    · simp only [hbody, Act.perform_bind, unlockTables_lockObserved, Act.perform_entering]
      rcases hunlock : t.connection.unlockTables.perform s₂ with ⟨e | _, s'⟩
      · exact .stuck hlock hbody hunlock
      · exact .finished hlock hbody hunlock

/-- Work under a table lock is stored, all of it, exactly if the result is a success, and then the
    table has been unlocked after the body. The connection is left in the transaction exactly if it
    failed to unlock or to roll back. -/
theorem underTableLock_settles {t : TableStore σ} {stored present : σ → δ} {body : Act σ α}
    (hconn : t.connection.Stores stored present) (hbody : body.StaysInside t.connection stored)
    {s : σ} (hs : t.connection.inTransaction s = false) :
    (t.connection.inTransaction ((t.underTableLock body).perform s).2 = true ↔
      ∃ e, .control t.connection.id .commit (.error e) ∈ t.lockHistory body s ∨
        .control t.connection.id .rollback (.error e) ∈ t.lockHistory body s) ∧
    ((∃ a, ((t.underTableLock body).perform s).1 = .ok a) ↔
      .committed t.connection.id ∈ t.lockHistory body s) ∧
    (∀ a, ((t.underTableLock body).perform s).1 = .ok a →
      ∃ s₁, (t.connection.lockTables [t.table]).perform s = (.ok (), s₁) ∧
        (body.perform s₁).1 = .ok a ∧
        stored ((t.underTableLock body).perform s).2 = present (body.perform s₁).2) ∧
    ∀ e, ((t.underTableLock body).perform s).1 = .error e →
      stored ((t.underTableLock body).perform s).2 = stored s := by
  have hcourse := t.underTableLock_course body s
  generalize (t.underTableLock body).perform s = out at hcourse ⊢
  generalize t.lockHistory body s = history at hcourse ⊢
  -- What is open and stored when the body has come to its end.
  have hinside : ∀ {s₁ s₂ r}, (t.connection.lockTables [t.table]).perform s = (.ok (), s₁) →
      body.perform s₁ = (r, s₂) →
      t.connection.inTransaction s₂ = true ∧ stored s₂ = stored s := by
    intro s₁ s₂ r hlock hperform
    obtain ⟨hopen, hkept⟩ := (hconn.lockTables _).granted s (by rw [hlock])
    rw [hlock] at hopen hkept
    obtain ⟨hopen', hkept'⟩ := hbody s₁ hopen
    rw [hperform] at hopen' hkept'
    exact ⟨hopen', hkept'.trans hkept⟩
  cases hcourse with
  | @refused e s' hlock =>
    obtain ⟨hopen, hkept⟩ := (hconn.lockTables _).failed s e (by rw [hlock])
    rw [hlock] at hopen hkept
    simp [hopen, hs, hkept]
  | @undone e r s₁ s₂ s' hlock hperform hrollback =>
    obtain ⟨hopen, hkept⟩ := hinside hlock hperform
    rcases r with e' | _
    · obtain ⟨hopen', hkept'⟩ := hconn.rollback.failed s₂ e' (by rw [hrollback])
      rw [hrollback] at hopen' hkept'
      simp [hopen', hopen, hkept', hkept]
    · obtain ⟨hclosed, hkept'⟩ := hconn.rollback.granted s₂ (by rw [hrollback])
      rw [hrollback] at hclosed hkept'
      simp [hclosed, hkept', hkept]
  | @stuck a e s₁ s₂ s' hlock hperform hunlock =>
    obtain ⟨hopen, hkept⟩ := hinside hlock hperform
    obtain ⟨hopen', hkept'⟩ := hconn.unlockTables.failed s₂ e (by rw [hunlock])
    rw [hunlock] at hopen' hkept'
    simp [hopen', hopen, hkept', hkept]
  | @finished a s₁ s₂ s' hlock hperform hunlock =>
    obtain ⟨hclosed, hstored⟩ := hconn.unlockTables.granted s₂ (by rw [hunlock])
    rw [hunlock] at hclosed hstored
    simp [hclosed, hstored, hlock, hperform]

end TableStore

/-! ### On a stage -/

namespace Rehearsal.Stage

/-- What an entry says of the statements of a line: those that were stored, and those that its open
    transaction holds besides. -/
def keep (i : Nat) : List SentStatement × List SentStatement → Entry →
    List SentStatement × List SentStatement
  | (kept, held), .call j _ .execute (.statement sql params) =>
    if j = i then (kept, held ++ [(sql, params)]) else (kept, held)
  | (kept, held), .call j _ .commit _ => if j = i then (kept ++ held, []) else (kept, held)
  | (kept, held), .call j _ .unlockTables _ => if j = i then (kept ++ held, []) else (kept, held)
  | (kept, held), .call j _ .rollback _ => if j = i then (kept, []) else (kept, held)
  | (kept, held), _ => (kept, held)

/-- The statements that a line has stored. -/
def stored (i : Nat) (s : Stage) : List SentStatement := (s.journal.foldl (keep i) ([], [])).1

/-- The statements that a line has stored and those that its open transaction holds. -/
def present (i : Nat) (s : Stage) : List SentStatement :=
  (s.journal.foldl (keep i) ([], [])).1 ++ (s.journal.foldl (keep i) ([], [])).2

/-- A call that only sets whether the transaction of the line is open. What it leaves stored depends
    on the kind of call. -/
theorem turn_settles (id : ConnectionId) (i : Nat) (call : Call) (details : Details) (toOpen : Bool)
    {left : Stage → List SentStatement}
    (hleft : ∀ s name, (keep i (s.journal.foldl (keep i) ([], [])) (.call i name call details)).1 =
      left s) :
    (turn i call details toOpen).Settles (connection id i) (stored i) toOpen left where
  granted s := by
    simp only [turn, answer, Act.perform_make]
    split
    · simp
    · intro _
      simp [connection, setLine, stored, List.foldl_append, hleft]
  failed s e := by
    simp only [turn, answer, Act.perform_make]
    split
    · intro _
      simp [connection, setLine, stored, List.foldl_append, keep]
    · simp

/-- A line stores what it has executed when it unlocks its tables. -/
theorem connection_stores (id : ConnectionId) (i : Nat) :
    (connection id i).Stores (stored i) (present i) where
  lockTables names := by
    have hturn := @turn_settles id i .lockTables (.tables names) true (stored i)
      fun s name => by simp [keep, stored]
    -- On a line that is open the call fails and changes nothing.
    have hperform : ∀ s, ((connection id i).lockTables names).perform s =
        if (s.lines i).isOpen then (.error (.lockWhileTransactional (", ".intercalate names)), s)
        else (turn i .lockTables (.tables names) true).perform s := by
      intro s
      simp only [connection, lockTables, Act.perform_bind, Act.perform_read]
      split <;> rfl
    refine ⟨fun s hok => ?_, fun s e herror => ?_⟩
    · rw [hperform] at hok ⊢
      split at hok
      next => cases hok
      next hclosed =>
        rw [if_neg hclosed]
        exact hturn.granted s hok
    · rw [hperform] at herror ⊢
      split at herror
      next hopen =>
        rw [if_pos hopen]
        exact ⟨rfl, rfl⟩
      next hclosed =>
        rw [if_neg hclosed]
        exact hturn.failed s e herror
  unlockTables := turn_settles id i .unlockTables .none false fun s name => by
    simp [keep, present]
  rollback := turn_settles id i .rollback .none false fun s name => by
    simp [keep, stored]

/-- A body that sends one statement to line 0. -/
def clearItems : Act Stage Nat := (connection default 0).execute "DELETE FROM item" []

theorem clearItems_staysInside : clearItems.StaysInside (connection default 0) (stored 0) := by
  intro s hopen
  have haffected : ∀ line, (nextAffected line).2.isOpen = line.isOpen := fun line => by
    rcases h : line.affected with _ | ⟨n, rest⟩ <;> simp [nextAffected, h]
  obtain ⟨hsame, -⟩ := answer_enters 0 .execute (.statement "DELETE FROM item" []) haffected s
  refine ⟨hsame.trans hopen, ?_⟩
  simp only [clearItems, connection, answer, Act.perform_make]
  split <;> simp [stored, List.foldl_append, keep]

/-- A stage whose first line fails to make this call. -/
def lame (call : Call) : Stage where
  lines _ := { failures := fun c => if c = call then .after 0 else .never }

/-- Under the lock of their table, items are cleared and the connection is out of the transaction
    again, even where it could not roll back. -/
theorem clearItems_settles :
    itemStore.connection.inTransaction
      ((itemStore.underTableLock clearItems).perform (lame .rollback)).2 = false ∧
    stored 0 ((itemStore.underTableLock clearItems).perform (lame .rollback)).2 =
      [("DELETE FROM item", [])] := by
  obtain ⟨hopen, -, hstored, -⟩ := TableStore.underTableLock_settles (t := itemStore)
    (connection_stores default 0) clearItems_staysInside (s := lame .rollback) rfl
  have hsmooth : (itemStore.lockHistory clearItems (lame .rollback)).all
      (·.failure?.isNone) = true := by
    decide +kernel
  obtain ⟨s₁, hlock, -, heq⟩ := hstored 1 (by decide +kernel)
  obtain rfl := congrArg Prod.snd hlock
  refine ⟨Bool.eq_false_iff.2 fun h => ?_, heq.trans (by decide +kernel)⟩
  obtain ⟨e, hmem | hmem⟩ := hopen.1 h <;>
    exact absurd (List.all_eq_true.1 hsmooth _ hmem) (by simp [Ledger.Entry.failure?])

/-- The connection is left in its transaction when the table cannot be unlocked, and no attempt is
    made to roll back. -/
theorem lockedItem_left_open :
    (connection default 0).Stores (stored 0) (present 0) ∧
      clearItems.StaysInside (connection default 0) (stored 0) ∧
      itemStore.connection.inTransaction (lame .unlockTables) = false ∧
      (itemStore.lockHistory clearItems (lame .unlockTables)).all
        (!·.asks .rollback itemStore.connection.id) = true ∧
      itemStore.connection.inTransaction
        ((itemStore.underTableLock clearItems).perform (lame .unlockTables)).2 = true :=
  ⟨connection_stores default 0, clearItems_staysInside, rfl, by decide +kernel, by decide +kernel⟩

end Rehearsal.Stage

end RecordStore
