import Mathlib.Logic.Function.Basic
import RecordStore.Proofs.Backend.Frame
import RecordStore.Proofs.Backend.LockHistory
import RecordStore.Simulation.Driver
import RecordStore.TableStore

/-!
# Nested locks

Work under a named lock may itself work under named locks, the same one or others, and do so again
and again. A `LockProgram` is such work through one connection: it goes on after each call with the
result of that, so an error may be passed on, or be the reason to do something else.

A lock that is free is one that its next holder holds zero times (`holding`). In these terms taking
a lock adds one to how often it is held, and releasing it takes one away. So a call whose body leaves
all locks as they are does so itself, and returns what its body returns (`underLock_givesBack`). The
bodies of a program are made of such calls, and leave all locks as they are for this reason
(`LockProgram.run_givesBack`).

Nothing else that a connection does touches the named locks (`connection_sparesLocks`).
-/

namespace RecordStore.Backend

variable {d : Driver} {α β : Type} {b : Backend d} {id : ConnectionId} {name : String} {depth : Nat}

/-- Who holds each lock, and how many times. -/
def holders (b : Backend d) : String → Option Hold := b.locks.table.holder?

/-! ### Taking and releasing -/

/-- The state of a lock that this connection holds so many times. -/
def holding (id : ConnectionId) : Nat → Option Hold
  | 0 => none
  | depth + 1 => some ⟨id, depth + 1⟩

theorem holders_insert (table : LockTable) (h : Hold) :
    (table.insert name h).holder? = Function.update table.holder? name (some h) := by
  funext other
  rw [LockTable.holder?_insert, Function.update_apply]

theorem holders_erase (table : LockTable) :
    (table.erase name).holder? = Function.update table.holder? name none := by
  funext other
  rw [LockTable.holder?_erase, Function.update_apply]

theorem takeLock_holding (h : b.holders name = holding id depth) :
    ∃ b₁, (takeLock id name).perform b = (.ok (), b₁) ∧
      b₁.holders = Function.update b.holders name (holding id (depth + 1)) := by
  have htake : b.locks.table.take? name id =
      some (b.locks.table.insert name ⟨id, depth + 1⟩) := by
    rw [holders] at h
    rw [LockTable.take?, h]
    cases depth <;> simp [holding]
  refine ⟨{ b with locks := { b.locks with table := b.locks.table.insert name ⟨id, depth + 1⟩ } },
    ?_, holders_insert ..⟩
  simp only [takeLock, Act.perform_make, htake]

theorem freeLock_holding (h : b.holders name = holding id (depth + 1)) :
    ∃ b₁, (freeLock id name).perform b = (.ok (), b₁) ∧
      b₁.holders = Function.update b.holders name (holding id depth) := by
  rcases hfree : b.locks.free? name id with _ | room
  · exact absurd rfl (LockRoom.free?_eq_none_iff.1 hfree _ h)
  refine ⟨{ b with locks := room }, by simp only [freeLock, Act.perform_make, hfree], ?_⟩
  obtain ⟨table, isFree, htable, hroom⟩ := LockRoom.free?_eq_some hfree
  have hholders : holders { b with locks := room } = table.holder? := by
    rw [holders, hroom]
    split <;> rfl
  rw [hholders]
  obtain ⟨held, hheld, hcases⟩ := LockTable.free?_eq_some htable
  obtain rfl : depth + 1 = held := (Hold.mk.inj (Option.some.inj (h.symm.trans hheld))).2
  -- It is freed if it was held once, and held once less if it was held more often.
  rcases hcases with ⟨-, hlast, rfl⟩ | ⟨-, hmore, rfl⟩
  · obtain rfl : depth = 0 := by omega
    exact holders_erase _
  · obtain ⟨n, rfl⟩ : ∃ n, depth = n + 1 := ⟨depth - 1, by omega⟩
    exact holders_insert ..

/-- A lock that no other connection holds is one that this connection holds so many times. -/
theorem exists_holding (hroom : LockRoom.Reachable b.locks)
    (hown : ∀ hold, b.holders name = some hold → hold.owner = id) :
    ∃ depth, b.holders name = holding id depth := by
  obtain ⟨moves, hmoves⟩ := LockRoom.reachable_iff.1 hroom
  rcases hholder : b.holders name with _ | hold
  · exact ⟨0, rfl⟩
  · have hpositive : 1 ≤ hold.depth :=
      (LockRun.isSound_of moves).positive name hold (hmoves ▸ hholder)
    obtain ⟨owner, depth⟩ := hold
    obtain rfl : owner = id := hown _ hholder
    obtain ⟨n, rfl⟩ := Nat.exists_eq_add_of_le' hpositive
    exact ⟨n + 1, rfl⟩

/-! ### Nothing else touches the locks -/

/-- No call of a connection touches the locks but those that take or release one. -/
structure SparesLocks (c : Connection (Backend d)) : Prop where
  begin : c.begin.Moves Eq holders
  commit : c.commit.Moves Eq holders
  rollback : c.rollback.Moves Eq holders
  execute : ∀ sql params, (c.execute sql params).Moves Eq holders
  select : ∀ sql params, (c.select sql params).Moves Eq holders
  lastInsertId : c.lastInsertId.Moves Eq holders
  lockTables : ∀ names, (c.lockTables names).Moves Eq holders
  unlockTables : c.unlockTables.Moves Eq holders

theorem holders_untouched : Untouched (holders : Backend d → String → Option Hold) :=
  ⟨fun _ _ => rfl, fun _ _ _ => rfl⟩

theorem connection_sparesLocks (id : ConnectionId) : SparesLocks (d := d) (connection id) where
  begin := holders_untouched.runControl
  commit := holders_untouched.runControl
  rollback := holders_untouched.runControl
  execute _ _ := holders_untouched.through
  select _ _ := holders_untouched.select
  lastInsertId := holders_untouched.through
  lockTables _ := holders_untouched.lockTables
  unlockTables := holders_untouched.unlockTables

/-! ### One call -/

/-- A call under a lock takes it, releases it after its body, leaves all locks with the holders that
    they had before, and returns what its body returns. -/
def GivesBack (t : TableStore (Backend d)) (name : String) (body : Act (Backend d) α)
    (b : Backend d) : Prop :=
  ∃ b₁ r b₂ b₃, (t.connection.takeLock name).perform b = (.ok (), b₁) ∧
    body.perform b₁ = (r, b₂) ∧ (t.connection.freeLock name).perform b₂ = (.ok (), b₃) ∧
    (t.underLock name body).perform b = (r, b₃) ∧ b₃.holders = b.holders

theorem perform_underLock {σ : Type} {t : TableStore σ} {body : Act σ α} {s s₁ s₂ s₃ : σ}
    {r : Except StoreError α} (htake : (t.connection.takeLock name).perform s = (.ok (), s₁))
    (hbody : body.perform s₁ = (r, s₂))
    (hfree : (t.connection.freeLock name).perform s₂ = (.ok (), s₃)) :
    (t.underLock name body).perform s = (r, s₃) := by
  simp only [TableStore.underLock, Act.perform_bind, htake, Act.attempt, Act.perform_make, hbody,
    hfree]
  cases r <;> rfl

/-- A call gives back its lock if its body leaves all locks as they are. -/
theorem underLock_givesBack {t : TableStore (Backend d)} (ht : t.connection = connection id)
    {body : Act (Backend d) α} (hheld : b.holders name = holding id depth)
    (hbody : ∀ b₁, (t.connection.takeLock name).perform b = (.ok (), b₁) →
      (body.perform b₁).2.holders = b₁.holders) : GivesBack t name body b := by
  have htakeLock : t.connection.takeLock name = takeLock id name := by rw [ht]; rfl
  have hfreeLock : t.connection.freeLock name = freeLock id name := by rw [ht]; rfl
  obtain ⟨b₁, htake, hholders₁⟩ := takeLock_holding hheld
  rw [← htakeLock] at htake
  have hholders₂ : (body.perform b₁).2.holders =
      Function.update b.holders name (holding id (depth + 1)) := (hbody b₁ htake).trans hholders₁
  have hheld₂ : (body.perform b₁).2.holders name = holding id (depth + 1) := by
    rw [hholders₂, Function.update_self]
  obtain ⟨b₃, hfree, hholders₃⟩ := freeLock_holding hheld₂
  rw [← hfreeLock] at hfree
  refine ⟨b₁, _, _, b₃, htake, rfl, hfree, perform_underLock htake rfl hfree, ?_⟩
  rw [hholders₃, hholders₂, Function.update_idem, ← hheld, Function.update_eq_self]

/-! ### Programs of calls -/

/-- Work on a backend that takes named locks through one connection. It goes on with the result of
    each piece, which may be a success or an error. -/
inductive LockProgram (d : Driver) : Type → Type 1 where
  /-- Ends with a result. -/
  | done {α : Type} (r : Except StoreError α) : LockProgram d α
  /-- Does something that leaves all locks with their holders. -/
  | act {α β : Type} (f : Act (Backend d) β) (hspares : f.Moves Eq holders)
      (next : Except StoreError β → LockProgram d α) : LockProgram d α
  /-- Works under a lock that a store of the connection takes. -/
  | underLock {α β : Type} (compiler : QueryCompiler) (name : String) (body : LockProgram d β)
      (next : Except StoreError β → LockProgram d α) : LockProgram d α

namespace LockProgram

/-- What a program does through this connection. -/
def run (id : ConnectionId) {α : Type} : LockProgram d α → Act (Backend d) α
  | done r => Act.ofExcept r
  | act f _ next => do
    let r ← f.attempt
    (next r).run id
  | underLock compiler name body next => do
    let r ← ((TableStore.mk (connection id) compiler).underLock name (body.run id)).attempt
    (next r).run id

/-- The locks that a program asks for when it is run here. -/
def asked (id : ConnectionId) {α : Type} : LockProgram d α → Backend d → List String
  | done _, _ => []
  | act f _ next, b =>
    let (r, b') := f.perform b
    (next r).asked id b'
  | underLock compiler name body next, b =>
    let (r, b') := ((TableStore.mk (connection id) compiler).underLock name (body.run id)).perform b
    name :: body.asked id ((takeLock id name).perform b).2 ++ (next r).asked id b'

/-- Every call that a program makes when it is run here gives back its lock. -/
def CallsGiveBack (id : ConnectionId) {α : Type} : LockProgram d α → Backend d → Prop
  | done _, _ => True
  | act f _ next, b =>
    let (r, b') := f.perform b
    (next r).CallsGiveBack id b'
  | underLock compiler name body next, b =>
    let t : TableStore (Backend d) := ⟨connection id, compiler⟩
    let (r, b') := (t.underLock name (body.run id)).perform b
    GivesBack t name (body.run id) b ∧
      body.CallsGiveBack id ((takeLock id name).perform b).2 ∧ (next r).CallsGiveBack id b'

/-- What holds of one call holds of every one that a program makes, in its bodies too. -/
theorem run_givesBack {α : Type} (p : LockProgram d α) {b : Backend d}
    (hheld : ∀ name ∈ p.asked id b, ∃ depth, b.holders name = holding id depth) :
    ((p.run id).perform b).2.holders = b.holders ∧ p.CallsGiveBack id b := by
  induction p generalizing b with
  | done r => exact ⟨rfl, trivial⟩
  | act f hspares next ih =>
    have hsame : (f.perform b).2.holders = b.holders := (hspares b).symm
    obtain ⟨hkept, hcalls⟩ := ih (f.perform b).1 (b := (f.perform b).2) fun name hname =>
      hsame ▸ hheld name hname
    exact ⟨hkept.trans hsame, hcalls⟩
  | underLock compiler name body next ihBody ihNext =>
    rcases hresult : ((TableStore.mk (connection id) compiler).underLock name (body.run id)).perform b
      with ⟨r, b'⟩
    simp only [asked, hresult, List.cons_append, List.forall_mem_cons, List.forall_mem_append] at hheld
    obtain ⟨⟨depth, hdepth⟩, hbodyAsked, hnextAsked⟩ := hheld
    obtain ⟨b₁, htake, hholders₁⟩ := takeLock_holding hdepth
    rw [htake] at hbodyAsked
    -- The body may ask for the same lock again, which is held once more by then.
    obtain ⟨hbody, hbodyCalls⟩ := ihBody (b := b₁) fun other hother => by
      rw [hholders₁, Function.update_apply]
      split
      · exact ⟨depth + 1, rfl⟩
      · exact hbodyAsked other hother
    have hcall : GivesBack ⟨connection id, compiler⟩ name (body.run id) b := by
      refine underLock_givesBack rfl hdepth fun b' htake' => ?_
      obtain rfl : b₁ = b' := congrArg Prod.snd (htake.symm.trans htake')
      exact hbody
    have hsame : b'.holders = b.holders := by
      obtain ⟨_, _, _, b₃, -, -, -, hresult', hsame⟩ := hcall
      rw [hresult] at hresult'
      exact (congrArg (fun out => out.2.holders) hresult').trans hsame
    obtain ⟨hkept, hnextCalls⟩ := ihNext r (b := b') fun other hother =>
      hsame ▸ hnextAsked other hother
    refine ⟨?_, ?_⟩
    · simp only [run, Act.perform_bind, Act.attempt, Act.perform_make, hresult]
      exact hkept.trans hsame
    · simp only [CallsGiveBack, hresult, htake]
      exact ⟨hcall, hbodyCalls, hnextCalls⟩

/-- While no other connection holds the locks that a program asks for, it leaves all locks with the
    holders that they had before, each held as many times. At every level, every call gets its lock,
    releases it once without an error, and returns what its body returns. -/
theorem locks_given_back (id : ConnectionId) (p : LockProgram d α) (hroom : LockRoom.Reachable b.locks)
    (hown : ∀ name ∈ p.asked id b, ∀ hold, b.holders name = some hold → hold.owner = id) :
    ((p.run id).perform b).2.holders = b.holders ∧ p.CallsGiveBack id b :=
  run_givesBack p fun name hname => exists_holding hroom (hown name hname)

/-- A backend with two connections, of which the first one holds the lock of an import, and the other
    one that of a report. -/
def importing : Backend Simulation.driver :=
  { ofConfig Simulation.driver {} true with
    locks := (LockRun.of [.ask ⟨0, "import", .ofNumber 0⟩, .ask ⟨1, "report", .ofNumber 1⟩]).room
    handedOut := [⟨.ofNumber 0, { number := 0 }⟩, ⟨.ofNumber 1, { number := 1 }⟩]
    issued := [.ofNumber 0, .ofNumber 1] }

/-- Queries for items. -/
def items : QueryCompiler where
  table := "item"
  schema := ⟨[{ name := "id", isKey := true }]⟩

/-- An import within the import: it fails as there is no table yet, and something is exported in its
    place. -/
def importAgain : LockProgram Simulation.driver Nat :=
  .underLock items "import"
    (.underLock items "import"
      (.act ((connection (.ofNumber 0)).execute "DELETE FROM item" [])
        ((connection_sparesLocks (.ofNumber 0)).execute _ _) .done)
      fun _ => .underLock items "export" (.done (.ok 3)) .done)
    .done

/-- The lock of the import is held as often after it as before, although a part of it failed. -/
theorem importAgain_gives_back :
    LockRoom.Reachable importing.locks ∧
      importAgain.asked (.ofNumber 0) importing = ["import", "import", "export"] ∧
      (∀ name ∈ importAgain.asked (.ofNumber 0) importing, ∀ hold,
        importing.holders name = some hold → hold.owner = .ofNumber 0) ∧
      ((importAgain.run (.ofNumber 0)).perform importing).1 = .ok 3 ∧
      ((importAgain.run (.ofNumber 0)).perform importing).2.holders = importing.holders ∧
      importAgain.CallsGiveBack (.ofNumber 0) importing := by
  have hroom : LockRoom.Reachable importing.locks := LockRoom.reachable_iff.2 ⟨_, rfl⟩
  have hasked : importAgain.asked (.ofNumber 0) importing = ["import", "import", "export"] := by
    decide +kernel
  have hown : ∀ name ∈ importAgain.asked (.ofNumber 0) importing, ∀ hold,
      importing.holders name = some hold → hold.owner = .ofNumber 0 := by
    rw [hasked]
    decide +kernel
  exact ⟨hroom, hasked, hown, by decide +kernel, locks_given_back _ _ hroom hown⟩

end LockProgram

end RecordStore.Backend
