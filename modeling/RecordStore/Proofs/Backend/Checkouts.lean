import RecordStore.Proofs.Backend.Roster
import RecordStore.Proofs.Backend.Waiting
import RecordStore.Simulation.Driver

/-!
# Connections start clean

Whoever is handed a connection of a backend has no part in what its last user left behind: there is
no transaction open, and no lock is held by, or in the name of, somebody who is gone. This is so with
any driver that hands out connections again as they were returned, and whose rollback succeeds
inside a transaction. All other calls may fail at any time.

All that may happen to a backend is an *event*: a checkout, a call, whether it succeeds or fails, a
request that looks at its lock, now or again, or a drop. Of the locks it is enough to know at any
time that they are held, and waited for, by connections that are handed out (`LockRoom.IsOwnedBy`).
A connection that was dropped can be used no more, and none is dropped in the middle of a call that
waits: such events cannot occur.
-/

namespace RecordStore.Backend

/-! ### Whose locks they are -/

namespace LockRoom

/-- Every lock is held, and every request made, by one of these connections. -/
structure IsOwnedBy (room : LockRoom) (ids : List ConnectionId) : Prop where
  single : room.table.IsSingle
  holders : ∀ name hold, room.table.holder? name = some hold → hold.owner ∈ ids
  waiting : ∀ q, 0 < room.waiting q → q.owner ∈ ids

variable {room : LockRoom} {ids : List ConnectionId}

theorem IsOwnedBy.mono {ids' : List ConnectionId} (h : room.IsOwnedBy ids) (hsub : ids ⊆ ids') :
    room.IsOwnedBy ids' :=
  ⟨h.single, fun name hold hhold => hsub (h.holders name hold hhold),
    fun q hq => hsub (h.waiting q hq)⟩

theorem waiting_pos_iff {q : LockRequest} : 0 < room.waiting q ↔ q ∈ room.asleep ++ room.awake := by
  rw [waiting, ← List.count_append, List.count_pos_iff]

/-- A request that gets its lock is one of these connections', and so is every request that comes to
    wait. -/
theorem IsOwnedBy.move (h : room.IsOwnedBy ids) (move : LockMove)
    (hadmits : room.admits move = true) (hasks : ∀ q, move = .ask q → q.owner ∈ ids) :
    (room.move move).1.IsOwnedBy ids := by
  have htakes : ∀ name owner, (room.moment move).takes name owner = true → owner ∈ ids := by
    intro name owner htakes
    rcases hmove : move with q | q | _ | _ <;> simp [Moment.takes, moment, hmove] at htakes
    · exact htakes.2 ▸ hasks q hmove
    · have hawake : q ∈ room.awake := by simpa [admits, hmove] using hadmits
      exact htakes.2 ▸ h.waiting q (waiting_pos_iff.2 (List.mem_append_right _ hawake))
  refine ⟨move_isSingle h.single move, fun name hold hhold => ?_, fun q hq => ?_⟩
  · have hchanges := move_changes h.single move name
    have hheld := h.holders name
    rw [hhold] at hchanges
    generalize room.table.holder? name = holder at hchanges hheld
    cases hchanges with
    | taken htaken | takenAgain htaken => exact htakes name _ htaken
    | @released owner depth => exact hheld ⟨owner, depth⟩ rfl
    | kept => exact hheld hold rfl
  · by_cases hbefore : 0 < room.waiting q
    · exact h.waiting q hbefore
    · -- It begins to wait with this move, so it asks now.
      have hmove := room.waiting_move hadmits q
      have hdelays : (room.moment move).delays q = true := by
        by_contra hnot
        simp only [Bool.not_eq_true] at hnot
        simp only [hnot, Bool.toNat_false] at hmove
        omega
      simp only [Moment.delays, Bool.and_eq_true, decide_eq_true_eq] at hdelays
      exact hasks q hdelays.1

/-- A connection that is dropped, and has no request that waits, leaves the locks to the others. -/
theorem IsOwnedBy.drop (h : room.IsOwnedBy ids) {id : ConnectionId}
    (hidle : ∀ q ∈ room.asleep ++ room.awake, q.owner ≠ id) :
    (room.giveBackAll id).IsOwnedBy (ids.filter (· ≠ id)) := by
  have hadmits : room.admits (.drop id) = true := rfl
  have hmoved : (room.giveBackAll id).IsOwnedBy ids :=
    h.move (.drop id) hadmits fun _ hask => LockMove.noConfusion hask
  refine ⟨hmoved.single, fun name hold hhold => ?_, fun q hq => ?_⟩
  · have hother : hold.owner ≠ id := by
      rw [table_giveBackAll, h.single.holder?_giveBackAll] at hhold
      simpa using (Option.filter_eq_some_iff.1 hhold).2
    exact List.mem_filter.2 ⟨hmoved.holders name hold hhold, by simpa using hother⟩
  · have hsame : (room.giveBackAll id).waiting q = room.waiting q := by
      simpa [Moment.serves, Moment.delays, moment, LockRoom.move] using room.waiting_move hadmits q
    rw [hsame] at hq
    exact List.mem_filter.2 ⟨h.waiting q hq, by simpa using hidle q (waiting_pos_iff.1 hq)⟩

end LockRoom

/-! ### Events -/

/-- A call of a connection. -/
inductive Call where
  | begin
  | commit
  | rollback
  | batch (sql : String)
  | execute (sql : String) (params : List Param)
  | select (sql : String) (params : List Param)
  | lastInsertId
  | takeLock (name : String)
  | freeLock (name : String)
  | lockTables (names : List String)
  | unlockTables
  deriving DecidableEq

/-- What may happen to a backend. -/
inductive Event where
  | checkout
  /-- A call. If it takes a lock that another connection holds, it is refused. -/
  | call (id : ConnectionId) (call : Call)
  /-- A call that takes a lock, and waits if another connection holds it. -/
  | ask (q : LockRequest)
  /-- A call that waited looks at its lock again. -/
  | again (q : LockRequest)
  | drop (id : ConnectionId)
  deriving DecidableEq

section Events

variable {d : Driver} {b : Backend d} {id : ConnectionId}

/-- The backend after a call, whether it succeeds or fails. -/
def Call.after (id : ConnectionId) (b : Backend d) : Call → Backend d
  | begin => ((connection id).begin.perform b).2
  | commit => ((connection id).commit.perform b).2
  | rollback => ((connection id).rollback.perform b).2
  | batch sql => ((executeBatch id sql).perform b).2
  | execute sql params => (((connection id).execute sql params).perform b).2
  | select sql params => (((connection id).select sql params).perform b).2
  | lastInsertId => ((connection id).lastInsertId.perform b).2
  | takeLock name => (((connection id).takeLock name).perform b).2
  | freeLock name => (((connection id).freeLock name).perform b).2
  | lockTables names => (((connection id).lockTables names).perform b).2
  | unlockTables => ((connection id).unlockTables.perform b).2

/-- Whether an event can occur. Only a connection that is handed out can be called or dropped, and
    dropped only while no call of it waits. -/
def admits (b : Backend d) : Event → Bool
  | .checkout => true
  | .call id _ => b.ids.contains id
  | .ask q => b.ids.contains q.owner
  | .again q => b.locks.awake.contains q
  | .drop id => b.ids.contains id && (b.locks.asleep ++ b.locks.awake).all (·.owner ≠ id)

/-- The backend after an event. -/
def occur (b : Backend d) : Event → Backend d
  | .checkout => (checkout.perform b).2
  | .call id call => call.after id b
  | .ask q => { b with locks := (b.locks.look q).1 }
  | .again q => { b with locks := (b.locks.lookAgain q).1 }
  | .drop id => ((drop id).perform b).2

/-- The backend after an event, if that can occur. -/
def advance (b : Backend d) (e : Event) : Backend d := if b.admits e then b.occur e else b

/-- A new backend after these events, of which those are left out that cannot occur. -/
def after (d : Driver) (config : Config) (inMemory : Bool) (events : List Event) : Backend d :=
  events.foldl advance (ofConfig d config inMemory)

theorem admits_drop :
    b.admits (.drop id) = true ↔
      id ∈ b.ids ∧ ∀ q ∈ b.locks.asleep ++ b.locks.awake, q.owner ≠ id := by
  simp [admits, or_imp, forall_and]

/-- What a backend has that calls through the driver leave alone. -/
def holdings (b : Backend d) : d.Pool × List ConnectionId × List ConnectionId × LockRoom :=
  (b.pool, b.ids, b.issued, b.locks)

theorem holdings_untouched : Untouched (holdings : Backend d → _) where
  world _ _ := rfl
  setConn b id conn := by rw [holdings, ids_setConn]; rfl

/-- A call leaves all of this alone, or it makes one move with the locks, and asks for one only in
    the name of its own connection. -/
theorem call_cases (b : Backend d) (id : ConnectionId) (call : Call) :
    (call.after id b).holdings = b.holdings ∨
      ∃ move, b.locks.admits move = true ∧ (∀ q, move = .ask q → q.owner = id) ∧
        call.after id b = { b with locks := (b.locks.move move).1 } := by
  have h : Untouched (holdings : Backend d → _) := holdings_untouched
  cases call with
  | begin | commit | rollback => exact .inl (h.runControl b).symm
  | batch sql => exact .inl (h.through b).symm
  | execute sql params => exact .inl (h.through b).symm
  | select sql params => exact .inl (h.select b).symm
  | lastInsertId => exact .inl (h.through b).symm
  | lockTables names => exact .inl (h.lockTables b).symm
  | unlockTables => exact .inl (h.unlockTables b).symm
  | takeLock name =>
    simp only [Call.after, connection, Backend.takeLock, Act.perform_make]
    rcases htake : b.locks.table.take? name id with _ | table
    · exact .inl rfl
    · exact .inr ⟨.ask ⟨0, name, id⟩, rfl, fun q hq => by cases hq; rfl, by
        simp [LockRoom.move, LockRoom.look, htake]⟩
  | freeLock name =>
    refine .inr ⟨.release name id, rfl, fun q hq => LockMove.noConfusion hq, ?_⟩
    simp only [Call.after, connection, Backend.freeLock, Act.perform_make, LockRoom.move]
    split
    · next room hfree => simp [hfree]
    · next hfree => simp [hfree]

/-- A drop takes back a connection that is handed out. -/
theorem perform_drop (hmem : id ∈ b.ids) :
    ∃ c ∈ b.handedOut, c.id = id ∧ ((drop id).perform b).2 = b.giveBack c := by
  have hsome : (b.handedOut.find? (·.id = id)).isSome := by
    simpa [List.find?_isSome, ids] using hmem
  obtain ⟨c, hfind⟩ := Option.isSome_iff_exists.1 hsome
  exact ⟨c, List.mem_of_find?_eq_some hfind, by simpa using List.find?_some hfind, by
    simp [drop, hfind]⟩

theorem occur_turnover {e : Event} (hadmits : b.admits e = true) : Turnover b (b.occur e) := by
  cases e with
  | checkout => exact checkout_turnover b
  | call id call =>
    rcases call_cases b id call with hsame | ⟨move, -, -, hmoved⟩
    · simp only [holdings, Prod.mk.injEq] at hsame
      exact .keeps hsame.2.1 hsame.2.2.1
    · rw [occur, hmoved]
      exact .keeps rfl rfl
  | ask | again => exact .keeps rfl rfl
  | drop id =>
    obtain ⟨c, -, -, hdrop⟩ := perform_drop (admits_drop.1 hadmits).1
    rw [occur, hdrop]
    exact .takesBack c.id (ids_giveBack b c) rfl

theorem advance_turnover (b : Backend d) (e : Event) : Turnover b (b.advance e) := by
  rw [advance]
  split
  · next hadmits => exact occur_turnover hadmits
  · exact .keeps rfl rfl

/-! ### What holds at any time -/

variable {idle : d.Pool → List d.Conn}

/-- No transaction is open in a connection of the pool, identities that are in use were given, and
    all locks belong to connections that are handed out. -/
structure IsSound (idle : d.Pool → List d.Conn) (b : Backend d) : Prop where
  clean : b.IsClean idle
  issued : b.ids ⊆ b.issued
  locks : b.locks.IsOwnedBy b.ids

theorem IsSound.occur (hpool : d.LendsAsReturned idle) (hrollback : d.RollsBack)
    (h : b.IsSound idle) {e : Event} (hadmits : b.admits e = true) : (b.occur e).IsSound idle := by
  suffices hrest : (b.occur e).IsClean idle ∧ (b.occur e).locks.IsOwnedBy (b.occur e).ids from
    ⟨hrest.1, (occur_turnover hadmits).ids_subset_issued h.issued, hrest.2⟩
  cases e with
  | checkout =>
    refine ⟨checkout_isClean hpool h.clean, ?_⟩
    rw [Backend.occur, locks_checkout]
    exact h.locks.mono (ids_subset_checkout b)
  | call id call =>
    rcases call_cases b id call with hsame | ⟨move, hmove, hasks, hmoved⟩
    · simp only [holdings, Prod.mk.injEq] at hsame
      obtain ⟨hsamePool, hids, -, hlocks⟩ := hsame
      rw [Backend.occur, IsClean, hsamePool, hids, hlocks]
      exact ⟨h.clean, h.locks⟩
    · rw [Backend.occur, hmoved]
      refine ⟨h.clean, h.locks.move move hmove fun q hq => ?_⟩
      -- It is called, so it is handed out, and may ask for a lock.
      rw [hasks q hq]
      simpa [admits] using hadmits
  | ask q =>
    refine ⟨h.clean, h.locks.move (.ask q) rfl fun q' hq' => ?_⟩
    cases hq'
    simpa [admits] using hadmits
  | again q =>
    exact ⟨h.clean, h.locks.move (.again q) hadmits fun _ hask => LockMove.noConfusion hask⟩
  | drop id =>
    obtain ⟨hmem, hidle⟩ := admits_drop.1 hadmits
    obtain ⟨c, -, rfl, hdrop⟩ := perform_drop hmem
    rw [Backend.occur, hdrop, locks_giveBack, ids_giveBack]
    exact ⟨giveBack_isClean hpool hrollback h.clean c, h.locks.drop hidle⟩

/-- What every event keeps is kept by any number of them. -/
theorem advance_keeps {P : Backend d → Prop} (hstep : ∀ b e, P b → P (b.advance e)) (hb : P b)
    (events : List Event) : P (events.foldl advance b) := by
  induction events generalizing b with
  | nil => exact hb
  | cons e rest ih => exact ih (hstep b e hb)

theorem ofConfig_isSound (hpool : d.LendsAsReturned idle) (config : Config) (inMemory : Bool) :
    (ofConfig d config inMemory).IsSound idle :=
  ⟨ofConfig_isClean hpool config inMemory, List.nil_subset _, .nil, nofun, nofun⟩

theorem after_isSound (hpool : d.LendsAsReturned idle) (hrollback : d.RollsBack) (config : Config)
    (inMemory : Bool) (events : List Event) : (after d config inMemory events).IsSound idle := by
  refine advance_keeps (fun b e h => ?_) (ofConfig_isSound hpool config inMemory) events
  rw [advance]
  split
  · next hadmits => exact h.occur hpool hrollback hadmits
  · exact h

/-- Nobody else is given the identity of a connection that was dropped, while there are others. -/
theorem after_isRetired {config : Config} {inMemory : Bool} {earlier later : List Event}
    (hsound : (after d config inMemory earlier).IsSound idle)
    (hdrop : (after d config inMemory earlier).admits (.drop id) = true) :
    (after d config inMemory (earlier ++ .drop id :: later)).IsRetired id := by
  -- It is retired by the drop, and every later event keeps it so.
  rw [after, List.foldl_append, List.foldl_cons]
  refine advance_keeps (P := fun b => b.IsRetired id)
    (fun b e h => (advance_turnover b e).isRetired h) ?_ later
  have hmem : id ∈ (after d config inMemory earlier).ids := (admits_drop.1 hdrop).1
  obtain ⟨c, -, rfl, hgiveBack⟩ := perform_drop hmem
  rw [← after, advance, if_pos hdrop, Backend.occur, hgiveBack]
  intro _
  rw [ids_giveBack]
  exact ⟨hsound.issued hmem, by simp⟩

/-- Suppose that the pool hands out connections again as they were returned, and that a rollback
    inside a transaction succeeds. Then, whatever has been done with a backend since it was new, and
    whatever else the driver does, a connection that is handed out starts outside a transaction, and
    every lock that is held belongs to a connection that is handed out. None belongs to one that was
    dropped, however long ago, unless the identities have run out. -/
theorem connections_start_clean (hpool : d.LendsAsReturned idle) (hrollback : d.RollsBack)
    (config : Config) (inMemory : Bool) (events : List Event) :
    let b := after d config inMemory events
    (∀ id b', checkout.perform b = (.ok id, b') →
      ∃ conn, b'.conn? id = some conn ∧ d.inTransaction conn = false) ∧
    (∀ name hold, b.locks.table.holder? name = some hold → hold.owner ∈ b.ids) ∧
    ∀ earlier id later, events = earlier ++ .drop id :: later →
      (after d config inMemory earlier).admits (.drop id) = true → b.issued.length ≤ 2 ^ 128 →
      ∀ name hold, b.locks.table.holder? name = some hold → hold.owner ≠ id := by
  have hsound := after_isSound hpool hrollback config inMemory
  refine ⟨fun id b' hout => checkout_starts_clean hpool (hsound events).clean hout,
    (hsound events).locks.holders, ?_⟩
  rintro earlier id later rfl hdrop hlength name hold hhold rfl
  exact (after_isRetired (hsound earlier) hdrop hlength).2 ((hsound _).locks.holders name hold hhold)

end Events

/-- A connection takes a lock, begins a transaction, writes in it and is dropped while another one
    waits for the lock. -/
def abandoned : List Event :=
  let (a, b) := (ConnectionId.ofNumber 0, ConnectionId.ofNumber 1)
  [.checkout, .checkout, .ask ⟨0, "import", a⟩, .ask ⟨1, "import", b⟩, .call a .begin,
    .call a (.execute "INSERT INTO note (body) VALUES (?1)" [.text "x"]), .drop a,
    .again ⟨1, "import", b⟩]

/-- With the simulated driver, the connection that was dropped inside its transaction is the next to
    be handed out, and has no transaction open. The lock is with the one that waited for it. -/
theorem abandoned_starts_clean :
    let b := after Simulation.driver {} true abandoned
    inTransaction (.ofNumber 0) (after Simulation.driver {} true (abandoned.take 6)) = true ∧
      b.pool.map (·.number) = [0] ∧
      (∃ b' conn, checkout.perform b = (.ok (.ofNumber 2), b') ∧
        b'.conn? (.ofNumber 2) = some conn ∧ conn.number = 0 ∧ conn.isOpen = false) ∧
      b.locks.table.holder? "import" = some ⟨.ofNumber 1, 1⟩ ∧
      ∀ name hold, b.locks.table.holder? name = some hold → hold.owner ≠ .ofNumber 0 := by
  obtain ⟨hclean, -, hgone⟩ := connections_start_clean Simulation.lendsAsReturned
    Simulation.rollsBack {} true abandoned
  have hout : checkout.perform (after Simulation.driver {} true abandoned) =
      (.ok (.ofNumber 2), (checkout.perform (after Simulation.driver {} true abandoned)).2) :=
    Prod.ext (by decide +kernel) rfl
  obtain ⟨conn, hconn, hclosed⟩ := hclean _ _ hout
  have hnumber : ((checkout.perform (after Simulation.driver {} true abandoned)).2.conn?
      (.ofNumber 2)).map (·.number) = some 0 := by decide +kernel
  rw [hconn] at hnumber
  refine ⟨by decide +kernel, by decide +kernel,
    ⟨_, conn, hout, hconn, Option.some.inj hnumber, hclosed⟩, by decide +kernel, ?_⟩
  exact hgone (abandoned.take 6) (.ofNumber 0) (abandoned.drop 7) rfl (by decide +kernel)
    (by decide +kernel)

end RecordStore.Backend
