import RecordStore.Proofs.Backend.LockHistory

/-!
# Nobody sleeps beside a free lock

All requests that sleep, whatever lock they wait for, are woken up together: by a release that frees
a lock, and by a drop that frees any. A request that is awake looks again at some later time, and
until then its lock may be taken, released and taken again by others.

It is not enough that a lock wakes up those who sleep when it becomes free: a request must not fall
asleep after that. It does so only while another connection holds its lock, and this stays so until
it is woken up, since a lock passes to nobody without having been free. So *every sleeper waits for
another one* (`LockRoom.IsGuarded`), in every state (`LockRun.sleepers_wait_for_others`).

A lost wake-up would be a request that is neither asleep nor awake and has not got its lock either.
There is none: the requests that had to wait and have not been served are those that are asleep and
those that are awake, each as often as it was made.
-/

namespace RecordStore.Backend

namespace Moment

/-- Whether this request has to wait when it first looks at its lock. -/
def delays (m : Moment) (q : LockRequest) : Bool := m.move = .ask q && !m.isDone

/-- Whether this request gets its lock after it had to wait. -/
def serves (m : Moment) (q : LockRequest) : Bool := m.move = .again q && m.isDone

end Moment

namespace LockRoom

/-- Every request that sleeps waits for a lock that another connection holds. -/
def IsGuarded (room : LockRoom) : Prop :=
  ∀ q ∈ room.asleep, ∃ hold, room.table.holder? q.name = some hold ∧ hold.owner ≠ q.owner

variable {room : LockRoom}

theorem wakeAll_isGuarded (room : LockRoom) : room.wakeAll.IsGuarded := by
  simp [IsGuarded, wakeAll]

/-- A connection that takes a lock leaves those who sleep beside it: it holds the lock already, or
    nobody waits for it. -/
theorem IsGuarded.take {table : LockTable} {name : String} {owner : ConnectionId}
    (h : room.IsGuarded) (htake : room.table.take? name owner = some table) :
    IsGuarded { room with table } := by
  intro q hq
  obtain ⟨hold, hhold, hother⟩ := h q hq
  rcases LockTable.take?_eq_some htake with ⟨hnone, rfl⟩ | ⟨depth, hheld, rfl⟩ <;>
    by_cases hname : q.name = name
  · rw [hname, hnone] at hhold
    cases hhold
  · exact ⟨hold, by simpa [hname] using hhold, hother⟩
  · rw [hname, hheld] at hhold
    cases hhold
    exact ⟨⟨owner, depth + 1⟩, by simp [hname], hother⟩
  · exact ⟨hold, by simpa [hname] using hhold, hother⟩

theorem IsGuarded.look (h : room.IsGuarded) (q : LockRequest) : (room.look q).1.IsGuarded := by
  rcases room.look_cases q with ⟨table, htake, hlook⟩ | ⟨htake, hlook⟩ <;> rw [hlook]
  · exact h.take htake
  · -- It falls asleep because another connection holds its lock.
    have hother : ∃ hold, room.table.holder? q.name = some hold ∧ hold.owner ≠ q.owner := by
      have htaken := @LockTable.take?_isSome_iff room.table q.name q.owner
      rw [htake] at htaken
      simpa using htaken
    intro q' hq'
    rcases List.mem_append.1 hq' with hq' | hq'
    · exact h q' hq'
    · rwa [List.mem_singleton.1 hq']

/-- A release that does not free the lock leaves its holder, and one that does wakes up all. -/
theorem IsGuarded.free {room' : LockRoom} {name : String} {owner : ConnectionId}
    (h : room.IsGuarded) (hfree : room.free? name owner = some room') : room'.IsGuarded := by
  obtain ⟨table, isFree, htable, rfl⟩ := free?_eq_some hfree
  obtain ⟨depth, hheld, ⟨rfl, -, -⟩ | ⟨rfl, -, rfl⟩⟩ := LockTable.free?_eq_some htable
  · exact wakeAll_isGuarded _
  · intro q hq
    obtain ⟨hold, hhold, hother⟩ := h q hq
    by_cases hname : q.name = name
    · rw [hname, hheld] at hhold
      cases hhold
      exact ⟨⟨owner, depth - 1⟩, by simp [hname], hother⟩
    · exact ⟨hold, by simpa [hname] using hhold, hother⟩

/-- A drop that frees no lock changes none, and one that frees any wakes up all. -/
theorem IsGuarded.giveBackAll (h : room.IsGuarded) (owner : ConnectionId) :
    (room.giveBackAll owner).IsGuarded := by
  by_cases hfreed : (room.table.giveBackAll owner).2 = true
  · simp only [LockRoom.giveBackAll, hfreed, if_true]
    exact wakeAll_isGuarded _
  · have hlength : (room.table.held.filter (·.2.owner ≠ owner)).length = room.table.held.length := by
      simpa [LockTable.giveBackAll] using hfreed
    have hsame : (room.table.giveBackAll owner).1 = room.table :=
      congrArg LockTable.mk (List.filter_sublist.eq_of_length hlength)
    simp only [LockRoom.giveBackAll, hfreed, hsame]
    exact h

/-- Whatever is done to the locks, every sleeper waits for another connection. -/
theorem IsGuarded.move (h : room.IsGuarded) (move : LockMove) : (room.move move).1.IsGuarded := by
  cases move with
  | ask q => exact h.look q
  | again q => exact @IsGuarded.look { room with awake := room.awake.erase q } h q
  | release name owner =>
    rcases hfree : room.free? name owner with _ | room' <;> simp only [LockRoom.move, hfree]
    · exact h
    · exact h.free hfree
  | drop owner => exact h.giveBackAll owner

/-! ### No request is lost -/

/-- How often a request waits, asleep or awake. -/
def waiting (room : LockRoom) (q : LockRequest) : Nat := room.asleep.count q + room.awake.count q

@[simp]
theorem waiting_wakeAll (room : LockRoom) (q : LockRequest) :
    room.wakeAll.waiting q = room.waiting q := by
  simp [waiting, wakeAll, Nat.add_comm]

theorem waiting_look (room : LockRoom) (q q' : LockRequest) :
    (room.look q).1.waiting q' =
      room.waiting q' + (decide (q = q') && !(room.look q).2).toNat := by
  rcases room.look_cases q with ⟨table, -, hlook⟩ | ⟨-, hlook⟩ <;> rw [hlook]
  · simp [waiting]
  · by_cases heq : q = q'
    · simp only [waiting, List.count_append, heq, List.count_singleton_self, decide_true,
        Bool.not_false, Bool.and_self, Bool.toNat_true]
      omega
    · simp [waiting, heq]

/-- A request that looks again waits no longer, or as before. -/
theorem waiting_lookAgain {q : LockRequest} (hawake : q ∈ room.awake) (q' : LockRequest) :
    (room.lookAgain q).1.waiting q' + (decide (q = q') && (room.lookAgain q).2).toNat =
      room.waiting q' := by
  have hlook := waiting_look { room with awake := room.awake.erase q } q q'
  have herase : (room.awake.erase q).count q' + (decide (q = q')).toNat = room.awake.count q' := by
    by_cases heq : q = q'
    · subst heq
      have hpositive := List.count_pos_iff.2 hawake
      simp only [List.count_erase_self, decide_true, Bool.toNat_true]
      omega
    · simp [List.count_erase_of_ne (Ne.symm heq), heq]
  rw [lookAgain, hlook]
  simp only [waiting] at herase ⊢
  rcases (look { room with awake := room.awake.erase q } q).2 <;> simp at herase ⊢ <;> omega

theorem waiting_move (room : LockRoom) {move : LockMove} (hadmits : room.admits move = true)
    (q : LockRequest) :
    (room.move move).1.waiting q + ((room.moment move).serves q).toNat =
      room.waiting q + ((room.moment move).delays q).toNat := by
  cases move with
  | ask q' => simp [Moment.serves, Moment.delays, moment, LockRoom.move, waiting_look]
  | again q' =>
    have hawake : q' ∈ room.awake := by simpa [admits] using hadmits
    simpa [Moment.serves, Moment.delays, moment, LockRoom.move] using waiting_lookAgain hawake q
  | release name owner =>
    rcases hfree : room.free? name owner with _ | room' <;>
      simp only [Moment.serves, Moment.delays, moment, LockRoom.move, hfree]
    · simp
    · obtain ⟨table, isFree, -, rfl⟩ := free?_eq_some hfree
      cases isFree <;> simp <;> rfl
  | drop owner =>
    have hsame : (room.giveBackAll owner).waiting q = room.waiting q := by
      simp only [LockRoom.giveBackAll]
      split
      · exact waiting_wakeAll _ q
      · rfl
    simp [Moment.serves, Moment.delays, moment, LockRoom.move, hsame]

end LockRoom

namespace LockRun

/-- In every state that connections can bring about, with any number of requests for any locks, every
    request that sleeps waits for a lock that another connection holds at that time. And none is
    lost: a request that had to wait is asleep or awake until it gets its lock. -/
theorem sleepers_wait_for_others (moves : List LockMove) :
    (∀ q ∈ (of moves).room.asleep, ∃ hold,
      (of moves).room.table.holder? q.name = some hold ∧ hold.owner ≠ q.owner) ∧
    ∀ q, (of moves).room.asleep.count q + (of moves).room.awake.count q +
      (of moves).moments.countP (·.serves q) = (of moves).moments.countP (·.delays q) := by
  refine of_induction (P := fun r => r.room.IsGuarded ∧ ∀ q, r.room.waiting q +
    r.moments.countP (·.serves q) = r.moments.countP (·.delays q)) ?_ ?_ moves
  · exact ⟨by simp [LockRoom.IsGuarded], by simp [LockRoom.waiting]⟩
  · rintro r move hadmits ⟨hguarded, hwaiting⟩
    refine ⟨hguarded.move move, fun q => ?_⟩
    have hmove := r.room.waiting_move hadmits q
    have hrun := hwaiting q
    simp only [List.countP_append, List.countP_singleton]
    rcases hserves : (r.room.moment move).serves q <;>
      rcases hdelays : (r.room.moment move).delays q <;> simp [hserves, hdelays] at hmove ⊢ <;> omega

/-- Two connections ask for a lock that a third one holds. When it is released both are woken up, and
    the second one gets it while the first one falls asleep again. A fourth one asks for another lock
    that is taken. -/
def contention : List LockMove :=
  let (a, b, c) := (ConnectionId.ofNumber 0, ConnectionId.ofNumber 1, ConnectionId.ofNumber 2)
  [.ask ⟨0, "import", a⟩, .ask ⟨1, "import", b⟩, .ask ⟨2, "import", c⟩, .release "import" a,
    .again ⟨2, "import", c⟩, .again ⟨1, "import", b⟩, .ask ⟨3, "export", c⟩, .ask ⟨4, "export", a⟩]

example : (of contention).room.asleep =
    [⟨1, "import", .ofNumber 1⟩, ⟨4, "export", .ofNumber 0⟩] := by decide +kernel

end LockRun

end RecordStore.Backend
