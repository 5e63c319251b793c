import Mathlib.Data.List.Induction
import RecordStore.Backend.Basic

/-!
# The history of locks

What happens to the locks of a backend is a sequence of *moves* (`LockMove`), each of which is one
critical section: a request looks at its lock for the first time or again, a connection releases a
lock, or is dropped. Any number of connections make their moves in any order. A *run* (`LockRun.of`)
makes moves one by one, beginning with no lock held, and leaves out those that cannot be made; it
keeps its *moments*, each with the room before and after it. The rooms of runs are those that can be
reached (`LockRoom.reachable_iff`).

All that is said of a lock follows from what one moment does to its holder (`Moment.Changes`): a lock
that is free is taken, its holder takes it once more, releases it once, frees it, or is dropped, or
nothing happens to it.

* A lock has another holder only after it was free, and its depth counts what its holder took and
  released since then (`LockRun.HeldSince`).
* A release by another connection is refused, and one that is dropped gives back all it holds and
  nothing else (`LockRun.locks_pass_when_free`).
-/

namespace RecordStore.Backend

/-! ### Lock tables -/

namespace LockTable

/-- Each name is held once. -/
def IsSingle (t : LockTable) : Prop := (t.held.map (·.1)).Nodup

theorem lookup_filter_ne (held : List (String × Hold)) (name other : String) :
    (held.filter (·.1 ≠ name)).lookup other =
      if other = name then none else held.lookup other := by
  induction held with
  | nil => simp
  | cons p rest ih => grind

variable (t : LockTable) (name other : String) (owner : ConnectionId) (h : Hold)

@[simp]
theorem holder?_erase :
    (t.erase name).holder? other = if other = name then none else t.holder? other :=
  lookup_filter_ne t.held name other

@[simp]
theorem holder?_insert :
    (t.insert name h).holder? other = if other = name then some h else t.holder? other := by
  by_cases heq : other = name
  · simp [insert, holder?, heq]
  · have hne : (other == name) = false := by simpa using heq
    have herase := holder?_erase t name other
    rw [if_neg heq] at herase ⊢
    rw [← herase, holder?, insert, List.lookup_cons, hne, holder?]

variable {t name other owner h}

theorem IsSingle.erase (ht : t.IsSingle) : (t.erase name).IsSingle :=
  List.Nodup.sublist (List.filter_sublist.map _) ht

theorem IsSingle.insert (ht : t.IsSingle) : (t.insert name h).IsSingle := by
  refine List.nodup_cons.2 ⟨fun hmem => ?_, ht.erase⟩
  obtain ⟨p, hp, heq⟩ := List.mem_map.1 hmem
  simp [LockTable.erase, heq] at hp

theorem IsSingle.giveBackAll (ht : t.IsSingle) : (t.giveBackAll owner).1.IsSingle :=
  List.Nodup.sublist (List.filter_sublist.map _) ht

/-- A connection gives back the locks that it holds and no other. -/
theorem IsSingle.holder?_giveBackAll (ht : t.IsSingle) :
    (t.giveBackAll owner).1.holder? name = (t.holder? name).filter (·.owner ≠ owner) := by
  obtain ⟨held⟩ := t
  simp only [LockTable.giveBackAll, holder?, IsSingle] at ht ⊢
  induction held with
  | nil => rfl
  | cons p rest ih =>
    obtain ⟨key, hold⟩ := p
    rw [List.map_cons, List.nodup_cons] at ht
    -- The name of the first entry is not among the others, which is all that a filter could uncover.
    have hnone : name = key → rest.lookup name = none := by
      rintro rfl
      exact List.lookup_eq_none_iff.2 fun q hq => by
        simpa using fun heq => ht.1 (List.mem_map.2 ⟨q, hq, heq.symm⟩)
    grind

/-- What a connection takes is free or its own. -/
theorem take?_eq_some {t' : LockTable} (h : t.take? name owner = some t') :
    t.holder? name = none ∧ t' = t.insert name ⟨owner, 1⟩ ∨
      ∃ depth, t.holder? name = some ⟨owner, depth⟩ ∧ t' = t.insert name ⟨owner, depth + 1⟩ := by
  rw [take?] at h
  split at h
  · next hnone => exact .inl ⟨hnone, (Option.some.inj h).symm⟩
  · next hold hhold =>
    split at h
    · next heq => exact .inr ⟨hold.depth, by rw [hhold, ← heq], (Option.some.inj h).symm⟩
    · cases h

theorem take?_isSome_iff :
    (t.take? name owner).isSome ↔ ∀ hold, t.holder? name = some hold → hold.owner = owner := by
  rw [take?]
  split
  · next hnone => simp [hnone]
  · next hold hhold => by_cases heq : hold.owner = owner <;> simp [hhold, heq]

/-- What a connection releases is its own; it is free after that if it was taken once. -/
theorem free?_eq_some {t' : LockTable} {isFree : Bool}
    (h : t.free? name owner = some (t', isFree)) :
    ∃ depth, t.holder? name = some ⟨owner, depth⟩ ∧
      (isFree = true ∧ depth ≤ 1 ∧ t' = t.erase name ∨
        isFree = false ∧ 1 < depth ∧ t' = t.insert name ⟨owner, depth - 1⟩) := by
  rw [free?] at h
  split at h
  · next hold hhold =>
    split at h
    · cases h
    · next hown =>
      have howner : hold.owner = owner := not_not.1 hown
      refine ⟨hold.depth, by rw [hhold, ← howner], ?_⟩
      split at h
      · next hdepth =>
        cases h
        exact .inl ⟨rfl, hdepth, rfl⟩
      · next hdepth =>
        cases h
        exact .inr ⟨rfl, Nat.lt_of_not_le hdepth, rfl⟩
  · cases h

theorem free?_eq_none_iff :
    t.free? name owner = none ↔ ∀ hold, t.holder? name = some hold → hold.owner ≠ owner := by
  rw [free?]
  split
  · next hold hhold =>
    by_cases heq : hold.owner = owner <;> by_cases hdepth : hold.depth ≤ 1 <;>
      simp [hhold, heq, hdepth]
  · next hnone => simp [hnone]

end LockTable

/-! ### Moves -/

/-- What is done to the locks in one critical section. -/
inductive LockMove where
  /-- A request looks at its lock for the first time. -/
  | ask (q : LockRequest)
  /-- A request that was woken up looks at its lock again. -/
  | again (q : LockRequest)
  /-- A connection releases a lock once. -/
  | release (name : String) (owner : ConnectionId)
  /-- A connection is dropped. -/
  | drop (owner : ConnectionId)
  deriving DecidableEq

namespace LockRoom

/-- Whether a move can be made: only a request that is awake can look again. -/
def admits (room : LockRoom) : LockMove → Bool
  | .again q => room.awake.contains q
  | _ => true

/-- Makes a move, and says whether it came off. It does not if a request has to wait, or if a
    connection is to release what it does not hold. -/
def move (room : LockRoom) : LockMove → LockRoom × Bool
  | .ask q => room.look q
  | .again q => room.lookAgain q
  | .release name owner => ((room.free? name owner).getD room, (room.free? name owner).isSome)
  | .drop owner => (room.giveBackAll owner, true)

end LockRoom

/-- A move with the room before and after it, and whether it came off. -/
structure Moment where
  before : LockRoom
  move : LockMove
  after : LockRoom
  isDone : Bool

/-- The moment at which a move is made. -/
def LockRoom.moment (room : LockRoom) (move : LockMove) : Moment :=
  ⟨room, move, (room.move move).1, (room.move move).2⟩

namespace Moment

/-- Whether the connection gets this lock. -/
def takes (m : Moment) (name : String) (owner : ConnectionId) : Bool :=
  match m.move with
  | .ask q | .again q => m.isDone && q.name = name && q.owner = owner
  | _ => false

/-- Whether the connection releases this lock, and holds it. -/
def frees (m : Moment) (name : String) (owner : ConnectionId) : Bool :=
  m.isDone && m.move = .release name owner

/-- What a moment does to the holder of a lock. -/
inductive Changes (m : Moment) (name : String) : Option Hold → Option Hold → Prop
  | taken {owner : ConnectionId} : m.takes name owner = true →
    Changes m name none (some ⟨owner, 1⟩)
  | takenAgain {owner : ConnectionId} {depth : Nat} : m.takes name owner = true →
    Changes m name (some ⟨owner, depth⟩) (some ⟨owner, depth + 1⟩)
  | released {owner : ConnectionId} {depth : Nat} : m.frees name owner = true → 1 < depth →
    Changes m name (some ⟨owner, depth⟩) (some ⟨owner, depth - 1⟩)
  | freed {owner : ConnectionId} {depth : Nat} : m.frees name owner = true → depth ≤ 1 →
    Changes m name (some ⟨owner, depth⟩) none
  | dropped {owner : ConnectionId} {depth : Nat} : m.move = .drop owner →
    Changes m name (some ⟨owner, depth⟩) none
  | kept {holder : Option Hold} : (∀ owner, m.takes name owner = false) →
    (∀ owner, m.frees name owner = false) → (∀ h ∈ holder, m.move ≠ .drop h.owner) →
    Changes m name holder holder

theorem not_frees_of_takes {m : Moment} {name name' : String} {owner owner' : ConnectionId}
    (h : m.takes name owner = true) : m.frees name' owner' = false := by
  rcases hm : m.move with q | q | _ | _ <;> simp [takes, frees, hm] at h ⊢

theorem not_takes_of_frees {m : Moment} {name name' : String} {owner owner' : ConnectionId}
    (h : m.frees name owner = true) : m.takes name' owner' = false :=
  Bool.eq_false_iff.2 fun htakes => by simp [not_frees_of_takes htakes] at h

end Moment

namespace LockRoom

variable {room : LockRoom}

@[simp]
theorem table_giveBackAll (owner : ConnectionId) :
    (room.giveBackAll owner).table = (room.table.giveBackAll owner).1 := by
  simp only [giveBackAll]
  split <;> rfl

theorem free?_eq_none_iff {name : String} {owner : ConnectionId} :
    room.free? name owner = none ↔
      ∀ hold, room.table.holder? name = some hold → hold.owner ≠ owner := by
  rw [free?, Option.map_eq_none_iff, LockTable.free?_eq_none_iff]

/-- A release that comes off changes the table, and wakes up all who sleep if the lock is free. -/
theorem free?_eq_some {room' : LockRoom} {name : String} {owner : ConnectionId}
    (h : room.free? name owner = some room') :
    ∃ table isFree, room.table.free? name owner = some (table, isFree) ∧
      room' = if isFree then { room with table }.wakeAll else { room with table } := by
  obtain ⟨⟨table, isFree⟩, hfree, rfl⟩ := Option.map_eq_some_iff.1 h
  exact ⟨table, isFree, hfree, rfl⟩

/-- A request that looks takes its lock, or falls asleep. -/
theorem look_cases (room : LockRoom) (q : LockRequest) :
    (∃ table, room.table.take? q.name q.owner = some table ∧
      room.look q = ({ room with table }, true)) ∨
    room.table.take? q.name q.owner = none ∧
      room.look q = ({ room with asleep := room.asleep ++ [q] }, false) := by
  rw [look]
  rcases h : room.table.take? q.name q.owner with _ | table
  · exact .inr ⟨rfl, rfl⟩
  · exact .inl ⟨table, rfl, rfl⟩

theorem look_snd (room : LockRoom) (q : LockRequest) :
    (room.look q).2 = (room.table.take? q.name q.owner).isSome := by
  rcases room.look_cases q with ⟨table, htake, hlook⟩ | ⟨htake, hlook⟩ <;> rw [htake, hlook] <;> rfl

/-! ### What a move does to the holder of a lock -/

/-- A request changes the holder of no lock but its own, and only if it gets that. -/
theorem look_changes {q : LockRequest} {m : Moment} (hmove : m.move = .ask q ∨ m.move = .again q)
    (hdone : m.isDone = (room.look q).2) (name : String) :
    m.Changes name (room.table.holder? name) ((room.look q).1.table.holder? name) := by
  have htakes : ∀ owner, m.takes name owner =
      ((room.look q).2 && q.name = name && q.owner = owner) := by
    intro owner
    rcases hmove with hmove | hmove <;> simp [Moment.takes, hmove, hdone]
  have hkept : ∀ holder, (∀ owner, m.takes name owner = false) → m.Changes name holder holder :=
    fun holder hnot => .kept hnot (by rcases hmove with h | h <;> simp [Moment.frees, h])
      (by rcases hmove with h | h <;> simp [h])
  rcases room.look_cases q with ⟨table, htake, hlook⟩ | ⟨-, hlook⟩
  · rw [hlook] at htakes ⊢
    by_cases hname : q.name = name
    · subst hname
      have hgets : m.takes q.name q.owner = true := by simp [htakes]
      rcases LockTable.take?_eq_some htake with ⟨hnone, rfl⟩ | ⟨depth, hheld, rfl⟩
      · simpa [hnone] using .taken hgets
      · simpa [hheld] using .takenAgain hgets
    · have hsame : table.holder? name = room.table.holder? name := by
        rcases LockTable.take?_eq_some htake with ⟨-, rfl⟩ | ⟨depth, -, rfl⟩ <;>
          simp [Ne.symm hname]
      simp only [hsame]
      exact hkept _ fun owner => by simp [htakes, hname]
  · rw [hlook] at htakes ⊢
    exact hkept _ fun owner => by simp [htakes]

theorem release_changes (room : LockRoom) (name other : String) (owner : ConnectionId) :
    (room.moment (.release other owner)).Changes name (room.table.holder? name)
      ((room.move (.release other owner)).1.table.holder? name) := by
  have hfrees : ∀ owner', (room.moment (.release other owner)).frees name owner' =
      ((room.free? other owner).isSome && other = name && owner = owner') := by
    simp [Moment.frees, moment, move, Bool.and_assoc]
  have hkept : ∀ holder, (∀ owner', (room.moment (.release other owner)).frees name owner' = false) →
      (room.moment (.release other owner)).Changes name holder holder :=
    fun holder hnot => .kept (fun _ => rfl) hnot fun _ _ => nofun
  rcases hfree : room.free? other owner with _ | room'
  · have hsame : (room.move (.release other owner)).1 = room := by simp [move, hfree]
    rw [hsame]
    exact hkept _ fun owner' => by simp [hfrees, hfree]
  · have hmove : (room.move (.release other owner)).1 = room' := by simp [move, hfree]
    obtain ⟨table, isFree, htable, hroom'⟩ := free?_eq_some hfree
    have hafter : room'.table = table := by rw [hroom']; split <;> rfl
    rw [hmove, hafter]
    by_cases hname : other = name
    · subst hname
      have hgives : (room.moment (.release other owner)).frees other owner = true := by
        simp [hfrees, hfree]
      obtain ⟨depth, hheld, ⟨-, hdepth, rfl⟩ | ⟨-, hdepth, rfl⟩⟩ := LockTable.free?_eq_some htable
      · simpa [hheld] using .freed hgives hdepth
      · simpa [hheld] using .released hgives hdepth
    · have hsame : table.holder? name = room.table.holder? name := by
        obtain ⟨depth, -, ⟨-, -, rfl⟩ | ⟨-, -, rfl⟩⟩ := LockTable.free?_eq_some htable <;>
          simp [Ne.symm hname]
      rw [hsame]
      exact hkept _ fun owner' => by simp [hfrees, hname]

theorem drop_changes (h : room.table.IsSingle) (name : String) (owner : ConnectionId) :
    (room.moment (.drop owner)).Changes name (room.table.holder? name)
      ((room.move (.drop owner)).1.table.holder? name) := by
  have hafter : (room.move (.drop owner)).1.table.holder? name =
      (room.table.holder? name).filter (·.owner ≠ owner) := by
    simp [move, h.holder?_giveBackAll]
  rw [hafter]
  by_cases howns : ∃ depth, room.table.holder? name = some ⟨owner, depth⟩
  · obtain ⟨depth, hheld⟩ := howns
    have hgone : (room.table.holder? name).filter (·.owner ≠ owner) = none := by simp [hheld]
    rw [hgone, hheld]
    exact .dropped rfl
  · have hother : ∀ hold ∈ room.table.holder? name, hold.owner ≠ owner := fun hold hhold heq =>
      howns ⟨hold.depth, by rw [Option.mem_def.1 hhold, ← heq]⟩
    have hsame : (room.table.holder? name).filter (·.owner ≠ owner) = room.table.holder? name := by
      rcases hholder : room.table.holder? name with _ | hold
      · rfl
      · simp [hother hold hholder]
    rw [hsame]
    exact .kept (fun _ => rfl) (by simp [Moment.frees, moment]) fun hold hhold heq =>
      hother hold hhold (LockMove.drop.inj heq).symm

/-- What a move does to the holder of a lock, and it does nothing else to it. -/
theorem move_changes (h : room.table.IsSingle) (move : LockMove) (name : String) :
    (room.moment move).Changes name (room.table.holder? name)
      ((room.move move).1.table.holder? name) := by
  cases move with
  | ask q => exact look_changes (.inl rfl) rfl name
  | again q =>
    exact @look_changes { room with awake := room.awake.erase q } q _ (.inr rfl) rfl name
  | release other owner => exact room.release_changes name other owner
  | drop owner => exact drop_changes h name owner

theorem look_isSingle (h : room.table.IsSingle) (q : LockRequest) :
    (room.look q).1.table.IsSingle := by
  rcases room.look_cases q with ⟨table, htake, hlook⟩ | ⟨-, hlook⟩ <;> rw [hlook]
  · rcases LockTable.take?_eq_some htake with ⟨-, rfl⟩ | ⟨depth, -, rfl⟩ <;> exact h.insert
  · exact h

theorem move_isSingle (h : room.table.IsSingle) (move : LockMove) :
    (room.move move).1.table.IsSingle := by
  cases move with
  | ask q => exact look_isSingle h q
  | again q => exact @look_isSingle { room with awake := room.awake.erase q } h q
  | release name owner =>
    rcases hfree : room.free? name owner with _ | room' <;> simp only [LockRoom.move, hfree]
    · exact h
    · obtain ⟨table, isFree, htable, rfl⟩ := free?_eq_some hfree
      obtain ⟨depth, -, ⟨rfl, -, rfl⟩ | ⟨rfl, -, rfl⟩⟩ := LockTable.free?_eq_some htable
      · exact h.erase
      · exact h.insert
  | drop owner =>
    rw [LockRoom.move, table_giveBackAll]
    exact h.giveBackAll

end LockRoom

/-! ### Runs -/

/-- A room with the moments that led to it. -/
structure LockRun where
  room : LockRoom := {}
  moments : List Moment := []

namespace LockRun

/-- Makes a move if it can be made. -/
def advance (r : LockRun) (move : LockMove) : LockRun :=
  if r.room.admits move then ⟨(r.room.move move).1, r.moments ++ [r.room.moment move]⟩ else r

/-- The run of these moves. -/
def of (moves : List LockMove) : LockRun := moves.foldl advance {}

theorem of_append (moves : List LockMove) (move : LockMove) :
    of (moves ++ [move]) = (of moves).advance move := by
  rw [of, List.foldl_append]
  rfl

/-- What holds at the beginning and is kept by every move holds of every run. -/
theorem of_induction {P : LockRun → Prop} (start : P {})
    (step : ∀ r move, r.room.admits move = true → P r →
      P ⟨(r.room.move move).1, r.moments ++ [r.room.moment move]⟩) (moves : List LockMove) :
    P (of moves) := by
  induction moves using List.reverseRecOn with
  | nil => exact start
  | append_singleton moves move ih =>
    rw [of_append, advance]
    split
    · next hadmits => exact step _ move hadmits ih
    · exact ih

/-- Since the lock was free it has been held by one connection, which took it so many times more
    often than it released it. -/
def HeldSince (r : LockRun) (name : String) (hold : Hold) : Prop :=
  ∃ earlier m later, r.moments = earlier ++ m :: later ∧
    m.before.table.holder? name = none ∧ m.takes name hold.owner = true ∧
    (∀ n ∈ m :: later, ∃ depth, n.after.table.holder? name = some ⟨hold.owner, depth⟩) ∧
    hold.depth + later.countP (·.frees name hold.owner) =
      1 + later.countP (·.takes name hold.owner)

/-- A further moment after which the connection still holds the lock. -/
theorem HeldSince.extend {r : LockRun} {name : String} {owner : ConnectionId} {depth depth' : Nat}
    {m : Moment} {room : LockRoom} (h : r.HeldSince name ⟨owner, depth⟩)
    (hafter : m.after.table.holder? name = some ⟨owner, depth'⟩)
    (hcount : depth' + (m.frees name owner).toNat = depth + (m.takes name owner).toNat) :
    HeldSince ⟨room, r.moments ++ [m]⟩ name ⟨owner, depth'⟩ := by
  obtain ⟨earlier, first, later, hmoments, hfree, htakes, hheld, hdepth⟩ := h
  refine ⟨earlier, first, later ++ [m], by simp [hmoments], hfree, htakes, ?_, ?_⟩
  · rw [← List.cons_append, List.forall_mem_append, List.forall_mem_singleton]
    exact ⟨hheld, depth', hafter⟩
  · have hsingle : ∀ p : Moment → Bool, [m].countP p = (p m).toNat := fun p => by
      cases hp : p m <;> simp [hp]
    simp only [List.countP_append, hsingle] at hdepth ⊢
    omega

/-- What holds of a run at every time. -/
structure IsSound (r : LockRun) : Prop where
  single : r.room.table.IsSingle
  moments : ∀ m ∈ r.moments, m.before.table.IsSingle ∧ m = m.before.moment m.move
  positive : ∀ name hold, r.room.table.holder? name = some hold → 1 ≤ hold.depth
  held : ∀ name hold, r.room.table.holder? name = some hold → r.HeldSince name hold

theorem IsSound.advance {r : LockRun} (h : r.IsSound) (move : LockMove) :
    IsSound ⟨(r.room.move move).1, r.moments ++ [r.room.moment move]⟩ where
  single := LockRoom.move_isSingle h.single move
  moments := by
    rw [List.forall_mem_append, List.forall_mem_singleton]
    exact ⟨h.moments, h.single, rfl⟩
  positive name hold hhold := by
    have hchanges := LockRoom.move_changes h.single move name
    have hpositive := h.positive name
    rw [hhold] at hchanges
    generalize r.room.table.holder? name = holder at hchanges hpositive
    cases hchanges with
    | taken _ => exact Nat.le_refl 1
    | takenAgain _ => exact Nat.le_add_left 1 _
    | released _ hdepth => exact Nat.le_sub_one_of_lt hdepth
    | kept => exact hpositive hold rfl
  held name hold hhold := by
    have hchanges := LockRoom.move_changes h.single move name
    have hheld := h.held name
    have hfree : r.room.table.holder? name = none →
        (r.room.moment move).before.table.holder? name = none := id
    rw [hhold] at hchanges
    generalize r.room.table.holder? name = holder at hchanges hheld hfree
    cases hchanges with
    | taken htakes =>
      refine ⟨r.moments, r.room.moment move, [], rfl, hfree rfl, htakes, ?_, rfl⟩
      rw [List.forall_mem_singleton]
      exact ⟨1, hhold⟩
    | takenAgain htakes =>
      exact (hheld _ rfl).extend hhold (by simp [htakes, Moment.not_frees_of_takes htakes])
    | @released owner depth hfrees hdepth =>
      refine (hheld _ rfl).extend hhold ?_
      simp only [hfrees, Moment.not_takes_of_frees hfrees, Bool.toNat_true, Bool.toNat_false]
      omega
    | kept htakes hfrees _ =>
      exact (hheld _ rfl).extend hhold (by simp [htakes, hfrees])

theorem isSound_of (moves : List LockMove) : (of moves).IsSound :=
  of_induction ⟨.nil, by simp, fun _ _ h => by simp [LockTable.holder?] at h,
    fun _ _ h => by simp [LockTable.holder?] at h⟩ (fun _ move _ h => h.advance move) moves

end LockRun

/-- A connection that is dropped gives back its locks. -/
theorem locks_giveBack {d : Driver} (b : Backend d) (c : Checkout d) :
    (b.giveBack c).locks = b.locks.giveBackAll c.id := rfl

/-- The rooms of runs are those that any interleaving of connections can reach. -/
theorem LockRoom.reachable_iff {room : LockRoom} :
    Reachable room ↔ ∃ moves, (LockRun.of moves).room = room := by
  constructor
  · intro h
    induction h with
    | start => exact ⟨[], rfl⟩
    | @step room room' _ hstep ih =>
      obtain ⟨moves, rfl⟩ := ih
      have hmove : ∀ move, (LockRun.of moves).room.admits move = true →
          ((LockRun.of moves).room.move move).1 = room' →
          ∃ moves, (LockRun.of moves).room = room' := fun move hadmits hroom =>
        ⟨moves ++ [move], by rw [LockRun.of_append, LockRun.advance, if_pos hadmits, ← hroom]⟩
      cases hstep with
      | ask q => exact hmove (.ask q) rfl rfl
      | again q hawake => exact hmove (.again q) (by simpa [admits] using hawake) rfl
      | release _ name owner hfree =>
        exact hmove (.release name owner) rfl (by simp [move, hfree])
      | drop owner => exact hmove (.drop owner) rfl rfl
  · rintro ⟨moves, rfl⟩
    refine LockRun.of_induction (P := fun r => Reachable r.room) .start
      (fun r move hadmits h => ?_) moves
    cases move with
    | ask q => exact h.step (.ask _ q)
    | again q => exact h.step (.again _ q (by simpa [admits] using hadmits))
    | release name owner =>
      rcases hfree : r.room.free? name owner with _ | room' <;> simp only [LockRoom.move, hfree]
      · exact h
      · exact h.step (.release _ room' name owner hfree)
    | drop owner => exact h.step (.drop _ owner)

namespace LockRun

/-- In a run of locks, whatever connections do and in whatever order:

* a request gets its lock when nobody else holds it, and waits otherwise; a release comes off if the
  connection holds the lock;
* a lock has another holder only after it was free;
* the depth of a lock is positive, and counts how often its holder has taken and released it since it
  was free;
* a connection that does not hold a lock is refused when it releases it, and nothing is changed;
* a connection that is dropped gives back the locks that it holds, however often it has taken them,
  and no other. -/
theorem locks_pass_when_free (moves : List LockMove) :
    (∀ m ∈ (of moves).moments, ∀ q, m.move = .ask q ∨ m.move = .again q →
      (m.isDone = true ↔
        ∀ hold, m.before.table.holder? q.name = some hold → hold.owner = q.owner)) ∧
    (∀ m ∈ (of moves).moments, ∀ name owner, m.move = .release name owner →
      (m.isDone = true ↔ ∃ hold, m.before.table.holder? name = some hold ∧ hold.owner = owner)) ∧
    (∀ m ∈ (of moves).moments, ∀ name hold', m.after.table.holder? name = some hold' →
      m.before.table.holder? name = none ∨
        ∃ hold, m.before.table.holder? name = some hold ∧ hold.owner = hold'.owner) ∧
    (∀ name hold, (of moves).room.table.holder? name = some hold →
      1 ≤ hold.depth ∧ (of moves).HeldSince name hold) ∧
    (∀ (d : Driver) (b : Backend d), b.locks = (of moves).room → ∀ name owner,
      (∀ hold, b.locks.table.holder? name = some hold → hold.owner ≠ owner) →
      (freeLock owner name).perform b =
        (.error (failure s!"advisory lock '{name}' is not held by connection {owner.text}"), b)) ∧
    ∀ (d : Driver) (b : Backend d), b.locks = (of moves).room → ∀ (c : Checkout d) (name : String),
      (b.giveBack c).locks.table.holder? name =
        (b.locks.table.holder? name).filter (·.owner ≠ c.id) := by
  have hsound := isSound_of moves
  refine ⟨fun m hm q hq => ?_, fun m hm name owner hmove => ?_, fun m hm name hold' hhold' => ?_,
    fun name hold hhold => ⟨hsound.positive name hold hhold, hsound.held name hold hhold⟩,
    fun d b hb name owner hother => ?_, fun d b hb c name => ?_⟩
  · obtain ⟨-, heq⟩ := hsound.moments m hm
    have hdone : m.isDone = (m.before.table.take? q.name q.owner).isSome := by
      rcases hq with hq | hq <;> rw [heq, hq] <;> exact LockRoom.look_snd _ q
    rw [hdone, LockTable.take?_isSome_iff]
  · obtain ⟨-, heq⟩ := hsound.moments m hm
    have hdone : m.isDone = (m.before.free? name owner).isSome := by rw [heq, hmove]; rfl
    have hrefused := @LockRoom.free?_eq_none_iff m.before name owner
    rw [hdone, Option.isSome_iff_ne_none, ne_eq, hrefused]
    push Not
    rfl
  · obtain ⟨hsingle, heq⟩ := hsound.moments m hm
    have hchanges := LockRoom.move_changes hsingle m.move name
    have hafter : (m.before.move m.move).1.table.holder? name = some hold' := by
      rw [heq] at hhold'
      exact hhold'
    rw [hafter] at hchanges
    generalize m.before.table.holder? name = holder at hchanges
    cases hchanges with
    | taken => exact .inl rfl
    | takenAgain | released => exact .inr ⟨_, rfl, rfl⟩
    | kept => exact .inr ⟨hold', rfl, rfl⟩
  · have hnone : b.locks.free? name owner = none := LockRoom.free?_eq_none_iff.2 hother
    simp only [freeLock, Act.perform_make, hnone]
  · rw [locks_giveBack, LockRoom.table_giveBackAll]
    exact LockTable.IsSingle.holder?_giveBackAll (hb ▸ hsound.single)

/-- A connection takes a lock twice while another one asks for it. It releases it once, and is
    dropped; the other one gets it then, and takes it once more. -/
def handover : List LockMove :=
  let (a, b) := (ConnectionId.ofNumber 0, ConnectionId.ofNumber 1)
  [.ask ⟨0, "import", a⟩, .ask ⟨1, "import", a⟩, .ask ⟨2, "import", b⟩, .release "import" b,
    .release "import" a, .drop a, .again ⟨2, "import", b⟩, .ask ⟨3, "import", b⟩]

/-- After the handover the other connection has held the lock, twice, since it was free, and the one
    that was dropped can release it no more. -/
theorem handover_passes_when_free :
    (of handover).room.table.holder? "import" = some ⟨.ofNumber 1, 2⟩ ∧
      (of handover).HeldSince "import" ⟨.ofNumber 1, 2⟩ ∧
      ∀ (d : Driver) (b : Backend d), b.locks = (of handover).room →
        ((freeLock (.ofNumber 0) "import").perform b).2 = b := by
  have hholder : (of handover).room.table.holder? "import" = some ⟨.ofNumber 1, 2⟩ := by
    decide +kernel
  obtain ⟨-, -, -, hheld, hrefused, -⟩ := locks_pass_when_free handover
  refine ⟨hholder, (hheld _ _ hholder).2, fun d b hb => ?_⟩
  rw [hrefused d b hb "import" (.ofNumber 0)]
  intro hold hhold
  rw [hb, hholder] at hhold
  cases hhold
  decide

end LockRun

end RecordStore.Backend
