import RecordStore.Connection

/-!
# Named locks

The database has no locks with names, so a backend keeps them itself. A lock belongs to one
connection, which may take it several times and has to release it as often. Another connection that
asks for it waits until it is free; a connection that is dropped gives back all it holds.

`LockTable` says who holds what. `LockRoom` adds the requests that wait: one that finds its lock
held falls asleep, every release that frees a lock and every drop that frees any wakes up all who
sleep, and those that are awake look again, one by one in any order.
-/

namespace RecordStore.Backend

/-- Who holds a lock, and how many times it was taken. -/
structure Hold where
  owner : ConnectionId
  depth : Nat
  deriving DecidableEq

/-- The locks that are held, each name once. -/
structure LockTable where
  held : List (String × Hold) := []
  deriving DecidableEq

namespace LockTable

/-- The holder of a lock; a lock without one is free. -/
def holder? (t : LockTable) (name : String) : Option Hold := t.held.lookup name

/-- Frees a lock. -/
def erase (t : LockTable) (name : String) : LockTable :=
  ⟨t.held.filter (·.1 ≠ name)⟩

/-- Gives a lock to a holder. -/
def insert (t : LockTable) (name : String) (h : Hold) : LockTable :=
  ⟨(name, h) :: (t.erase name).held⟩

/-- Takes a lock that is free or already held by the connection; nothing if it has to wait. -/
def take? (t : LockTable) (name : String) (owner : ConnectionId) : Option LockTable :=
  match t.holder? name with
  | none => some (t.insert name ⟨owner, 1⟩)
  | some h => if h.owner = owner then some (t.insert name ⟨owner, h.depth + 1⟩) else none

/-- Releases a lock once, and says whether it is free now; nothing if the connection does not hold
    it. -/
def free? (t : LockTable) (name : String) (owner : ConnectionId) :
    Option (LockTable × Bool) :=
  match t.holder? name with
  | some h =>
    if h.owner ≠ owner then none
    else if h.depth ≤ 1 then some (t.erase name, true)
    else some (t.insert name ⟨owner, h.depth - 1⟩, false)
  | none => none

/-- Frees all locks of a connection, and says whether there were any. -/
def giveBackAll (t : LockTable) (owner : ConnectionId) : LockTable × Bool :=
  let kept := t.held.filter (·.2.owner ≠ owner)
  (⟨kept⟩, kept.length ≠ t.held.length)

end LockTable

/-- A request for a lock, told apart from others by its number. -/
structure LockRequest where
  number : Nat
  name : String
  owner : ConnectionId
  deriving DecidableEq

/-- The locks, the requests asleep, and those that were woken up and have not looked again. -/
structure LockRoom where
  table : LockTable := {}
  asleep : List LockRequest := []
  awake : List LockRequest := []
  deriving DecidableEq

namespace LockRoom

/-- A request looks at its lock: it takes it, or falls asleep. Says whether it got it. -/
def look (room : LockRoom) (q : LockRequest) : LockRoom × Bool :=
  match room.table.take? q.name q.owner with
  | some table => ({ room with table }, true)
  | none => ({ room with asleep := room.asleep ++ [q] }, false)

/-- Wakes up all who sleep. -/
def wakeAll (room : LockRoom) : LockRoom :=
  { room with asleep := [], awake := room.awake ++ room.asleep }

/-- A connection releases a lock once; nothing if it does not hold it. -/
def free? (room : LockRoom) (name : String) (owner : ConnectionId) : Option LockRoom :=
  (room.table.free? name owner).map fun (table, isFree) =>
    let room := { room with table }
    if isFree then room.wakeAll else room

/-- A connection gives back all it holds. -/
def giveBackAll (room : LockRoom) (owner : ConnectionId) : LockRoom :=
  let (table, anyFreed) := room.table.giveBackAll owner
  let room := { room with table }
  if anyFreed then room.wakeAll else room

/-- A request that is awake looks again. -/
def lookAgain (room : LockRoom) (q : LockRequest) : LockRoom × Bool :=
  { room with awake := room.awake.erase q }.look q

/-- What happens to the locks, one critical section at a time. -/
inductive Step : LockRoom → LockRoom → Prop where
  /-- A connection asks for a lock. -/
  | ask (room : LockRoom) (q : LockRequest) : Step room (room.look q).1
  /-- A request that is awake looks again. -/
  | again (room : LockRoom) (q : LockRequest) (h : q ∈ room.awake) :
    Step room (room.lookAgain q).1
  /-- A connection releases a lock that it holds. -/
  | release (room room' : LockRoom) (name : String) (owner : ConnectionId)
    (h : room.free? name owner = some room') : Step room room'
  /-- A connection is dropped. -/
  | drop (room : LockRoom) (owner : ConnectionId) : Step room (room.giveBackAll owner)

/-- The states that any interleaving of connections can reach. -/
inductive Reachable : LockRoom → Prop where
  | start : Reachable {}
  | step {room room' : LockRoom} (h : Reachable room) (s : Step room room') : Reachable room'

end LockRoom

end RecordStore.Backend
