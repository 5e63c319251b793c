import RecordStore.Record
import RecordStore.Save.Phase
import RecordStore.Connection

/-!
# Rehearsal connections

A *stage* stands in for databases: numbered lines that behave like connections without storing
anything, and one journal of all that happens on them. It shows what the engine asks of its
connections, in which order, under any pattern of failures.

A line answers queries with rows that were laid out before, statements with a queue of counts, and
hands out generated keys in sequence. For each kind of call it has a plan of failures. A failing
call is noted in the journal, changes nothing else, and returns an error that names the call and the
line. Beginning opens the line's transaction whether or not one is open; committing and rolling
back close it. Tables cannot be locked while a transaction is open, and locking them opens one.
-/

namespace RecordStore.Rehearsal

/-- The kinds of calls that a line answers. -/
inductive Call where
  | begin
  | commit
  | rollback
  | execute
  | select
  | lastInsertId
  | acquire
  | release
  | lockTables
  | unlockTables
  deriving DecidableEq, Inhabited

namespace Call

def text : Call → String
  | begin => "begin"
  | commit => "commit"
  | rollback => "rollback"
  | execute => "execute"
  | select => "select"
  | lastInsertId => "last_insert_id"
  | acquire => "acquire"
  | release => "release"
  | lockTables => "lock_tables"
  | unlockTables => "unlock_tables"

def all : List Call :=
  [begin, commit, rollback, execute, select, lastInsertId, acquire, release, lockTables,
    unlockTables]

/-- The error of a call that fails on the line of this name. -/
def failure (call : Call) (name : String) : StoreError :=
  .queryFailed s!"{call.text} failed on {name}"

end Call

/-- What a call was made with. -/
inductive Details where
  | none
  | statement (sql : String) (params : List Param)
  | lock (name : String)
  | tables (names : List String)
  deriving DecidableEq, Inhabited

/-- What code that takes part in a rehearsal notes about itself. -/
inductive Note where
  | log (v : Value)
  /-- The outcome of something whose failure was let pass. -/
  | swallowed (outcome : Except StoreError Unit)
  | phase (s : SavePhase)
  /-- The value of a property, and the edited properties. -/
  | look (value : Value) (edited : List String)
  | saved (record : Record)

/-- An entry of the journal. A line is noted by its number and by its name. -/
inductive Entry where
  /-- A call that a line answered. -/
  | call (line : Nat) (name : String) (call : Call) (details : Details)
  /-- A call that failed. -/
  | failed (line : Nat) (name : String) (call : Call)
  | note (n : Note)

/-- Which of the coming calls of one kind fail. -/
abbrev FailurePlan := Nat → Bool

namespace FailurePlan

def never : FailurePlan := fun _ => false

/-- The call after the next `k` fails, or with a negative number every call. -/
def after (k : Int) : FailurePlan := fun i => k < 0 || (i : Int) = k

end FailurePlan

/-- A line of the stage. -/
structure Line where
  name : String := "db"
  isOpen : Bool := false
  nextId : Int := 1
  rows : List Row := []
  affected : List Nat := []
  failures : Call → FailurePlan := fun _ => .never

/-- The lines and the journal. -/
structure Stage where
  lines : Nat → Line := fun _ => {}
  journal : List Entry := []

namespace Stage

/-- Replaces a line. -/
def setLine (s : Stage) (i : Nat) (line : Line) : Stage :=
  { s with lines := fun j => if j = i then line else s.lines j }

/-- Adds an entry to the journal. -/
def enter (entry : Entry) : Act Stage Unit :=
  Act.change fun s => { s with journal := s.journal ++ [entry] }

def note (n : Note) : Act Stage Unit := enter (.note n)

/-- Changes a line without a call. -/
def arrange (i : Nat) (f : Line → Line) : Act Stage Unit :=
  Act.change fun s => s.setLine i (f (s.lines i))

/-- A call on a line: it fails as planned, or has an effect and an answer. -/
def answer {α : Type} (i : Nat) (call : Call) (details : Details) (effect : Line → α × Line) :
    Act Stage α :=
  Act.make fun s =>
    let line := s.lines i
    let fails := line.failures call 0
    -- This call is over: the plan moves on to the next one of its kind.
    let line := { line with
      failures := fun c => if c = call then fun n => line.failures c (n + 1) else line.failures c }
    if fails then
      (.error (call.failure line.name),
        { s.setLine i line with journal := s.journal ++ [.failed i line.name call] })
    else
      let (a, line) := effect line
      (.ok a, { s.setLine i line with journal := s.journal ++ [.call i line.name call details] })

/-- The next number of affected rows, one if none is laid out. -/
def nextAffected (line : Line) : Nat × Line :=
  match line.affected with
  | n :: rest => (n, { line with affected := rest })
  | [] => (1, line)

/-- A call that only sets whether the transaction is open. -/
def turn (i : Nat) (call : Call) (details : Details) (isOpen : Bool) : Act Stage Unit :=
  answer i call details fun line => ((), { line with isOpen })

def lockTables (i : Nat) (names : List String) : Act Stage Unit := do
  if ← Act.read fun s => (s.lines i).isOpen then
    Act.fail (.lockWhileTransactional (", ".intercalate names))
  else turn i .lockTables (.tables names) true

/-- A line as a connection. -/
def connection (id : ConnectionId) (i : Nat) : Connection Stage where
  id := id
  inTransaction s := (s.lines i).isOpen
  begin := turn i .begin .none true
  commit := turn i .commit .none false
  rollback := turn i .rollback .none false
  execute sql params := answer i .execute (.statement sql params) nextAffected
  select sql params := answer i .select (.statement sql params) fun line => (line.rows, line)
  lastInsertId :=
    answer i .lastInsertId .none fun line => (line.nextId, { line with nextId := line.nextId + 1 })
  takeLock name := answer i .acquire (.lock name) fun line => ((), line)
  freeLock name := answer i .release (.lock name) fun line => ((), line)
  lockTables names := lockTables i names
  unlockTables := turn i .unlockTables .none false

end Stage

/-- What a rehearsal does to a line from outside: it arranges the line's answers, or calls it. -/
inductive Control where
  | arm (call : Call) (k : Int)
  | disarm (call : Call)
  | affected (counts : List Nat)
  | nextId (n : Int)
  | rows (laid : List Row)
  | inTransaction
  | begin
  | commit
  | rollback
  | acquire (name : String)
  | release (name : String)
  | lockTables (names : List String)
  | unlockTables
  | execute (sql : String) (params : List Value)
  | select (sql : String)

namespace Control

/-- Replaces the plan of failures for one kind of call. -/
def plan (call : Call) (p : FailurePlan) (line : Line) : Line :=
  { line with failures := fun c => if c = call then p else line.failures c }

/-- Runs an action for nothing but its effect. -/
def quietly (f : Act Stage Unit) : Act Stage Value := do
  f
  return .null

/-- Does to the line of a connection what the control says, and returns its answer. -/
def run (i : Nat) : Control → Act Stage Value
  | arm call k => quietly (Stage.arrange i (plan call (.after k)))
  | disarm call => quietly (Stage.arrange i (plan call .never))
  | affected counts => quietly (Stage.arrange i fun line => { line with affected := counts })
  | nextId n => quietly (Stage.arrange i fun line => { line with nextId := n })
  | rows laid => quietly (Stage.arrange i fun line => { line with rows := laid })
  | inTransaction => return .bool (← Act.read fun s => (s.lines i).isOpen)
  | begin => quietly (Stage.connection default i).begin
  | commit => quietly (Stage.connection default i).commit
  | rollback => quietly (Stage.connection default i).rollback
  | acquire name => quietly ((Stage.connection default i).takeLock name)
  | release name => quietly ((Stage.connection default i).freeLock name)
  | lockTables names => quietly (Stage.lockTables i names)
  | unlockTables => quietly (Stage.connection default i).unlockTables
  | execute sql params => do
    return .nat (← (Stage.connection default i).execute sql (params.map .ofValue))
  | select sql => do
    return .array ((← (Stage.connection default i).select sql []).map .object)

end Control

end RecordStore.Rehearsal
