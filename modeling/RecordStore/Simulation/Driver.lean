import RecordStore.Simulation.Knowledge
import RecordStore.Simulation.Statement

/-!
# The simulated driver

A driver for the simulated database. It opens at most so many connections, numbers them, and hands
out those first that were returned last. A new connection that is to check references has to prepare
a statement for that, so where nothing can be prepared there are only those that were made in
advance.

Before a connection can prepare its first statement, it has to read what the tables are, which the
first one knows, since it made them (`Knowledge`). A connection keeps the statements ready that it
used last, while they are not in use. One that is ready still computes, or learns that its table is
locked, where a new one cannot even be prepared.
-/

namespace RecordStore.Simulation

open Backend

/-- A connection. -/
structure Session where
  number : Nat
  /-- Whether it has a transaction open. -/
  isOpen : Bool := false
  /-- The key that it generated last. -/
  lastKey : Int := 0
  /-- What it knows of the tables. -/
  knowledge : Knowledge := { isRead := number = 0 }
  /-- The statements that it keeps ready, the one used last in front. -/
  ready : List Statement := []
  deriving DecidableEq

/-- What the connections share. -/
structure World where
  config : Config
  database : Database
  /-- How many connections have been made. -/
  opened : Nat := 0
  /-- How many there were when one was last given exclusive access. -/
  made : Nat := 0

/-- Work through a connection. -/
abbrev Job (α : Type) := ExceptT String (StateM (Session × World)) α

namespace World

/-- How many connections there can be. -/
def capacity (w : World) : Nat :=
  if w.config.foreignKeys && (w.database.prepareBlock false).isSome then w.made
  else w.config.maxConnections

/-- What is left after all connections are closed and the database is opened again. -/
def reopen (w : World) : World where
  config := w.config
  database := w.database.reopen

end World

/-- Changes what a connection knows of the tables. -/
def learn (f : Knowledge → Knowledge) : Job Unit :=
  modify fun (c, w) => ({ c with knowledge := f c.knowledge }, w)

/-- Takes note that a piece of work of a connection ended, well or not, unless it is part of a
    transaction that is still open. -/
def finish (isWell : Bool) : Job Unit := do
  unless (← get).1.isOpen do learn (if isWell then .settle else .undo)

/-- Fails if nothing can be prepared. -/
def checkPrepare : Job Unit := do
  let (c, w) ← get
  if let some reason := w.database.prepareBlock c.isOpen then throw reason

/-- Runs a command that opens or closes a transaction, and that may keep what was done in one. -/
def transact (opens isKeeping : Bool) (f : Database → Bool → Except String Database) :
    Job Unit := do
  checkPrepare
  let (c, w) ← get
  match f w.database c.isOpen with
  | .ok database =>
    set ({ c with isOpen := opens }, { w with database })
    finish isKeeping
  | .error reason =>
    finish false
    throw reason

/-- Takes note of how many connections there are. -/
def countMade : Job Unit :=
  modify fun (c, w) =>
    (c, { w with made := min w.config.maxConnections (w.opened + w.config.spare) })

/-- How many statements a connection keeps ready. -/
def readyLimit : Nat := 16

/-- Reads what the tables are, if the connection does not know it. -/
def readSchema : Job Unit := do
  let (c, w) ← get
  unless c.knowledge.isRead do
    match w.database.schemaBlock c.isOpen with
    | some reason =>
      learn .kept
      throw reason
    | none => learn .read

/-- Prepares the statement with this text. A text that is refused as such is not compared with the
    tables, so nothing is read for it. -/
def prepareNew (text : String) : Job Statement := do
  checkPrepare
  let s ← Statement.parse text
  unless s.isComputing && (← get).1.knowledge.wasRead do readSchema
  s.resolve

/-- Changes what a connection keeps ready. -/
def setReady (ready : List Statement) : Job Unit := modify fun (c, w) => ({ c with ready }, w)

/-- The statement with this text: the one that is ready, which is taken out, or a new one. -/
def takeOut (text : String) : Job Statement := do
  let (c, _) ← get
  match c.ready.find? (·.sql = text) with
  | some s =>
    setReady (c.ready.erase s)
    return s
  | none => prepareNew text

/-- Keeps a statement ready, in place of the one that was not used for longest. -/
def putBack (s : Statement) : Job Unit := do
  setReady ((s :: (← get).1.ready.erase s).take readyLimit)

/-- What a statement gives: the number of rows that it affected, or the rows that it read. -/
inductive Outcome where
  | affected (count : Nat)
  | rows (rows : List Cells)

/-- Carries out a plan. -/
def carryOut : Plan → Job Outcome
  | .compute rows => return .rows rows
  | .read table rows => do
    let (c, w) ← get
    return .rows (rows (← w.database.read c.isOpen table))
  | .write table effect => do
    let (c, w) ← get
    let (r, database) := w.database.write c.isOpen table effect
    set (c, { w with database })
    let (count, key) ← r
    if let some lastKey := key then set ({ c with lastKey }, { w with database })
    return .affected count

/-- Runs a statement that is prepared, and says whether its end is the end of work on the tables.
    What the tables are is read again if that was undone since the statement was prepared. -/
def perform (s : Statement) (params : List Param) : Job (Outcome × Bool) := do
  match ← s.plan params with
  | .compute rows => return (.rows rows, false)
  | plan =>
    readSchema
    try
      return (← carryOut plan, true)
    catch reason =>
      finish false
      throw reason

/-- A statement in use: whether it works on the tables, and where it is kept then. -/
structure Cursor where
  isWorking : Bool
  statement : Option Statement

/-- Ends the use of a statement. -/
def Cursor.close (cursor : Cursor) : Job Unit := do
  if cursor.isWorking then finish true
  if let some s := cursor.statement then putBack s

/-- Runs a statement that will be kept ready. -/
def run (sql : String) (params : List Param) : Job (Outcome × Cursor) := do
  let s ← takeOut sql
  try
    let (outcome, isWorking) ← perform s params
    return (outcome, ⟨isWorking, some s⟩)
  catch reason =>
    putBack s
    throw reason

/-- Runs a statement that is prepared for this once. -/
def runOnce (sql : String) (params : List Param) : Job Unit := do
  let (_, isWorking) ← perform (← prepareNew sql) params
  Cursor.close ⟨isWorking, none⟩

/-- The batch that inserts two notes. -/
def insertBatch : String :=
  "INSERT INTO note (body) VALUES ('x'); INSERT INTO note (body) VALUES ('y')"

/-- Runs one of the commands that control transactions, or the batch. -/
def runBatch (sql : String) : Job Unit :=
  if sql = "BEGIN IMMEDIATE" then transact true true fun db isOwn => db.begin isOwn false
  else if sql = "BEGIN EXCLUSIVE" then do
    transact true true fun db isOwn => db.begin isOwn true
    countMade
  else if sql = "COMMIT" then transact false true Database.commit
  else if sql = "ROLLBACK" then transact false false Database.rollback
  else if sql = insertBatch then do
    runOnce Statement.insertNote.sql [.text "x"]
    runOnce Statement.insertNote.sql [.text "y"]
  else throw s!"not a statement of this database: {sql}"

/-- Runs a statement and counts the rows that it affects. -/
def execute (sql : String) (params : List Param) : Job Nat := do
  let (outcome, cursor) ← run sql params
  cursor.close
  match outcome with
  | .affected count => return count
  | .rows _ => throw "Execute returned results - did you mean to call query?"

def query (sql : String) (params : List Param) : Job (Answer Cursor) := do
  let (outcome, cursor) ← run sql params
  match outcome with
  | .affected _ => return { rows := [], cursor }
  | .rows rows => return { rows, cursor }

/-- Hands out a connection: the one that was returned last, or a new one if there may be more. -/
def lend : List Session × World → Option Session × List Session × World
  | (c :: idle, w) => (some c, idle, w)
  | ([], w) =>
    if w.opened < w.capacity then
      (some { number := w.opened }, [], { w with opened := w.opened + 1 })
    else (none, [], w)

/-- The driver. -/
@[reducible]
def driver : Driver where
  Conn := Session
  Pool := List Session
  World := World
  Cursor := Cursor
  start config inMemory :=
    ([], { config, database := { inMemory, writeAhead := config.writeAhead } })
  lend := lend
  takeBack c := fun (idle, w) => (c :: idle, w)
  inTransaction := Session.isOpen
  runBatch := runBatch
  execute := execute
  query := query
  close cursor s := (cursor.close s).2
  lastInsertId := Session.lastKey

/-- A connection that was returned is handed out as it is. -/
theorem lendsAsReturned : driver.LendsAsReturned id where
  start _ _ c hc := absurd hc List.not_mem_nil
  lend idle w c hc := by
    change c ∈ (lend (idle, w)).1 at hc
    cases idle with
    | nil =>
      rw [lend] at hc
      split at hc <;> cases hc
      exact .inr rfl
    | cons first idle =>
      cases hc
      exact .inl List.mem_cons_self
  lendKeeps idle w c hc := by
    change c ∈ (lend (idle, w)).2.1 at hc
    cases idle with
    | nil =>
      rw [lend] at hc
      split at hc <;> cases hc
    | cons first idle => exact .inl (List.mem_cons_of_mem _ hc)
  takeBack _ _ _ _ hc := .inl hc

/-- A rollback in a transaction succeeds, since nobody else has exclusive access then. -/
theorem rollsBack : driver.RollsBack := by
  intro c w hopen
  have hbatch : runBatch "ROLLBACK" = transact false false Database.rollback := by simp [runBatch]
  refine ⟨({ c with isOpen := false, knowledge := c.knowledge.undo },
    { w with database := { w.database with writer := none } }), ?_, rfl⟩
  change runBatch "ROLLBACK" (c, w) = _
  obtain ⟨number, isOpen, lastKey, knowledge, ready⟩ := c
  obtain rfl : isOpen = true := hopen
  rw [hbatch]
  -- In memory or not, the connection is not shut out.
  rcases w with ⟨config, ⟨_ | _, writeAhead, committed, writer⟩, opened, made⟩ <;> rfl

end RecordStore.Simulation
