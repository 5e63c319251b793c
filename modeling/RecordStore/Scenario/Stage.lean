import RecordStore.Rehearsal.Stage
import RecordStore.Scenario.Setup

/-!
# Stages in scenarios

A line of the stage is written as its name, its identity and what it is to answer; a control as its
name with arguments. The *cast* of a scenario is its stage with the names and identities of the
lines.
-/

namespace RecordStore.Scenario

open Rehearsal

def readCallKind (name : String) : Setup Call := expect name (Call.all.find? (·.text = name))

/-- Plans failures of a line: a kind of call, and how many calls succeed before one fails. -/
def readArm (line : Line) (arm : String × Value) : Setup Line := do
  return Control.plan (← readCallKind arm.1) (.after (← readInt arm.2)) line

def readIdentity (v : Value) : Setup ConnectionId := do
  expect "id" (ConnectionId.parse? (← readText v))

/-- Reads a line, and its identity if it is given one. -/
def readLine (v : Value) : Setup (Line × Option ConnectionId) := do
  let line : Line := {
    name := ← fieldOr v "name" "db" readText
    isOpen := ← fieldOr v "in_tx" false readFlag
    nextId := ← fieldOr v "next_id" 1 readInt
    rows := ← fieldOr v "rows" [] readRows }
  let line ← (← fieldOr v "arms" [] readRow).foldlM readArm line
  return (line, ← optionalField v "id" readIdentity)

/-- Gives every line without an identity one that no other has. -/
def assignIds (given : List (Option ConnectionId)) : List ConnectionId :=
  let taken := given.filterMap id
  (given.foldl (fun (taken, ids) id =>
    match id with
    | some id => (taken, ids ++ [id])
    | none =>
      let id := ConnectionId.fresh taken
      (id :: taken, ids ++ [id])) (taken, [])).2

/-- The lines of a scenario. -/
structure Cast where
  names : List String
  ids : List ConnectionId
  stage : Stage

namespace Cast

/-- The connection of a line. -/
def connection (c : Cast) (i : Nat) : Connection Stage :=
  Stage.connection (c.ids[i]?.getD default) i

/-- The line of this name. -/
def index (c : Cast) (name : String) : Setup Nat := expect name (c.names.idxOf? name)

/-- The first line with this identity. -/
def nameOf (c : Cast) (id : ConnectionId) : String :=
  ((c.ids.idxOf? id).bind (c.names[·]?)).getD ""

/-- Whether each line has an open transaction. -/
def openLines (c : Cast) (s : Stage) : Value :=
  .ofFields ((c.names.zip (List.range c.names.length)).map fun (name, i) =>
    (name, .bool (s.lines i).isOpen))

end Cast

def readCast (specs : List Value) : Setup Cast := do
  let lines ← specs.mapM readLine
  return {
    names := lines.map (·.1.name)
    ids := assignIds (lines.map (·.2))
    stage := { lines := fun i => (lines[i]?.map (·.1)).getD {} } }

/-- Reads a control. -/
def readControl (name : String) (args : List Value) : Setup Control := do
  match name with
  | "arm" => return .arm (← readCallKind (← textItem args 0)) (← readInt (← item args 1))
  | "disarm" => return .disarm (← readCallKind (← textItem args 0))
  | "affected" => return .affected (← readList readNat (← item args 0))
  | "next_id" => return .nextId (← readInt (← item args 0))
  | "rows" => return .rows (← readRows (← item args 0))
  | "in_tx" => return .inTransaction
  | "begin" => return .begin
  | "commit" => return .commit
  | "rollback" => return .rollback
  | "acquire" => return .acquire (← textItem args 0)
  | "release" => return .release (← textItem args 0)
  | "lock_tables" => return .lockTables (← readTexts (← item args 0))
  | "unlock_tables" => return .unlockTables
  | "exec" =>
    return .execute (← textItem args 0) ((← optionalItem args 1 readItems).getD [])
  | "select" => return .select (← textItem args 0)
  | other => malformed other

/-- Reads a control behind the name of its line. -/
def readLineControl (c : Cast) (name : String) (args : List Value) : Setup (Nat × Control) := do
  return (← c.index (← textItem args 0), ← readControl name (args.drop 1))

end RecordStore.Scenario
