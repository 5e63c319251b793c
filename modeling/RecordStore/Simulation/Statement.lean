import RecordStore.Backend.Driver
import RecordStore.Simulation.Database

/-!
# Simulated statements

The statements that the simulated database understands: those on its three tables, two on a table
that is not there, and three that only compute. `Statement.parse` finds the statement with a given
text, `Statement.resolve` sees whether it suits the tables, and `Statement.plan` says what it does
with given parameters, or why it cannot run.
-/

namespace RecordStore.Simulation

open Backend

inductive Statement where
  | insertNote
  | insertNoteAs
  | deleteNotes
  | insertAudit
  | insertKid
  | notes
  | noteBodies
  | audits
  | kids
  | deleteMissing
  | selectMissing
  /-- Gives back its parameters. -/
  | echo (columns : Nat)
  /-- Gives back bytes, and the same bytes as text. -/
  | bytes (hex : String)
  /-- Gives back both infinities. -/
  | infinities
  deriving DecidableEq, Repr

/-- What a statement does. -/
inductive Plan where
  /-- Writes in a table: how many rows it affects, and the key that it generates. -/
  | write (table : Table) (effect : Effect (Nat × Option Int))
  /-- Reads a table. -/
  | read (table : Table) (rows : Tables → List Cells)
  /-- Only computes. -/
  | compute (rows : List Cells)

/-- A value that was stored or bound, as it is read. -/
def shown : Param → Cell
  | .text s => .text s.toUTF8.toList
  | .integer i => .integer i
  | .real x => .real x
  | .null => .null

namespace Statement

/-- Whether a statement leaves the tables alone. -/
def isComputing : Statement → Bool
  | echo _ | bytes _ | infinities => true
  | _ => false

/-- The name of a column of `echo`. -/
def echoColumn (i : Nat) : String := "c" ++ toString (i + 1)

def sql : Statement → String
  | insertNote => "INSERT INTO note (body) VALUES (?1)"
  | insertNoteAs => "INSERT INTO note (id, body) VALUES (?1, ?2)"
  | deleteNotes => "DELETE FROM note WHERE id >= ?1"
  | insertAudit => "INSERT INTO audit (body) VALUES (?1)"
  | insertKid => "INSERT INTO kid (note_id) VALUES (?1)"
  | notes => "SELECT id, body FROM note ORDER BY id"
  | noteBodies => "SELECT body FROM note ORDER BY id"
  | audits => "SELECT body FROM audit ORDER BY rowid"
  | kids => "SELECT note_id FROM kid ORDER BY rowid"
  | deleteMissing => "DELETE FROM missing"
  | selectMissing => "SELECT * FROM missing"
  | echo columns =>
    "SELECT " ++ ", ".intercalate ((List.range columns).map fun i =>
      placeholder (i + 1) ++ " AS " ++ echoColumn i)
  | bytes hex => s!"SELECT x'{hex}' AS b, CAST(x'{hex}' AS TEXT) AS t"
  | infinities => "SELECT 9e999 AS p, -9e999 AS n"

/-- How many parameters a statement needs. -/
def arity : Statement → Nat
  | insertNote | deleteNotes | insertAudit | insertKid => 1
  | insertNoteAs => 2
  | echo columns => columns
  | _ => 0

/-- The digits in a text that is as long as `bytes` of them, which has them twice. -/
def bytesDigits (text : String) : String :=
  let size := (text.length - (bytes "").sql.length) / 2
  String.ofList ((text.toList.drop "SELECT x'".length).take size)

/-- The statements that could have a text: the fixed ones, an `echo` with as many columns as there
    are placeholders, and `bytes` of as many digits as there is room for. -/
def candidates (text : String) : List Statement :=
  [insertNote, insertNoteAs, deleteNotes, insertAudit, insertKid, notes, noteBodies, audits,
    kids, deleteMissing, selectMissing, infinities, echo (text.toList.count '?'),
    bytes (bytesDigits text)]

/-- The statement with this text. -/
def ofSql? (text : String) : Option Statement := (candidates text).find? (·.sql = text)

/-- The largest number of a placeholder. -/
def maxPlaceholder : Nat := 32766

/-- The most columns that a query may have. -/
def maxColumns : Nat := 2000

/-- Adds the place of a text at which it is refused. -/
def refusedAt (reason sql : String) (offset : Nat) : String :=
  s!"{reason} in {sql} at offset {offset}"

/-- Why the text of a statement is refused, whatever the tables are, if it is. -/
def malformed? : Statement → Option String
  | echo columns =>
    if columns = 0 then some "incomplete input"
    else if columns ≤ maxPlaceholder then none
    else
      let reason := s!"variable number must be between ?1 and ?{maxPlaceholder}"
      some (refusedAt reason (echo columns).sql ((echo maxPlaceholder).sql.length + 2))
  | bytes hex =>
    if (Text.bytesOfHex? hex.toList).isSome then none
    else
      let literal := "x'" ++ String.ofList (hex.toList.takeWhile (· ≠ '\'')) ++ "'"
      some (refusedAt s!"unrecognized token: \"{literal}\"" (bytes hex).sql 7)
  | _ => none

/-- Why a statement does not suit the tables, if it does not. -/
def unresolved? : Statement → Option String
  | deleteMissing | selectMissing => some "no such table: missing"
  | echo columns => if maxColumns < columns then some "too many columns in result set" else none
  | _ => none

/-- Counts one affected row for an insert. -/
def inserting {α : Type} (effect : Effect α) (key : α → Tables → Int) :
    Effect (Nat × Option Int) := fun t => do
  let (a, t) ← effect t
  return ((1, some (key a t)), t)

/-- What a statement does with as many parameters as it needs. -/
def body (s : Statement) (params : List Param) : Plan :=
  let param (i : Nat) : Param := params[i]?.getD .null
  match s with
  | insertNote => .write .note (inserting (Tables.insertNote (param 0)) fun id _ => id)
  | insertNoteAs =>
    .write .note (inserting (Tables.insertNoteAs (param 0) (param 1)) fun id _ => id)
  | deleteNotes => .write .note fun t => do
      let (count, t) ← Tables.deleteNotes (param 0) t
      return ((count, none), t)
  | insertAudit =>
    .write .audit (inserting (Tables.insertAudit (param 0)) fun _ t => t.audits.length)
  | insertKid => .write .kid (inserting (Tables.insertKid (param 0)) fun _ t => t.kids.length)
  | notes => .read .note fun t =>
      t.notes.map fun n => [("id", .integer n.id), ("body", shown n.body)]
  | noteBodies => .read .note fun t => t.notes.map fun n => [("body", shown n.body)]
  | audits => .read .audit fun t => t.audits.map fun p => [("body", shown p)]
  | kids => .read .kid fun t => t.kids.map fun p => [("note_id", shown p)]
  | deleteMissing | selectMissing => .compute []
  | echo columns =>
    .compute [(List.range columns).map fun i => (echoColumn i, shown (param i))]
  | bytes hex =>
    let bytes := (Text.bytesOfHex? hex.toList).getD []
    .compute [[("b", .blob bytes), ("t", .text bytes)]]
  | infinities =>
    .compute [[("p", .real .infinity), ("n", .real (.neg .infinity))]]

/-- What a statement that is prepared does with parameters, or why it cannot run. The count of the
    parameters ends with the first that is too many. -/
def plan (s : Statement) (params : List Param) : Except String Plan :=
  if params.length = s.arity then .ok (s.body params)
  else
    let got := min params.length (s.arity + 1)
    .error s!"Wrong number of parameters passed to query. Got {got}, needed {s.arity}"

/-- The statement with this text, or why the text is refused. -/
def parse (text : String) : Except String Statement :=
  match ofSql? text with
  | some s =>
    match s.malformed? with
    | some reason => .error reason
    | none => .ok s
  | none => .error s!"not a statement of this database: {text}"

/-- The statement, if it suits the tables. -/
def resolve (s : Statement) : Except String Statement :=
  match s.unresolved? with
  | some reason => .error reason
  | none => .ok s

end Statement

end RecordStore.Simulation
