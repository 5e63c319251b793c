import RecordStore.Model
import RecordStore.Rehearsal.Stage
import RecordStore.Scenario.Setup

/-!
# Reports

What came of a scenario, as JSON: results and errors, parameters, models, and the entries of a
stage's journal.

A success is `ok` with a value. A failure is `error` with the name of its cause and `message` with
its text; the failure of a commit in a chain also has `source`, the report of the error behind it.
-/

namespace RecordStore

/-- The name of a cause, behind that of its category. -/
def StoreError.name : StoreError → String
  | notFound .. => "Resource.NotFound"
  | missingRequiredProperty _ => "Validation.MissingRequiredProperty"
  | unknownProperty _ => "Validation.UnknownProperty"
  | invalidIdentifier _ => "Configuration.InvalidIdentifier"
  | nestingTooDeep _ => "Configuration.NestingTooDeep"
  | unknownJoinFilter .. => "Configuration.UnknownJoinFilter"
  | unknownAttribute .. => "Configuration.UnknownAttribute"
  | duplicateJoinFilter _ => "Configuration.DuplicateJoinFilter"
  | invalidPaging _ => "Configuration.InvalidPaging"
  | invalidOperand .. => "Configuration.InvalidOperand"
  | duplicateProperty _ => "Configuration.DuplicateProperty"
  | missingPrimaryKey _ => "Configuration.MissingPrimaryKey"
  | lockWhileTransactional _ => "Configuration.LockWhileTransactional"
  | missingConnection => "Configuration.MissingConnection"
  | unregisteredCapability _ => "Configuration.UnregisteredCapability"
  | rolledBack _ => "Transaction.RolledBack"
  | invalidStateTransition .. => "Transaction.InvalidStateTransition"
  | partialCommit .. => "Transaction.PartialChainFailure"
  | connectionFailed .. => "Backend.ConnectionFailed"
  | poolExhausted _ => "Backend.PoolExhausted"
  | internal .. => "Backend.Internal"
  | queryFailed _ => "Backend.QueryError"

namespace Scenario

/-- The fields of a report. -/
abbrev Report := List (String × Value)

/-- The report of an error. -/
def reportError (e : StoreError) : Report :=
  let own := [("error", .string e.name), ("message", .string e.message)]
  match e with
  | .partialCommit _ _ _ source => own ++ [("source", .ofFields (reportError source))]
  | _ => own

/-- The report of a result. -/
def reportResult : Except StoreError Value → Report
  | .ok v => [("ok", v)]
  | .error e => reportError e

/-- The report of an action without a result of its own. -/
def reportOutcome (r : Except StoreError Unit) : Report := reportResult (r.map fun _ => .null)

/-- The report of a scenario that could not be set up. -/
def SetupError.report : SetupError → Report
  | malformed what => [("malformed", .string what)]
  | refusedForm => [("error", .string "Deserialize")]
  | refusedSchema e => [("error", .string "Schema"), ("message", .string e.message)]
  | refused e => reportError e

def result (r : Except StoreError Value) : Value := .ofFields (reportResult r)

def outcome (r : Except StoreError Unit) : Value := .ofFields (reportOutcome r)

def success (v : Value) : Value := .ofFields [("ok", v)]

/-- The sixteen hexadecimal digits of a word. -/
def hexWord (w : UInt64) : String :=
  String.ofList ((List.range 16).map fun i => hexDigit (w.toNat / Nat.pow 16 (15 - i)))

/-- A parameter: a letter for its type, and its value. -/
def reportParam : Param → Value
  | .text s => .strings ["s", s]
  | .integer i => .array [.string "i", .int i]
  | .real x => .strings ["f", hexWord x.bits]
  | .null => .strings ["n"]

def reportParams (ps : List Param) : Value := .array (ps.map reportParam)

/-- The report of a model with these values. -/
def reportModel {μ : Type} [Model μ] (values : Row) (m : μ) : Report :=
  [("values", .object values), ("edited", .strings (Model.edits m)),
    ("has_key", .bool (Model.hasKey m))]

def reportRecord (r : Record) : Value := .ofFields (reportModel r.values r)

def reportRows (rows : List Row) : Value := .array (rows.map .object)

open Rehearsal

/-- The report of a call that a line answered. -/
def reportCall (line : String) (call : Call) : Details → Value
  | .none => .strings [line, call.text]
  | .statement sql params =>
    .array [.string line, .string call.text, .string sql, reportParams params]
  | .lock name => .strings [line, call.text, name]
  | .tables names => .array [.string line, .string call.text, .strings names]

/-- The report of a journal entry. -/
def reportEntry : Entry → Value
  | .call _ name call details => reportCall name call details
  | .failed _ name call => .strings [name, call.text ++ "-failed"]
  | .note (.log v) => .array [.string "log", v]
  | .note (.swallowed r) => .array [.string "swallow", outcome r]
  | .note (.phase s) => .strings ["state", s.text]
  | .note (.look v edited) => .array [.string "look", v, .strings edited]
  | .note (.saved r) => .array [.string "new", reportRecord r]

/-- The journal entries that came between two moments. -/
def reportLog (before after : Stage) : Value :=
  .array ((after.journal.drop before.journal.length).map reportEntry)

end Scenario

end RecordStore
