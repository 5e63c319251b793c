/-!
# Storage errors

Why an operation failed. Each cause is a constructor with the data that its message names, and
belongs to one of five categories: a row is missing (`resource`), a model is not fit to be written
(`validation`), the program asked for something that cannot be (`configuration`), a transaction did
not end as it should (`transaction`), or the database refused (`backend`).

`partialCommit` is the only cause that contains another one: the error that stopped a chain of
commits after earlier ones had already succeeded.
-/

namespace RecordStore

/-- Where the cause of a failure lies. -/
inductive ErrorCategory where
  | resource
  | validation
  | configuration
  | transaction
  | backend
  deriving DecidableEq, Repr

/-- The cause of a failed storage operation. -/
inductive StoreError where
  /-- No row has the requested key. -/
  | notFound (table id : String)
  /-- A required property has no value. -/
  | missingRequiredProperty (property : String)
  /-- A value was given for a property that the schema does not declare. -/
  | unknownProperty (property : String)
  /-- A name is not a plain identifier. -/
  | invalidIdentifier (identifier : String)
  /-- An attribute has more than one dot. -/
  | nestingTooDeep (attr : String)
  /-- The part of an attribute before its dot names no join filter. -/
  | unknownJoinFilter (name attr : String)
  /-- An attribute names neither a property nor a join filter. -/
  | unknownAttribute (attr table : String)
  /-- Two join filters, or a join filter and a property, have one name. -/
  | duplicateJoinFilter (name : String)
  /-- A page lies outside the limits. -/
  | invalidPaging (reason : String)
  /-- An operand does not fit its operator. -/
  | invalidOperand (attr operator reason : String)
  /-- A schema declares a name twice. -/
  | duplicateProperty (name : String)
  /-- A table's schema has no primary key. -/
  | missingPrimaryKey (table : String)
  /-- Tables cannot be locked inside a transaction. -/
  | lockWhileTransactional (target : String)
  /-- A unit without connection was given to a connection transaction. -/
  | missingConnection
  /-- A scheme knows no way to make transactions of a capability. -/
  | unregisteredCapability (capability : String)
  /-- The database gave up a transaction. -/
  | rolledBack (reason : String)
  /-- A save was asked to go back to an earlier phase. -/
  | invalidStateTransition (source target : String)
  /-- A commit failed after `committed` others of the same chain had succeeded. -/
  | partialCommit (committed failedAt total : Nat) (source : StoreError)
  /-- No connection to the database could be made. -/
  | connectionFailed (backend reason : String)
  /-- No connection became free in time. -/
  | poolExhausted (backend : String)
  /-- The database reported an error of its own. -/
  | internal (backend reason : String)
  /-- A statement failed. -/
  | queryFailed (reason : String)
  deriving DecidableEq, Repr, Inhabited

namespace StoreError

def category : StoreError → ErrorCategory
  | notFound .. => .resource
  | missingRequiredProperty _ | unknownProperty _ => .validation
  | invalidIdentifier _ | nestingTooDeep _ | unknownJoinFilter .. | unknownAttribute ..
  | duplicateJoinFilter _ | invalidPaging _ | invalidOperand .. | duplicateProperty _
  | missingPrimaryKey _ | lockWhileTransactional _ | missingConnection
  | unregisteredCapability _ => .configuration
  | rolledBack _ | invalidStateTransition .. | partialCommit .. => .transaction
  | connectionFailed .. | poolExhausted _ | internal .. | queryFailed _ => .backend

/-- A failure found before anything was written. -/
def isValidation (e : StoreError) : Bool := e.category = .validation

/-- The report of a missing row. -/
def isNotFound : StoreError → Bool
  | notFound .. => true
  | _ => false

/-- A mistake of the program, which no repetition mends. -/
def isConfiguration (e : StoreError) : Bool := e.category = .configuration

/-- The text of an error. -/
def message : StoreError → String
  | notFound table id => s!"row not found: {table}/{id}"
  | missingRequiredProperty property => s!"missing required property: {property}"
  | unknownProperty property => s!"unknown property: {property}"
  | invalidIdentifier identifier => s!"invalid identifier: '{identifier}'"
  | nestingTooDeep attr => s!"attribute '{attr}' nests deeper than one level"
  | unknownJoinFilter name attr =>
    s!"no join filter registered under '{name}' (attribute '{attr}')"
  | unknownAttribute attr table => s!"unknown attribute '{attr}' for table {table}"
  | duplicateJoinFilter name => s!"join filter '{name}' is already registered"
  | invalidPaging reason => s!"invalid paging: {reason}"
  | invalidOperand attr operator reason =>
    s!"operator '{operator}' cannot be applied to {attr}: {reason}"
  | duplicateProperty name => s!"property '{name}' is declared twice"
  | missingPrimaryKey table => s!"property set for {table} declares no primary key"
  | lockWhileTransactional target => s!"cannot lock {target} while a transaction is open"
  | missingConnection => "unit of work has no connection"
  | unregisteredCapability capability =>
    s!"transaction factory has no constructor for capability '{capability}'"
  | rolledBack reason => s!"transaction rolled back: {reason}"
  | invalidStateTransition source target =>
    s!"invalid save state transition: {source} -> {target}"
  | partialCommit committed failedAt total _ =>
    s!"commit {failedAt} of {total} failed after {committed} transaction(s) were committed"
  | connectionFailed backend reason => s!"connection failed to {backend}: {reason}"
  | poolExhausted backend => s!"connection pool exhausted for {backend}"
  | internal backend reason => s!"internal error in {backend}: {reason}"
  | queryFailed reason => s!"query execution failed: {reason}"

end StoreError

end RecordStore
