import RecordStore.Scenario.Setup

/-!
# Errors in scenarios

A scenario can ask for any error to be raised: it names the cause and gives its data as fields.
-/

namespace RecordStore.Scenario

/-- Reads an error, with a budget of nested errors. -/
def readErrorWithin : Nat → Value → Setup StoreError
  | 0, _ => malformed "error"
  | budget + 1, v => do
    let text := textField v
    let nat (name : String) : Setup Nat := do readNat (← field v name)
    match ← text "kind" with
    | "NotFound" => return .notFound (← text "table") (← text "id")
    | "MissingRequiredProperty" => return .missingRequiredProperty (← text "property")
    | "UnknownProperty" => return .unknownProperty (← text "property")
    | "InvalidIdentifier" => return .invalidIdentifier (← text "identifier")
    | "NestingTooDeep" => return .nestingTooDeep (← text "attribute")
    | "UnknownJoinFilter" => return .unknownJoinFilter (← text "name") (← text "attribute")
    | "UnknownAttribute" => return .unknownAttribute (← text "attribute") (← text "table")
    | "DuplicateJoinFilter" => return .duplicateJoinFilter (← text "name")
    | "InvalidPaging" => return .invalidPaging (← text "message")
    | "InvalidOperand" =>
      return .invalidOperand (← text "attribute") (← text "operator") (← text "message")
    | "DuplicateProperty" => return .duplicateProperty (← text "name")
    | "MissingPrimaryKey" => return .missingPrimaryKey (← text "table")
    | "LockWhileTransactional" => return .lockWhileTransactional (← text "target")
    | "MissingConnection" => return .missingConnection
    | "UnregisteredCapability" => return .unregisteredCapability (← text "capability")
    | "RolledBack" => return .rolledBack (← text "reason")
    | "InvalidStateTransition" => return .invalidStateTransition (← text "from") (← text "to")
    | "PartialChainFailure" =>
      return .partialCommit (← nat "committed") (← nat "failed_at") (← nat "total")
        (← readErrorWithin budget (← field v "source"))
    | "ConnectionFailed" => return .connectionFailed (← text "backend_name") (← text "message")
    | "PoolExhausted" => return .poolExhausted (← text "backend_name")
    | "Internal" => return .internal (← text "backend_name") (← text "message")
    | "QueryError" => return .queryFailed (← text "message")
    | other => malformed other

/-- Reads an error. -/
def readError : Value → Setup StoreError := readNested readErrorWithin

end RecordStore.Scenario
