import RecordStore.Scenario.Setup
import RecordStore.Search.Compiler
import RecordStore.Search.Stored

/-!
# Schemas and searches in scenarios

A schema is written as its properties and the groups embedded in it, a search as the calls that
build it; either may also be given in its stored form. A join filter is written as its kind with
the data of that kind, and a query compiler as a table with a schema, filters and limits.
-/

namespace RecordStore.Scenario

/-- Reads a property: its name and its flags. -/
def readProperty (v : Value) : Setup Property := do
  match ← readTexts v with
  | name :: flags =>
    return { name, isKey := flags.contains "pk", isRequired := flags.contains "req" }
  | [] => malformed "property"

/-- Adds an embedded group: what its columns begin with, and its properties. -/
def readEmbedded (set : Schema) (v : Value) : Setup Schema := do
  let entry ← readItems v
  accept (set.embed (← textItem entry 0) (← readList readProperty (← item entry 1)))

def readSchema (v : Value) : Setup Schema := do
  match v.field? "json" with
  | some form =>
    match Schema.ofList (← stored Schema.ofStored form) with
    | .ok set => return set
    | .error e => .error (.refusedSchema e)
  | none =>
    let set ← accept (Schema.ofList (← listField v "props" readProperty))
    (← listField v "embed" pure).foldlM readEmbedded set

/-- Reads a pair of texts. -/
def readPair (v : Value) : Setup (String × String) := do
  let items ← readItems v
  return (← textItem items 0, ← textItem items 1)

/-- A filter of an application's own, which answers every property with one text, followed by the
    property in brackets and, if it binds a value, by the placeholder. -/
def customFilter (name expr : String) (join : Option (String × String)) (bound : Option Value) :
    JoinFilter :=
  .custom name join.isSome {} fun sub => do
    match join with
    | some (joinName, clause) => Compilation.addClause joinName (.text clause)
    | none => pure ()
    let mark ← match bound with
      | some value => placeholder <$> Compilation.bind (.ofValue value)
      | none => pure ""
    return .text (expr ++ "[" ++ sub.getD "-" ++ "]" ++ mark)

/-- Reads a join filter for entities of this schema. -/
def readFilter (entity : Schema) (v : Value) : Setup JoinFilter := do
  let text := textField v
  match ← text "kind" with
  | "embedded" => do
    let schema ← readSchema (← field v "schema")
    return .embedded (← accept (EmbeddedFilter.make (← text "name") (← text "prefix") schema))
  | "from_entity" =>
    return .embedded (← accept (EmbeddedFilter.ofEntity entity (← text "prefix")))
  | "foreign" => do
    let schema ← readSchema (← field v "schema")
    let f ← accept (ForeignFilter.make (← text "name") (← text "table") (← text "entity_id")
      (← text "target_id") schema)
    let f ← fieldOr v "disc" f fun disc => do
      let disc ← readItems disc
      accept (f.discriminatedBy (← textItem disc 0) (← item disc 1))
    return .foreign (if ← fieldOr v "optional" false readFlag then f.optional else f)
  | "custom" =>
    return customFilter (← text "name") (← text "expr") (← optionalField v "join" readPair)
      (v.field? "bind")
  | other => malformed other

/-- Reads the limits of searches, if there are any. -/
def readLimits (v : Value) : Setup (Option SearchLimits) :=
  optionalField v "config" (stored SearchLimits.ofStored)

/-- Adds a call to a search. -/
def readCall (s : Search) (v : Value) : Setup Search := do
  let (call, args) ← readStepHead v
  let text := textItem args
  let operator (i : Nat) : Setup Operator := do accept (Operator.parse (← text i))
  match call with
  | "and" => return s.requireEq (← text 0) (← item args 1)
  | "or" => return s.allowEq (← text 0) (← item args 1)
  | "and_op" => return s.require (← text 0) (← operator 1) (← item args 2)
  | "or_op" => return s.allow (← text 0) (← operator 1) (← item args 2)
  | "and_in" => return s.requireIn (← text 0) (← readItems (← item args 1))
  | "or_in" => return s.allowIn (← text 0) (← readItems (← item args 1))
  | "attributes" => return s.select (← readTexts (← item args 0))
  | "all_attributes" => return s.selectAll
  | "page" => return s.onPage (← natItem args 0) (← natItem args 1)
  | "without_limit" => return s.unlimited
  | "order_by" => return s.sortBy (← text 0) (if (← text 1) = "desc" then .desc else .asc)
  | "entity_groups" => return s.groupBy (← readTexts (← item args 0))
  | other => malformed other

def readSearch (v : Value) : Setup Search :=
  match v.field? "json" with
  | some form => stored Search.ofStored form
  | none => do (← readItems v).foldlM readCall {}

def readCompiler (v : Value) : Setup QueryCompiler := do
  let schema ← readSchema (← field v "schema")
  let c ← accept (QueryCompiler.make (← textField v "table") schema)
  let c ← (← listField v "filters" pure).foldlM (fun (c : QueryCompiler) f => do
    accept (c.addFilter (← readFilter schema f))) c
  match ← readLimits v with
  | some limits => return c.withLimits limits
  | none => return c

end RecordStore.Scenario
