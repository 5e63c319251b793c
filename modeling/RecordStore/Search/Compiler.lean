import RecordStore.Search.Fold
import RecordStore.Search.JoinFilter
import RecordStore.Text.Describe

/-!
# Compiling searches

A `QueryCompiler` knows one table: its schema, its join filters and the limits of searches. It
turns a `Search` into a statement with bound values, or refuses it.

Attributes are resolved in a fixed order — keys that were not selected, selected attributes, entity
groups first of all, then the conditions that must all hold, those of which one must hold, and the
sort columns — which is also the order in which values are bound, joins emitted and errors found;
the page is checked before anything else.

The primary key is always part of the selection and of the grouping. A label is selected once, an
expression grouped once.
-/

namespace RecordStore

/-- An attribute as it is written in a search. -/
inductive Attribute where
  /-- A name without a dot. -/
  | plain (name : String)
  | dotted (name sub : String)
  /-- Two dots or more. -/
  | deeper
  deriving DecidableEq, Inhabited

/-- Splits an attribute at its dot. -/
def Attribute.ofText (s : String) : Attribute :=
  let cs := s.toList
  match cs.dropWhile (· ≠ '.') with
  | [] => plain s
  | _ :: sub =>
    if '.' ∈ sub then deeper
    else dotted (String.ofList (cs.takeWhile (· ≠ '.'))) (String.ofList sub)

/-- A compiled search or count. -/
structure Query (statement : Type) where
  statement : statement
  /-- The bound values, in the order of their placeholders. -/
  values : List Param
  /-- The columns of the result that identify an entity. -/
  uniqueId : List String
  /-- Further columns that tell result entities apart. -/
  groups : List String

/-- Folds the rows of a result into entities. -/
def Query.fold {statement : Type} (q : Query statement) (rows : List Row) : List Row :=
  foldEntities q.uniqueId q.groups rows

/-- The table that searches are compiled for. -/
structure QueryCompiler where
  table : String
  schema : Schema
  filters : List JoinFilter := []
  limits : SearchLimits := {}

namespace QueryCompiler

/-- The compiler for a table, whose schema needs a primary key. -/
def make (table : String) (schema : Schema) : Except StoreError QueryCompiler := do
  let table ← Identifier.check table
  if schema.keys.isEmpty then .error (.missingPrimaryKey table)
  else .ok { table, schema }

def withLimits (c : QueryCompiler) (limits : SearchLimits) : QueryCompiler := { c with limits }

/-- The filter of a name. -/
def filter? (c : QueryCompiler) (name : String) : Option JoinFilter :=
  c.filters.find? (·.name = name)

/-- Adds a filter, whose name must be neither a filter's nor a property's. -/
def addFilter (c : QueryCompiler) (f : JoinFilter) : Except StoreError QueryCompiler := do
  let name ← Identifier.check f.name
  if (c.filter? name).isSome || c.schema.contains name then
    .error (.duplicateJoinFilter name)
  else .ok { c with filters := c.filters ++ [f] }

/-- The columns of the primary key. -/
def keyColumns (c : QueryCompiler) : Except StoreError (List Column) :=
  c.schema.keys.mapM fun key => do
    let expr ← Expr.ofNames searchedAlias key
    return ⟨expr, key, true⟩

/-- The column that an attribute stands for. -/
def resolve (c : QueryCompiler) (attr : String) : Act Compilation Column :=
  match Attribute.ofText attr with
  | .plain name =>
    if c.schema.contains name then do
      let tableAlias ← Act.read (·.tableAlias)
      let expr ← Act.ofExcept (Expr.ofNames tableAlias name)
      return ⟨expr, name, true⟩
    else
      match c.filter? name with
      | some f => do return ⟨← f.column none, name, false⟩
      | none => Act.fail (.unknownAttribute attr c.table)
  | .dotted name sub =>
    match c.filter? name with
    | some f => do return ⟨← f.column (some sub), attr, false⟩
    | none => Act.fail (.unknownJoinFilter name attr)
  | .deeper => Act.fail (.nestingTooDeep attr)

/-- The predicate of a condition, whose operand must fit its operator. -/
def predicate (c : QueryCompiler) (cond : Condition) : Act Compilation Predicate := do
  let column ← c.resolve cond.attr
  let invalid (reason : String) : Act Compilation Predicate :=
    Act.fail (.invalidOperand cond.attr cond.operator.sql reason)
  match cond.operator, cond.operand with
  | .eq, .null => return .isNull column.expr
  | .ne, .null => return .isNotNull column.expr
  | .oneOf, .array [] => return .never
  | .oneOf, .array values => do
    let slots ← values.mapM fun v => Compilation.bind (.ofValue v)
    return .isIn column.expr slots
  | .oneOf, _ => invalid "expected a list of values"
  | _, .null => invalid "null only compares with = and !="
  | _, .array _ => invalid "expected a scalar value"
  | _, .object _ => invalid "expected a scalar value"
  | operator, value => do
    let slot ← Compilation.bind (.ofValue value)
    return .compare column.expr operator slot

/-- The condition of a search. -/
def rowFilter (c : QueryCompiler) (s : Search) : Act Compilation RowFilter := do
  let all ← (s.conditionsIn .and).mapM c.predicate
  let any ← (s.conditionsIn .or).mapM c.predicate
  return { all, any }

/-- Appends an expression that is not in the list. -/
def insertNew (exprs : List Expr) (e : Expr) : List Expr :=
  if exprs.any (·.sql = e.sql) then exprs else exprs ++ [e]

/-- The first column of every label. -/
def distinctLabels (columns : List Column) : List Column :=
  columns.foldl (fun kept c => if kept.any (·.label = c.label) then kept else kept ++ [c]) []

/-- The columns of an explicit selection: missing keys, the attributes, the groups. -/
def selectedColumns (c : QueryCompiler) (keys groups : List Column) (attrs : List String) :
    Act Compilation (List Column) := do
  let missing ← (keys.filter fun key => !attrs.contains key.label).mapM (c.resolve ·.label)
  let selected ← attrs.mapM c.resolve
  return distinctLabels (missing ++ selected ++ groups)

/-- The selection and the columns grouped by besides the primary key. -/
def selectList (c : QueryCompiler) (keys groups : List Column) :
    Option (List String) → Act Compilation (List SelectItem × List Column)
  | none =>
    return (.everything :: (groups.filter (!·.isLocal)).map .column, groups)
  | some attrs => do
    let columns ← c.selectedColumns keys groups attrs
    return (columns.map .column, columns)

/-- Compiles a search into its statement. -/
def selectStatement (c : QueryCompiler) (s : Search) :
    Act Compilation (SelectStatement × List Column) := do
  let limit ← Act.ofExcept (s.paging.resolve c.limits)
  let keys ← Act.ofExcept c.keyColumns
  let groups ← s.groups.mapM c.resolve
  let (items, grouped) ← c.selectList keys groups s.selection
  let filter ← c.rowFilter s
  let orderBy ← s.order.mapM fun o => do return ((← c.resolve o.attr).expr, o.direction)
  let joins ← Act.read fun ctx => ctx.joins.map (·.2)
  let groupBy := (grouped.map (·.expr)).foldl insertNew (keys.map (·.expr))
  return ({ items, table := c.table, joins, filter, groupBy, orderBy, limit }, keys)

/-- Compiles the count of what a search finds; only its conditions matter. -/
def countStatement (c : QueryCompiler) (s : Search) :
    Act Compilation (CountStatement × List Column) := do
  let keys ← Act.ofExcept c.keyColumns
  let filter ← c.rowFilter s
  let joins ← Act.read fun ctx => ctx.joins.map (·.2)
  return ({ table := c.table, joins, filter, keys := keys.map (·.expr) }, keys)

/-- Runs a compilation from an empty context. -/
def finish {statement : Type} (groups : List String)
    (act : Act Compilation (statement × List Column)) :
    Except StoreError (Query statement) :=
  match act.perform { tableAlias := searchedAlias } with
  | (.ok (statement, keys), ctx) =>
    .ok { statement, values := ctx.binder.params, uniqueId := keys.map (·.label), groups }
  | (.error e, _) => .error e

/-- Compiles a search. -/
def compile (c : QueryCompiler) (s : Search) :
    Except StoreError (Query SelectStatement) :=
  finish s.groups (c.selectStatement s)

/-- Compiles the count of what a search finds. -/
def compileCount (c : QueryCompiler) (s : Search) :
    Except StoreError (Query CountStatement) :=
  finish [] (c.countStatement s)

/-- The limits of searches in diagnostics. -/
def describeLimits (limits : SearchLimits) : String :=
  Describe.record "SearchConfig" [
    ("default_page_size", toString limits.defaultPageSize),
    ("max_page_size", toString limits.maxPageSize)]

/-- The compiler in diagnostics. -/
def describe (c : QueryCompiler) : String :=
  Describe.record "QueryGenerator" [
    ("table", Describe.string c.table),
    ("properties", Describe.string c.schema.text),
    ("filters", Describe.list ((c.filters.map (·.name)).mergeSort.map Describe.string)),
    ("config", describeLimits c.limits)]

end QueryCompiler

/-- A join filter in diagnostics. -/
def JoinFilter.describe (f : JoinFilter) : String :=
  Describe.record "JoinFilter" [
    ("name", Describe.string f.name), ("foreign", Describe.bool f.isForeign)]

end RecordStore
