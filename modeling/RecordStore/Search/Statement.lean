import RecordStore.Search.Basic
import RecordStore.Statement.Identifier
import RecordStore.Statement.Param

/-!
# Search statements

A compiled search is first a statement made of parts — columns, joins, predicates — and only then a
text. The parts name columns by the alias of their table; values appear as the numbers of their
placeholders. Two parts can hold arbitrary text, an expression and a join: those are what a join
filter of an application's own may contribute.

The row source is one table under the alias `e`. In the condition, the block of predicates that
must all hold and the block of which one must hold stand in parentheses of their own and are joined
by `OR`.
-/

namespace RecordStore

/-- The alias of the table that is searched. -/
def searchedAlias : String := "e"

/-- The expression for a column. -/
inductive Expr where
  | column (tableAlias name : String)
  | text (sql : String)
  deriving DecidableEq, Inhabited

namespace Expr

def sql : Expr → String
  | column tableAlias name => tableAlias ++ "." ++ name
  | text s => s

/-- A column under the alias of its table; both names are checked, the alias first. -/
def ofNames (tableAlias name : String) : Except StoreError Expr := do
  let tableAlias ← Identifier.check tableAlias
  let name ← Identifier.check name
  return column tableAlias name

end Expr

/-- An attribute that was resolved to a column. -/
structure Column where
  expr : Expr
  /-- The name of the column in the result. -/
  label : String
  /-- Whether it is a plain column of the searched table. -/
  isLocal : Bool
  deriving DecidableEq, Inhabited

namespace Column

/-- The column as an item of the selection; a label with a dot is quoted. -/
def itemText (c : Column) : String :=
  if '.' ∈ c.label.toList then c.expr.sql ++ " AS \"" ++ c.label ++ "\""
  else c.expr.sql ++ " AS " ++ c.label

end Column

/-- The join of one other table, on the equality of two columns and possibly of a third one with a
    bound value. -/
structure TableJoin where
  /-- Rows without a counterpart are kept. -/
  isOptional : Bool
  table : String
  tableAlias : String
  target : Expr
  entity : Expr
  discriminator : Option (Expr × Nat)
  deriving DecidableEq, Inhabited

/-- A join clause. -/
inductive Join where
  | table (join : TableJoin)
  | text (clause : String)
  deriving DecidableEq, Inhabited

namespace Join

def sql : Join → String
  | text clause => clause
  | table j =>
    (if j.isOptional then "LEFT JOIN " else "INNER JOIN ") ++ j.table ++ " AS " ++ j.tableAlias
      ++ " ON " ++ j.target.sql ++ " = " ++ j.entity.sql
      ++ match j.discriminator with
        | some (column, slot) => " AND " ++ column.sql ++ " = " ++ placeholder slot
        | none => ""

end Join

/-- A condition on one column. -/
inductive Predicate where
  | isNull (e : Expr)
  | isNotNull (e : Expr)
  /-- Membership in an empty list. -/
  | never
  | isIn (e : Expr) (slots : List Nat)
  | compare (e : Expr) (operator : Operator) (slot : Nat)
  deriving DecidableEq, Inhabited

namespace Predicate

def sql : Predicate → String
  | isNull e => e.sql ++ " IS NULL"
  | isNotNull e => e.sql ++ " IS NOT NULL"
  | never => "0 = 1"
  | isIn e slots => e.sql ++ " IN (" ++ ", ".intercalate (slots.map placeholder) ++ ")"
  | compare e operator slot => e.sql ++ " " ++ operator.sql ++ " " ++ placeholder slot

end Predicate

/-- The condition of a statement: all of the one block hold, or one of the other. -/
structure RowFilter where
  all : List Predicate := []
  any : List Predicate := []
  deriving DecidableEq, Inhabited

namespace RowFilter

/-- Predicates in parentheses, joined by a word; nothing if there are none. -/
def block (word : String) (ps : List Predicate) : Option String :=
  if ps.isEmpty then none else some ("(" ++ word.intercalate (ps.map (·.sql)) ++ ")")

def sql (f : RowFilter) : Option String :=
  match block " AND " f.all, block " OR " f.any with
  | some a, some o => some (a ++ " OR " ++ o)
  | some a, none => some a
  | none, some o => some o
  | none, none => none

/-- The clause with its keyword and the blank before it. -/
def clause (f : RowFilter) : String := (f.sql.map (" WHERE " ++ ·)).getD ""

end RowFilter

/-- An item of the selection. -/
inductive SelectItem where
  /-- All columns of the searched table. -/
  | everything
  | column (c : Column)
  deriving DecidableEq, Inhabited

namespace SelectItem

def sql : SelectItem → String
  | everything => searchedAlias ++ ".*"
  | column c => c.itemText

end SelectItem

/-- The statement of a search. -/
structure SelectStatement where
  items : List SelectItem
  table : String
  joins : List Join
  filter : RowFilter
  groupBy : List Expr
  orderBy : List (Expr × Direction)
  limit : Option Page
  deriving Inhabited

/-- The searched table with its joins and its condition. -/
def rowSource (table : String) (joins : List Join) (filter : RowFilter) : String :=
  table ++ " AS " ++ searchedAlias ++ String.join (joins.map (" " ++ ·.sql)) ++ filter.clause

namespace SelectStatement

def orderClause (order : List (Expr × Direction)) : String :=
  if order.isEmpty then ""
  else " ORDER BY " ++ ", ".intercalate (order.map fun (e, d) => e.sql ++ " " ++ d.sql)

def limitClause : Option Page → String
  | some page => " LIMIT " ++ toString page.offset ++ "," ++ toString page.size
  | none => ""

def sql (s : SelectStatement) : String :=
  "SELECT " ++ ", ".intercalate (s.items.map (·.sql)) ++ " FROM "
    ++ rowSource s.table s.joins s.filter
    ++ " GROUP BY " ++ ", ".intercalate (s.groupBy.map (·.sql))
    ++ orderClause s.orderBy ++ limitClause s.limit

end SelectStatement

/-- The statement that counts what a search finds. -/
structure CountStatement where
  table : String
  joins : List Join
  filter : RowFilter
  keys : List Expr
  deriving Inhabited

namespace CountStatement

/-- A join can repeat rows, so with one the distinct keys are counted, several of them through a
    selection of their own. -/
def sql (s : CountStatement) : String :=
  let source := rowSource s.table s.joins s.filter
  match s.joins, s.keys with
  | [], _ => "SELECT count(*) AS total FROM " ++ source
  | _, [key] => "SELECT count(DISTINCT " ++ key.sql ++ ") AS total FROM " ++ source
  | _, keys =>
    "SELECT count(*) AS total FROM (SELECT DISTINCT " ++ ", ".intercalate (keys.map (·.sql))
      ++ " FROM " ++ source ++ ")"

end CountStatement

end RecordStore
