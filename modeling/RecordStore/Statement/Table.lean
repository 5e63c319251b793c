import RecordStore.Statement.Param

/-!
# Statements on one table

The statements that write a row and look one up by its key. Placeholders are numbered from one in
the order in which they stand, so the parameters of a statement are the values of its columns in
that order.
-/

namespace RecordStore

/-- `column = ?n` for each column, numbering from `first`. -/
def bindColumns (first : Nat) : List String → List String
  | [] => []
  | column :: rest => (column ++ " = " ++ placeholder first) :: bindColumns (first + 1) rest

/-- The insertion of a row with values in these columns, in the order of their parameters. -/
structure InsertStatement where
  table : String
  columns : List String
  deriving DecidableEq, Repr

/-- A row without values takes the defaults of all its columns. -/
def InsertStatement.sql (s : InsertStatement) : String :=
  if s.columns.isEmpty then "INSERT INTO " ++ s.table ++ " DEFAULT VALUES"
  else
    let slots := (List.range s.columns.length).map fun i => placeholder (i + 1)
    "INSERT INTO " ++ s.table ++ " (" ++ ", ".intercalate s.columns ++ ") VALUES ("
      ++ ", ".intercalate slots ++ ")"

/-- The change of some columns of the row with a given key. The new values are bound before the
    values of the key. -/
structure UpdateStatement where
  table : String
  assigned : List String
  keys : List String
  deriving DecidableEq, Repr

def UpdateStatement.sql (s : UpdateStatement) : String :=
  "UPDATE " ++ s.table ++ " SET " ++ ", ".intercalate (bindColumns 1 s.assigned)
    ++ " WHERE " ++ " AND ".intercalate (bindColumns (s.assigned.length + 1) s.keys)

/-- The row with a given key. -/
structure LookupStatement where
  table : String
  keys : List String
  deriving DecidableEq, Repr

def LookupStatement.sql (s : LookupStatement) : String :=
  "SELECT * FROM " ++ s.table ++ " WHERE " ++ " AND ".intercalate (bindColumns 1 s.keys)
    ++ " LIMIT 1"

end RecordStore
