import RecordStore.Json.Text

/-!
# Folding rows into entities

A joined row source repeats an entity once per joined row. Rows that agree in all key columns are
merged column by column, later values replacing earlier ones; entities come in the order of their
first row. A missing key column counts as null, and keys agree when their JSON texts do.
-/

namespace RecordStore

/-- The text that tells entities apart: the values of the key columns, as a JSON list. -/
def foldKey (columns : List String) (row : Row) : String :=
  (Value.array (columns.map row.getOrNull)).text

/-- Adds a row to the entities found so far. -/
def foldRow (columns : List String) (entities : List (String × Row)) (row : Row) :
    List (String × Row) :=
  let key := foldKey columns row
  if entities.any (·.1 = key) then
    entities.map fun entity => if entity.1 = key then (key, entity.2.merge row) else entity
  else entities ++ [(key, row)]

/-- Merges the rows that agree in the key columns and the group columns. -/
def foldEntities (keys groups : List String) (rows : List Row) : List Row :=
  (rows.foldl (foldRow (keys ++ groups)) []).map (·.2)

end RecordStore
