import RecordStore.Search.Basic

/-!
# Stored searches

The form in which a search is kept: an object with the fields `attributes`, `conditions`, `paging`,
`order` and `entity_groups`. Operators, blocks and directions are lower-case words. A search that
was read back may hold several conditions of one bucket, as the stored list is taken as it is.
-/

namespace RecordStore

namespace Condition

def toStored (c : Condition) : Value :=
  .ofFields [("attribute", .string c.attr), ("operator", .string c.operator.storedName),
    ("value", c.operand), ("conjunction", .string c.block.storedName)]

def ofStored : Reader Condition := fun v => do
  let f ← Reader.fields ["attribute", "operator", "value", "conjunction"] v
  return {
    attr := ← f.required "attribute" .text
    operator := ← f.required "operator" (.choice Operator.names)
    operand := ← f.required "value" .any
    block := ← f.required "conjunction" (.choice Block.names) }

/-- Equality of conditions, operands compared as JSON values. -/
def same (c d : Condition) : Bool :=
  c.attr = d.attr && c.operator = d.operator && c.operand == d.operand
    && c.block = d.block

end Condition

namespace SortKey

def toStored (c : SortKey) : Value :=
  .ofFields [("attribute", .string c.attr), ("direction", .string c.direction.storedName)]

def ofStored : Reader SortKey := fun v => do
  let f ← Reader.fields ["attribute", "direction"] v
  return {
    attr := ← f.required "attribute" .text
    direction := ← f.required "direction" (.choice Direction.names) }

end SortKey

namespace Search

def toStored (s : Search) : Value :=
  .ofFields [
    ("attributes", (s.selection.map Value.strings).getD .null),
    ("conditions", .array (s.conditions.map (·.toStored))),
    ("paging", s.paging.toStored),
    ("order", .array (s.order.map (·.toStored))),
    ("entity_groups", .strings s.groups)]

def ofStored : Reader Search := fun v => do
  let f ← Reader.fields ["attributes", "conditions", "paging", "order", "entity_groups"] v
  return {
    selection := ← f.optional "attributes" (.listOf .text)
    conditions := ← f.required "conditions" (.listOf Condition.ofStored)
    paging := ← f.required "paging" Paging.ofStored
    order := ← f.required "order" (.listOf SortKey.ofStored)
    groups := ← f.required "entity_groups" (.listOf .text) }

/-- Equality of searches, operands compared as JSON values. -/
def same (s t : Search) : Bool :=
  s.selection = t.selection
    && s.conditions.length = t.conditions.length
    && (s.conditions.zip t.conditions).all (fun p => p.1.same p.2)
    && s.paging = t.paging && s.order = t.order && s.groups = t.groups

end Search

end RecordStore
