import RecordStore.Paging

/-!
# Searches

A `Search` describes which rows are wanted: which attributes, under which conditions, in which
order and on which page. It is plain data; names and operands are checked when it is compiled.

Conditions form two blocks, those that must all hold and those of which one must hold. Each
condition lies in a *bucket*, named by its block, its operator and its attribute. Setting a
condition whose bucket is occupied replaces the operand and keeps the place.
-/

namespace RecordStore

/-- How an attribute is compared with an operand. -/
inductive Operator where
  | eq
  | ne
  | gt
  | ge
  | lt
  | le
  | like
  | oneOf
  deriving DecidableEq, Inhabited

namespace Operator

/-- The operator in SQL. -/
def sql : Operator → String
  | eq => "="
  | ne => "!="
  | gt => ">"
  | ge => ">="
  | lt => "<"
  | le => "<="
  | like => "LIKE"
  | oneOf => "IN"

/-- The operator of an SQL spelling; the case of ASCII letters does not matter. -/
def parse (s : String) : Except StoreError Operator :=
  match s.toLower with
  | "=" => .ok eq
  | "!=" => .ok ne
  | "<>" => .ok ne
  | ">" => .ok gt
  | ">=" => .ok ge
  | "<" => .ok lt
  | "<=" => .ok le
  | "like" => .ok like
  | "in" => .ok oneOf
  | _ => .error (.invalidOperand "" s "unknown operator")

/-- The names of the operators in stored forms. -/
def names : List (String × Operator) :=
  [("eq", eq), ("ne", ne), ("gt", gt), ("ge", ge), ("lt", lt), ("le", le), ("like", like),
    ("in", oneOf)]

def storedName : Operator → String
  | eq => "eq"
  | ne => "ne"
  | gt => "gt"
  | ge => "ge"
  | lt => "lt"
  | le => "le"
  | like => "like"
  | oneOf => "in"

end Operator

/-- The block of a condition: all of the `and` block must hold, or one of the `or` block. -/
inductive Block where
  | and
  | or
  deriving DecidableEq, Inhabited

namespace Block

def names : List (String × Block) := [("and", and), ("or", or)]

def storedName : Block → String
  | and => "and"
  | or => "or"

end Block

/-- One condition of a search. -/
structure Condition where
  /-- A property, the name of a join filter, or `filter.sub`. -/
  attr : String
  operator : Operator
  /-- What the attribute is compared with; a list for `oneOf`. -/
  operand : Value
  block : Block
  deriving Inhabited

inductive Direction where
  | asc
  | desc
  deriving DecidableEq, Inhabited

namespace Direction

def sql : Direction → String
  | asc => "ASC"
  | desc => "DESC"

def names : List (String × Direction) := [("asc", asc), ("desc", desc)]

def storedName : Direction → String
  | asc => "asc"
  | desc => "desc"

end Direction

/-- An attribute to sort by. -/
structure SortKey where
  attr : String
  direction : Direction
  deriving DecidableEq, Inhabited

/-- The description of a search. -/
structure Search where
  /-- The selected attributes; none stands for all columns of the table. -/
  selection : Option (List String) := none
  conditions : List Condition := []
  paging : Paging := .default
  order : List SortKey := []
  /-- The attributes that, with the primary key, tell result entities apart. -/
  groups : List String := []
  deriving Inhabited

namespace Condition

/-- Whether a condition lies in the bucket of this block, operator and attribute. -/
def isIn (block : Block) (operator : Operator) (attr : String) (c : Condition) : Bool :=
  c.block = block && c.operator = operator && c.attr = attr

end Condition

namespace Search

/-- Replaces the operand of the first condition in the bucket of `new`, or appends `new`. -/
def upsert (new : Condition) : List Condition → List Condition
  | [] => [new]
  | c :: rest =>
    if c.isIn new.block new.operator new.attr then { c with operand := new.operand } :: rest
    else c :: upsert new rest

/-- Sets a condition. -/
def inBlock (s : Search) (block : Block) (attr : String) (operator : Operator)
    (operand : Value) : Search :=
  { s with conditions := upsert ⟨attr, operator, operand, block⟩ s.conditions }

/-- Requires `attr operator operand`. -/
def require (s : Search) (attr : String) (operator : Operator) (operand : Value) : Search :=
  s.inBlock .and attr operator operand

/-- Requires `attr = operand`. -/
def requireEq (s : Search) (attr : String) (operand : Value) : Search :=
  s.require attr .eq operand

/-- Requires the attribute to have one of these values. -/
def requireIn (s : Search) (attr : String) (operands : List Value) : Search :=
  s.inBlock .and attr .oneOf (.array operands)

/-- Allows `attr operator operand`. -/
def allow (s : Search) (attr : String) (operator : Operator) (operand : Value) : Search :=
  s.inBlock .or attr operator operand

/-- Allows `attr = operand`. -/
def allowEq (s : Search) (attr : String) (operand : Value) : Search := s.allow attr .eq operand

/-- Allows the attribute to have one of these values. -/
def allowIn (s : Search) (attr : String) (operands : List Value) : Search :=
  s.inBlock .or attr .oneOf (.array operands)

/-- Selects these attributes only. -/
def select (s : Search) (attrs : List String) : Search := { s with selection := some attrs }

/-- Selects all columns again. -/
def selectAll (s : Search) : Search := { s with selection := none }

/-- Asks for a page, counted from one. -/
def onPage (s : Search) (number size : Nat) : Search := { s with paging := .page ⟨number, size⟩ }

/-- Asks for all rows. -/
def unlimited (s : Search) : Search := { s with paging := .unlimited }

/-- Sorts by an attribute, after those named so far. -/
def sortBy (s : Search) (attr : String) (direction : Direction) : Search :=
  { s with order := s.order ++ [⟨attr, direction⟩] }

/-- Sets the attributes that tell entities apart. -/
def groupBy (s : Search) (attrs : List String) : Search := { s with groups := attrs }

/-- The conditions of one block, in their order. -/
def conditionsIn (s : Search) (block : Block) : List Condition :=
  s.conditions.filter (·.block = block)

end Search

end RecordStore
