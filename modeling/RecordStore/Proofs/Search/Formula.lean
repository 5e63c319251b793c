import RecordStore.Proofs.Search.Tokens

/-!
# Reading a condition

How SQL reads the tokens of a condition (`Reads`). A comparison, `IS [NOT] NULL`, `LIKE` and `IN`
bind tighter than `AND`, which binds tighter than `OR`; chains of one connective associate to the
left, and parentheses group. What is read is a formula over predicates on columns and values.

There is at most one reading (`Reads.unique`): every reading is the one that a parser finds which
goes over the tokens once and keeps the groups that are open on a stack (`Reads.found`).

A formula has one of three truth values, given those of its predicates (`Formula.truth`); only a
comparison of two numbers is decided by itself.
-/

namespace RecordStore

variable {α : Type}

/-! ### Truth values -/

/-- The truth values of SQL. -/
inductive Truth where
  | no
  | unknown
  | yes
  deriving DecidableEq

namespace Truth

/-- The truth value of two conditions joined by `AND` or `OR`. -/
def join : Block → Truth → Truth → Truth
  | .and, yes, t => t
  | .and, no, _ | .and, unknown, no => no
  | .and, unknown, _ => unknown
  | .or, no, t => t
  | .or, yes, _ | .or, unknown, yes => yes
  | .or, unknown, _ => unknown

/-- The truth value that makes no difference. -/
def neutral : Block → Truth
  | .and => yes
  | .or => no

/-- The truth value of any number of conditions. -/
def joinAll (b : Block) (ts : List Truth) : Truth := ts.foldr (join b) (neutral b)

@[simp]
theorem join_neutral (b : Block) (t : Truth) : join b t (neutral b) = t := by
  cases b <;> cases t <;> rfl

theorem join_assoc (b : Block) (t u w : Truth) : join b (join b t u) w = join b t (join b u w) := by
  cases b <;> cases t <;> cases u <;> cases w <;> rfl

end Truth

/-! ### Formulas -/

/-- What a predicate is about: a column, a value in the place of a placeholder, a number. -/
inductive Term (α : Type) where
  | column (qualifier name : String)
  | value (a : α)
  | number (n : Nat)
  deriving DecidableEq

/-- A predicate without connectives. -/
inductive Atom (α : Type) where
  | compare (left : Term α) (operator : Operator) (right : Term α)
  | isNull (x : Term α)
  | isNotNull (x : Term α)
  | isIn (x : Term α) (items : List (Term α))
  deriving DecidableEq

/-- Predicates with connectives between them. -/
inductive Formula (α : Type) where
  | atom (a : Atom α)
  | join (b : Block) (f g : Formula α)
  deriving DecidableEq

/-- The truth value of a comparison of two numbers. -/
def Atom.decided? : Atom α → Option Truth
  | compare (.number m) .eq (.number n) => some (if m = n then .yes else .no)
  | _ => none

namespace Formula

/-- The truth value of a formula, given those of its predicates. -/
def truth (v : Atom α → Truth) : Formula α → Truth
  | atom a => a.decided?.getD (v a)
  | join b f g => Truth.join b (f.truth v) (g.truth v)

/-- The predicates that a formula depends on, in their order. -/
def predicates : Formula α → List (Atom α)
  | atom a => if a.decided?.isSome then [] else [a]
  | join _ f g => f.predicates ++ g.predicates

/-- A chain of one connective means what its links mean together. -/
theorem truth_chain (v : Atom α → Truth) (b : Block) (f : Formula α) (fs : List (Formula α)) :
    (fs.foldl (join b) f).truth v = Truth.joinAll b ((f :: fs).map (truth v)) := by
  induction fs generalizing f with
  | nil => simp [Truth.joinAll]
  | cons g fs ih =>
    rw [List.foldl_cons, ih]
    simp only [List.map_cons, Truth.joinAll, List.foldr_cons, truth, Truth.join_assoc]

theorem predicates_chain (b : Block) (f : Formula α) (fs : List (Formula α)) :
    (fs.foldl (join b) f).predicates = (f :: fs).flatMap predicates := by
  induction fs generalizing f with
  | nil => simp
  | cons g fs ih =>
    rw [List.foldl_cons, ih]
    simp [predicates]

end Formula

/-! ### The grammar -/

namespace Token

/-- What a token stands for in a predicate. -/
def term? : Token α → Option (Term α)
  | column qualifier name => some (.column qualifier name)
  | slot a => some (.value a)
  | word text =>
    if !text.toList.isEmpty && text.toList.all Char.isDigit then
      some (.number (Nat.ofDigitChars 10 text.toList 0))
    else none
  | _ => none

/-- The comparison that a token stands for. -/
def comparison? : Token α → Option Operator
  | sign text => [.eq, .ne, .gt, .ge, .lt, .le].find? (·.sql = text)
  | word text => if text = Operator.like.sql then some .like else none
  | _ => none

end Token

/-- The tokens of one predicate. -/
inductive ReadsAtom : List (Token α) → Atom α → Prop
  | compare {l t r : Token α} {x y : Term α} {operator : Operator} (hl : l.term? = some x)
      (ht : t.comparison? = some operator) (hr : r.term? = some y) :
      ReadsAtom [l, t, r] (.compare x operator y)
  | isNull {l : Token α} {x : Term α} (hl : l.term? = some x) :
      ReadsAtom [l, .word "IS", .word "NULL"] (.isNull x)
  | isNotNull {l : Token α} {x : Term α} (hl : l.term? = some x) :
      ReadsAtom [l, .word "IS", .word "NOT", .word "NULL"] (.isNotNull x)
  | isIn {l : Token α} {x : Term α} {items : List (Token α)} {xs : List (Term α)}
      (hl : l.term? = some x) (hempty : items ≠ [])
      (hitems : List.Forall₂ (fun t y => t.term? = some y) items xs) :
      ReadsAtom ([l, .word "IN", .mark '('] ++ [.mark ','].intercalate (items.map ([·]))
        ++ [.mark ')']) (.isIn x xs)

/-- What is read as a whole: a predicate or a group, or a chain of one connective. -/
inductive Level where
  | factor
  | chain (b : Block)

/-- The word for a connective. -/
def Block.word : Block → String
  | .and => "AND"
  | .or => "OR"

/-- The links of a chain, which bind tighter than its connective. -/
def Block.link : Block → Level
  | .and => .factor
  | .or => .chain .and

/-- The readings of a condition. -/
inductive Reads : Level → List (Token α) → Formula α → Prop
  | atom {ts : List (Token α)} {a : Atom α} (h : ReadsAtom ts a) : Reads .factor ts (.atom a)
  | group {ts : List (Token α)} {f : Formula α} (h : Reads (.chain .or) ts f) :
      Reads .factor ([.mark '('] ++ ts ++ [.mark ')']) f
  | link {b : Block} {ts : List (Token α)} {f : Formula α} (h : Reads b.link ts f) :
      Reads (.chain b) ts f
  | join {b : Block} {ts us : List (Token α)} {f g : Formula α} (hf : Reads (.chain b) ts f)
      (hg : Reads b.link us g) : Reads (.chain b) (ts ++ [.word b.word] ++ us) (.join b f g)

/-- What is read as one factor can be a link of any chain. -/
theorem Reads.toLink {ts : List (Token α)} {f : Formula α} (h : Reads .factor ts f) (b : Block) :
    Reads b.link ts f := by
  cases b with
  | and => exact h
  | or => exact .link h

/-- A chain of any connective is a condition. -/
theorem Reads.toCondition {b : Block} {ts : List (Token α)} {f : Formula α}
    (h : Reads (.chain b) ts f) : Reads (.chain .or) ts f := by
  cases b with
  | and => exact .link h
  | or => exact h

/-- Links with a connective between them are read as a chain. -/
theorem Reads.chain {b : Block} {ts : List (Token α)} {f : Formula α}
    {tss : List (List (Token α))} {fs : List (Formula α)} (hf : Reads b.link ts f)
    (hfs : List.Forall₂ (Reads b.link) tss fs) :
    Reads (.chain b) ([.word b.word].intercalate (ts :: tss)) (fs.foldl (.join b) f) := by
  rw [intercalate_cons]
  replace hf := Reads.link hf
  induction hfs generalizing ts f with
  | nil => simpa using hf
  | cons hnext _ ih =>
    rw [List.flatMap_cons, List.foldl_cons, ← List.append_assoc, ← List.append_assoc]
    exact ih (hf.join hnext)

/-! ### The parser -/

/-- The connectives of a group that wait for their right side, with what is on their left. -/
structure Group (α : Type) where
  disjunct : Option (Formula α) := none
  conjunct : Option (Formula α) := none

namespace Group

/-- The formula, behind what is waiting for it at an `AND`. -/
def conjoin (group : Group α) (f : Formula α) : Formula α :=
  group.conjunct.elim f (.join .and · f)

/-- The whole group that ends with the formula. -/
def close (group : Group α) (f : Formula α) : Formula α :=
  group.disjunct.elim (group.conjoin f) (.join .or · (group.conjoin f))

end Group

/-- Where in a factor the parser is. -/
inductive Point (α : Type) where
  | start
  | term (x : Term α)
  | comparison (x : Term α) (operator : Operator)
  | is (x : Term α)
  | isNot (x : Term α)
  | isIn (x : Term α)
  | item (x : Term α) (items : List (Term α))
  | items (x : Term α) (items : List (Term α))
  | formula (f : Formula α)

/-- The state of the parser: what it has of the factor, of the group around it, and of the groups
    around that one. -/
structure Parser (α : Type) where
  point : Point α := .start
  group : Group α := {}
  outer : List (Group α) := []

namespace Parser

/-- Reads on in the factor. -/
def goOn (r : Parser α) (point : Point α) : Option (Parser α) := some { r with point }

/-- Reads one token. -/
def step (r : Parser α) (t : Token α) : Option (Parser α) :=
  match r.point with
  | .start =>
    match t.term? with
    | some x => r.goOn (.term x)
    | none =>
      match t with
      | .mark '(' => some { outer := r.group :: r.outer }
      | _ => none
  | .term x =>
    match t.comparison? with
    | some operator => r.goOn (.comparison x operator)
    | none =>
      match t with
      | .word "IS" => r.goOn (.is x)
      | .word "IN" => r.goOn (.isIn x)
      | _ => none
  | .comparison x operator => t.term?.bind fun y => r.goOn (.formula (.atom (.compare x operator y)))
  | .is x =>
    match t with
    | .word "NULL" => r.goOn (.formula (.atom (.isNull x)))
    | .word "NOT" => r.goOn (.isNot x)
    | _ => none
  | .isNot x =>
    match t with
    | .word "NULL" => r.goOn (.formula (.atom (.isNotNull x)))
    | _ => none
  | .isIn x =>
    match t with
    | .mark '(' => r.goOn (.item x [])
    | _ => none
  | .item x items => t.term?.bind fun y => r.goOn (.items x (items ++ [y]))
  | .items x items =>
    match t with
    | .mark ',' => r.goOn (.item x items)
    | .mark ')' => r.goOn (.formula (.atom (.isIn x items)))
    | _ => none
  | .formula f =>
    match t, r.outer with
    | .word "AND", _ =>
      some { r with point := .start, group.conjunct := some (r.group.conjoin f) }
    | .word "OR", _ => some { r with point := .start, group := { disjunct := r.group.close f } }
    | .mark ')', group :: outer => some { point := .formula (r.group.close f), group, outer }
    | _, _ => none

/-- Reads tokens one after the other. -/
def run (r : Parser α) (ts : List (Token α)) : Option (Parser α) := ts.foldlM step r

theorem run_cons (r : Parser α) (t : Token α) (ts : List (Token α)) :
    r.run (t :: ts) = (r.step t).bind (·.run ts) := rfl

theorem run_append (r : Parser α) (ts us : List (Token α)) :
    r.run (ts ++ us) = (r.run ts).bind (·.run us) := List.foldlM_append

/-- The formula that has been read as a whole. -/
def result? (r : Parser α) : Option (Formula α) :=
  match r.point, r.outer with
  | .formula f, [] => some (r.group.close f)
  | _, _ => none

/-- Reads the tokens of a condition. -/
def parse (ts : List (Token α)) : Option (Formula α) := (run {} ts).bind result?

/-- The parser reads these tokens as this formula, whatever it has read before. -/
def Finds : Level → List (Token α) → Formula α → Prop
  | .factor, ts, f => ∀ group outer,
    run ⟨.start, group, outer⟩ ts = some ⟨.formula f, group, outer⟩
  | .chain .and, ts, f => ∀ disjunct outer, ∃ g conjunct,
    run ⟨.start, ⟨disjunct, none⟩, outer⟩ ts = some ⟨.formula g, ⟨disjunct, conjunct⟩, outer⟩ ∧
      Group.conjoin ⟨disjunct, conjunct⟩ g = f
  | .chain .or, ts, f => ∀ outer, ∃ g group,
    run ⟨.start, {}, outer⟩ ts = some ⟨.formula g, group, outer⟩ ∧ group.close g = f

end Parser

section Steps

variable {t : Token α} {x y : Term α} {group : Group α} {outer : List (Group α)}

theorem step_start (ht : t.term? = some x) :
    Parser.step ⟨.start, group, outer⟩ t = some ⟨.term x, group, outer⟩ := by
  unfold Parser.step
  simp only [ht, Parser.goOn]

theorem step_term {operator : Operator} (ht : t.comparison? = some operator) :
    Parser.step ⟨.term x, group, outer⟩ t = some ⟨.comparison x operator, group, outer⟩ := by
  unfold Parser.step
  simp only [ht, Parser.goOn]

theorem step_comparison {operator : Operator} (ht : t.term? = some y) :
    Parser.step ⟨.comparison x operator, group, outer⟩ t =
      some ⟨.formula (.atom (.compare x operator y)), group, outer⟩ := by
  unfold Parser.step
  simp only [ht, Parser.goOn, Option.bind_some]

theorem step_item {seen : List (Term α)} (ht : t.term? = some y) :
    Parser.step ⟨.item x seen, group, outer⟩ t = some ⟨.items x (seen ++ [y]), group, outer⟩ := by
  unfold Parser.step
  simp only [ht, Parser.goOn, Option.bind_some]

/-- The items of a list are read one after the other. -/
theorem run_items {items : List (Token α)} {ys : List (Term α)} (hempty : items ≠ [])
    (hitems : List.Forall₂ (fun t y => t.term? = some y) items ys) (seen : List (Term α)) :
    Parser.run ⟨.item x seen, group, outer⟩ ([.mark ','].intercalate (items.map ([·]))) =
      some ⟨.items x (seen ++ ys), group, outer⟩ := by
  induction hitems generalizing seen with
  | nil => exact absurd rfl hempty
  | @cons t y rest ys ht hrest ih =>
    cases rest with
    | nil =>
      cases hrest
      rw [List.map_singleton, List.intercalate_singleton, Parser.run_cons, step_item ht]
      rfl
    | cons next rest =>
      have hnext := ih (List.cons_ne_nil _ _) (seen ++ [y])
      rw [List.append_assoc] at hnext
      rw [List.map_cons, List.map_cons, List.intercalate_cons_cons, List.append_assoc,
        List.singleton_append, Parser.run_cons, step_item ht]
      exact hnext

end Steps

theorem ReadsAtom.found {ts : List (Token α)} {a : Atom α} (h : ReadsAtom ts a) :
    Parser.Finds .factor ts (.atom a) := by
  intro group outer
  cases h with
  | compare hl ht hr =>
    rw [Parser.run_cons, step_start hl, Option.bind_some, Parser.run_cons, step_term ht,
      Option.bind_some, Parser.run_cons, step_comparison hr]
    rfl
  | isNull hl | isNotNull hl =>
    rw [Parser.run_cons, step_start hl]
    rfl
  | isIn hl hempty hitems =>
    rw [List.append_assoc, Parser.run_append, Parser.run_cons, step_start hl]
    change (Parser.run ⟨.item _ [], group, outer⟩ _) = _
    rw [Parser.run_append, run_items hempty hitems]
    rfl

/-- Every reading is found. -/
theorem Reads.found {l : Level} {ts : List (Token α)} {f : Formula α} (h : Reads l ts f) :
    Parser.Finds l ts f := by
  -- By induction on the reading, for any groups that are open around it.
  induction h with
  | atom h => exact h.found
  | group _ ih =>
    intro group outer
    obtain ⟨g, inner, hrun, rfl⟩ := ih (group :: outer)
    rw [List.append_assoc, Parser.run_append]
    change (Parser.run ⟨.start, {}, group :: outer⟩ _) = _
    rw [Parser.run_append, hrun]
    rfl
  | @link b ts f _ ih =>
    cases b with
    | and => exact fun disjunct outer => ⟨f, none, ih ⟨disjunct, none⟩ outer, rfl⟩
    | or =>
      intro outer
      obtain ⟨g, conjunct, hrun, rfl⟩ := ih none outer
      exact ⟨g, _, hrun, rfl⟩
  | @join b ts us f g _ _ ihf ihg =>
    cases b with
    | and =>
      -- The left side waits at the `AND`; what waits at an `OR` before it stays there.
      intro disjunct outer
      obtain ⟨f', conjunct, hrun, rfl⟩ := ihf disjunct outer
      refine ⟨g, some (Group.conjoin ⟨disjunct, conjunct⟩ f'), ?_, rfl⟩
      rw [List.append_assoc, Parser.run_append, hrun, Option.bind_some, Parser.run_append]
      exact ihg _ outer
    | or =>
      -- The `OR` closes the chain of `AND`s on its left, and all of it waits for the next one.
      intro outer
      obtain ⟨f', group, hrun, rfl⟩ := ihf outer
      obtain ⟨g', conjunct, hrun', rfl⟩ := ihg (some (group.close f')) outer
      refine ⟨g', ⟨some (group.close f'), conjunct⟩, ?_, rfl⟩
      rw [List.append_assoc, Parser.run_append, hrun, Option.bind_some, Parser.run_append]
      exact hrun'

theorem Reads.parse_eq {ts : List (Token α)} {f : Formula α} (h : Reads (.chain .or) ts f) :
    Parser.parse ts = some f := by
  obtain ⟨g, group, hrun, rfl⟩ := h.found []
  rw [Parser.parse, hrun]
  rfl

/-- A condition is read in one way at most. -/
theorem Reads.unique {ts : List (Token α)} {f g : Formula α} (hf : Reads (.chain .or) ts f)
    (hg : Reads (.chain .or) ts g) : f = g :=
  Option.some.inj (hf.parse_eq.symm.trans hg.parse_eq)

/-- `AND` binds tighter than `OR`, on either side of it. -/
example : Parser.parse (tokensOf "e.a = ?1 OR e.b IS NULL AND e.c IN (?2, ?3) OR 0 = 1") =
    some (.join .or (.join .or (.atom (.compare (.column "e" "a") .eq (.value 1)))
      (.join .and (.atom (.isNull (.column "e" "b")))
        (.atom (.isIn (.column "e" "c") [.value 2, .value 3]))))
      (.atom (.compare (.number 0) .eq (.number 1)))) := by decide +kernel

end RecordStore
