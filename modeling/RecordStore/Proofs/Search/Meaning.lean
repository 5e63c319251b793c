import RecordStore.Proofs.Search.Clauses
import RecordStore.Proofs.Search.Compiler
import RecordStore.Proofs.Search.Formula

/-!
# What the condition of a search means

The text of a compiled search has a condition (`conditionOf`) exactly if the search has conditions.
With the bound values in the place of their placeholders, it is read as one formula
(`QueryCompiler.formula?`), and in no other way. Its predicates are those of the conditions of the
search, and its truth value is that of the search (`Search.truth`): all that is required holds, or
something that is allowed. A block without conditions is left out, and membership in an empty list
does not hold (`QueryCompiler.compile_condition_means`).
-/

namespace RecordStore

/-! ### The formula of a search -/

/-- What a value is in a predicate. -/
def Value.term (v : Value) : Term (Option Param) := .value (some (.ofValue v))

/-- The predicate on a term that a condition poses; membership in an empty list is none. -/
def Condition.atom? (cond : Condition) (x : Term (Option Param)) : Option (Atom (Option Param)) :=
  match cond.operator, cond.operand with
  | .eq, .null => some (.isNull x)
  | .ne, .null => some (.isNotNull x)
  | .oneOf, .array [] => none
  | .oneOf, .array values => some (.isIn x (values.map (·.term)))
  | operator, value => some (.compare x operator value.term)

/-- What a column is in a predicate. -/
def Expr.term? {α : Type} : Expr → Option (Term α)
  | column tableAlias name => some (.column tableAlias name)
  | text _ => none

/-- The truth value of a block, given those of its conditions, if it has any. -/
def Search.blockTruth? (s : Search) (t : Condition → Truth) (b : Block) : Option Truth :=
  match s.conditionsIn b with
  | [] => none
  | conds => some (Truth.joinAll b (conds.map t))

/-- The truth value of a search: that of its blocks, joined by `OR`. -/
def Search.truth (s : Search) (t : Condition → Truth) : Truth :=
  Truth.joinAll .or ([.and, .or].filterMap (s.blockTruth? t))

namespace QueryCompiler

variable (c : QueryCompiler)

/-- The predicate that a condition poses on the column of its attribute. -/
def atom? (cond : Condition) : Option (Atom (Option Param)) :=
  ((c.expr? cond.attr).bind (·.term?)).bind cond.atom?

/-- The truth value of a condition, given those of predicates; without a predicate it is false. -/
def truth (v : Atom (Option Param) → Truth) (cond : Condition) : Truth :=
  ((c.atom? cond).map v).getD .no

/-- The formula of a condition; what is never true is written `0 = 1`. -/
def formula (cond : Condition) : Formula (Option Param) :=
  .atom ((c.atom? cond).getD (.compare (.number 0) .eq (.number 1)))

/-- The formula of a block, if it has conditions. -/
def blockFormula? (b : Block) : List Condition → Option (Formula (Option Param))
  | [] => none
  | cond :: rest => some ((rest.map c.formula).foldl (.join b) (c.formula cond))

/-- The formula of a search, if it has conditions. -/
def formula? (s : Search) : Option (Formula (Option Param)) :=
  match c.blockFormula? .and (s.conditionsIn .and), c.blockFormula? .or (s.conditionsIn .or) with
  | some f, some g => some (.join .or f g)
  | some f, none => some f
  | none, some g => some g
  | none, none => none

end QueryCompiler

/-! ### What the formula means -/

/-- Values are not numbers of the text: only the database compares them. -/
theorem Atom.decided?_compare_value {α : Type} (x : Term α) (operator : Operator) (a : α) :
    (compare x operator (.value a)).decided? = none := by
  cases x <;> cases operator <;> rfl

theorem Condition.decided?_of_atom? {cond : Condition} {x : Term (Option Param)}
    {a : Atom (Option Param)} (h : cond.atom? x = some a) : a.decided? = none := by
  unfold atom? at h
  split at h <;> cases h
  · rfl
  · rfl
  · rfl
  · exact Atom.decided?_compare_value ..

/-- Only membership in an empty list is no predicate. -/
theorem Condition.atom?_eq_none_iff {cond : Condition} {x : Term (Option Param)} :
    cond.atom? x = none ↔ cond.operator = .oneOf ∧ cond.operand = .array [] := by
  unfold atom?
  split <;> simp_all

namespace QueryCompiler

variable {c : QueryCompiler}

theorem decided?_of_atom? {cond : Condition} {a : Atom (Option Param)}
    (h : c.atom? cond = some a) : a.decided? = none := by
  obtain ⟨x, -, hx⟩ := Option.bind_eq_some_iff.1 h
  exact cond.decided?_of_atom? hx

theorem formula_truth (v : Atom (Option Param) → Truth) (cond : Condition) :
    (c.formula cond).truth v = c.truth v cond := by
  rw [formula, truth, Formula.truth]
  rcases hatom : c.atom? cond with _ | a
  · rfl
  · rw [Option.getD_some, decided?_of_atom? hatom]
    rfl

theorem formula_predicates (cond : Condition) :
    (c.formula cond).predicates = (c.atom? cond).toList := by
  rw [formula, Formula.predicates]
  rcases hatom : c.atom? cond with _ | a
  · rfl
  · rw [Option.getD_some, decided?_of_atom? hatom]
    rfl

theorem map_truth_blockFormula? (s : Search) (b : Block) (v : Atom (Option Param) → Truth) :
    (c.blockFormula? b (s.conditionsIn b)).map (Formula.truth v) =
      s.blockTruth? (c.truth v) b := by
  rw [Search.blockTruth?]
  generalize s.conditionsIn b = conds
  cases conds with
  | nil => rfl
  | cons cond rest =>
    rw [blockFormula?, Option.map_some, Formula.truth_chain, ← List.map_cons, List.map_map]
    simp only [Function.comp_def, formula_truth]

theorem predicates_blockFormula? (b : Block) (conds : List Condition) :
    (c.blockFormula? b conds).elim [] Formula.predicates = conds.filterMap c.atom? := by
  cases conds with
  | nil => rfl
  | cons cond rest =>
    rw [blockFormula?, Option.elim_some, Formula.predicates_chain, ← List.map_cons,
      List.flatMap_map, List.filterMap_eq_flatMap_toList]
    simp only [formula_predicates]

theorem blockFormula?_eq_none_iff {b : Block} {conds : List Condition} :
    c.blockFormula? b conds = none ↔ conds = [] := by
  cases conds <;> simp [blockFormula?]

theorem conditions_eq_nil_iff {s : Search} :
    s.conditions = [] ↔ s.conditionsIn .and = [] ∧ s.conditionsIn .or = [] := by
  simp only [List.eq_nil_iff_forall_not_mem, Search.mem_conditions_iff, not_or, forall_and]

theorem formula?_eq_none_iff {s : Search} : c.formula? s = none ↔ s.conditions = [] := by
  rw [conditions_eq_nil_iff, ← c.blockFormula?_eq_none_iff (b := .and),
    ← c.blockFormula?_eq_none_iff (b := .or), formula?]
  rcases c.blockFormula? .and (s.conditionsIn .and) with _ | f <;>
    rcases c.blockFormula? .or (s.conditionsIn .or) with _ | g <;> simp

/-- The formula depends on the predicates of the conditions, and has the truth value of the
    search. -/
theorem formula?_means {s : Search} {f : Formula (Option Param)} (h : c.formula? s = some f) :
    f.predicates = (s.conditionsIn .and ++ s.conditionsIn .or).filterMap c.atom? ∧
      ∀ v, f.truth v = s.truth (c.truth v) := by
  have hand := c.predicates_blockFormula? .and (s.conditionsIn .and)
  have hor := c.predicates_blockFormula? .or (s.conditionsIn .or)
  simp only [Search.truth, List.filterMap_append, ← hand, ← hor, List.filterMap_cons,
    ← map_truth_blockFormula?, List.filterMap_nil]
  rw [formula?] at h
  generalize c.blockFormula? .and (s.conditionsIn .and) = all,
    c.blockFormula? .or (s.conditionsIn .or) = any at h ⊢
  rcases all with _ | f <;> rcases any with _ | g <;> cases h <;>
    simp [Formula.predicates, Formula.truth, Truth.joinAll]

end QueryCompiler

/-! ### What the tokens are read as -/

theorem valueAt_of_holds {values : List Param} {slot : Nat} {operand : Value}
    (h : Holds values slot operand) : valueAt values slot = some (.ofValue operand) := by
  obtain ⟨hslot, hvalue⟩ := h
  cases slot with
  | zero => cases hslot
  | succ n => exact hvalue

theorem JoinFilter.expr?_eq_column {f : JoinFilter} {sub : Option String} {e : Expr}
    (h : f.expr? sub = some e) : ∃ tableAlias name, e = .column tableAlias name := by
  unfold expr? at h
  split at h <;> cases h <;> exact ⟨_, _, rfl⟩

theorem QueryCompiler.expr?_eq_column {c : QueryCompiler} {attr : String} {e : Expr}
    (h : c.expr? attr = some e) : ∃ tableAlias name, e = .column tableAlias name := by
  unfold expr? at h
  split at h
  · split at h
    · cases h
      exact ⟨_, _, rfl⟩
    · obtain ⟨f, -, hf⟩ := Option.bind_eq_some_iff.1 h
      exact JoinFilter.expr?_eq_column hf
  · obtain ⟨f, -, hf⟩ := Option.bind_eq_some_iff.1 h
    exact JoinFilter.expr?_eq_column hf
  · cases h

theorem Predicate.bindTokens_isIn (values : List Param) (e : Expr) (slots : List Nat) :
    bindTokens values (isIn e slots).tokens = [e.token, .word "IN", .mark '(']
      ++ [.mark ','].intercalate ((slots.map fun slot => Token.slot (valueAt values slot)).map ([·]))
      ++ [.mark ')'] := by
  rw [bindTokens, tokens, List.map_append, List.map_append, map_intercalate, List.map_map,
    List.map_map]
  cases e <;> rfl

/-- The predicate that stands for a condition is read as one. -/
theorem Condition.reads {values : List Param} {tableAlias name : String} {cond : Condition}
    {p : Predicate}
    (h : cond.operator.Compares values (.column tableAlias name) cond.operand p) :
    Reads .factor (bindTokens values p.tokens) (.atom
      ((cond.atom? (.column tableAlias name)).getD (.compare (.number 0) .eq (.number 1)))) := by
  rcases cond with ⟨attr, operator, operand, block⟩
  dsimp only at h
  cases h with
  | isNull => exact .atom (.isNull rfl)
  | isNotNull => exact .atom (.isNotNull rfl)
  | never => exact .atom (.compare rfl rfl rfl)
  | @isIn operands slots hoperands h =>
    have hitems : List.Forall₂ (fun t y => t.term? = some y)
        (slots.map fun slot => Token.slot (valueAt values slot)) (operands.map (·.term)) := by
      rw [List.forall₂_map_left_iff, List.forall₂_map_right_iff]
      refine h.flip.imp fun slot operand hholds => ?_
      rw [Token.term?, valueAt_of_holds hholds, Value.term]
    have hempty : (slots.map fun slot => Token.slot (valueAt values slot)) ≠ [] := by
      intro hnil
      rw [hnil, List.forall₂_nil_left_iff, List.map_eq_nil_iff] at hitems
      exact hoperands hitems
    have hreads := ReadsAtom.isIn (l := .column tableAlias name) rfl hempty hitems
    obtain ⟨first, rest, rfl⟩ := List.exists_cons_of_ne_nil hoperands
    rw [Predicate.bindTokens_isIn]
    exact .atom hreads
  | @compare _ _ slot hoperator hoperand h =>
    have hvalue : (Token.slot (valueAt values slot)).term? = some operand.term := by
      rw [Token.term?, valueAt_of_holds h, Value.term]
    have hsign : ((operator.token : Token Nat).map (valueAt values)).comparison? =
        some operator := by
      cases operator with
      | oneOf => exact absurd rfl hoperator
      | eq | ne | gt | ge | lt | le | like => rfl
    have hatom : Condition.atom? ⟨attr, operator, operand, block⟩ (.column tableAlias name) =
        some (.compare (.column tableAlias name) operator operand.term) := by
      cases operator with
      | oneOf => exact absurd rfl hoperator
      | eq | ne | gt | ge | lt | le | like =>
        cases operand with
        | null | array | object => exact hoperand.elim
        | bool | number | string => rfl
    rw [hatom]
    exact .atom (.compare rfl hsign hvalue)

namespace QueryCompiler

variable {c : QueryCompiler}

theorem Poses.atom?_eq {values : List Param} {cond : Condition} {p : Predicate}
    (h : c.Poses values cond p) : ∃ tableAlias name,
      c.atom? cond = cond.atom? (.column tableAlias name) ∧
        cond.operator.Compares values (.column tableAlias name) cond.operand p := by
  obtain ⟨e, he, h⟩ := h
  obtain ⟨tableAlias, name, rfl⟩ := expr?_eq_column he
  refine ⟨tableAlias, name, ?_, h⟩
  rw [atom?, he]
  rfl

theorem Poses.reads {values : List Param} {cond : Condition} {p : Predicate}
    (h : c.Poses values cond p) : Reads .factor (bindTokens values p.tokens) (c.formula cond) := by
  obtain ⟨tableAlias, name, hatom, h⟩ := h.atom?_eq
  rw [formula, hatom]
  exact Condition.reads h

theorem reads_block {values : List Param} (b : Block) {conds : List Condition}
    {ps : List Predicate} (h : List.Forall₂ (c.Poses values) conds ps) :
    Option.Rel (fun ts f => Reads .factor (bindTokens values ts) f)
      (RowFilter.blockTokens b.word ps) (c.blockFormula? b conds) := by
  cases h with
  | nil => exact .none
  | @cons cond p conds ps hp hps =>
    have hlinks : List.Forall₂ (Reads b.link) ((ps.map (·.tokens)).map (bindTokens values))
        (conds.map c.formula) := by
      rw [List.map_map, List.forall₂_map_left_iff, List.forall₂_map_right_iff]
      exact hps.flip.imp fun _ _ h => (Poses.reads h).toLink b
    have hchain := Reads.chain (hp.reads.toLink b) hlinks
    rw [← List.map_cons, ← List.map_cons] at hchain
    have hgroup := Reads.group hchain.toCondition
    refine .some ?_
    rw [bindTokens, List.map_append, List.map_append, map_intercalate]
    exact hgroup

/-- The condition of a statement is read as the formula of the search. -/
theorem reads_rowFilter {values : List Param} {s : Search} {filter : RowFilter}
    (hall : List.Forall₂ (c.Poses values) (s.conditionsIn .and) filter.all)
    (hany : List.Forall₂ (c.Poses values) (s.conditionsIn .or) filter.any) :
    Option.Rel (fun ts f => Reads (.chain .or) (bindTokens values ts) f)
      filter.tokens? (c.formula? s) := by
  have hall := reads_block .and hall
  have hany := reads_block .or hany
  simp only [Block.word] at hall hany
  rw [RowFilter.tokens?, formula?]
  generalize RowFilter.blockTokens "AND" filter.all = all,
    c.blockFormula? .and (s.conditionsIn .and) = f? at hall ⊢
  generalize RowFilter.blockTokens "OR" filter.any = any,
    c.blockFormula? .or (s.conditionsIn .or) = g? at hany ⊢
  cases hall with
  | none => cases hany with
    | none => exact .none
    | some hg => exact .some (.link (hg.toLink .or))
  | some hf => cases hany with
    | none => exact .some (.link (hf.toLink .or))
    | some hg =>
      have hboth := Reads.join (.link (hf.toLink .or)) (hg.toLink .or)
      refine .some ?_
      rw [bindTokens, List.map_append, List.map_append]
      exact hboth

/-- The text of a compiled search has the joins and the condition of its statement. -/
theorem clauses_of_compile (hc : c.Built) {s : Search} {q : Query SelectStatement}
    (hq : c.compile s = .ok q) :
    joinsOf (tokensOf q.statement.sql) = q.statement.joins.map (·.tokens) ∧
      conditionOf (tokensOf q.statement.sql) = q.statement.filter.tokens? := by
  obtain ⟨keys, ctx, hrun, -⟩ := finish_eq_ok hq
  obtain ⟨hnamed, -⟩ := selectStatement_fits hc numbered_start hrun
  rw [hnamed.lexes.tokensOf]
  exact hnamed.clauses

/-- The text of a compiled search has a condition if the search has any. It is read as one formula,
    whose predicates are those of the conditions and whose truth value is that of the search. The one
    condition without a predicate is membership in an empty list, which is false. -/
theorem compile_condition_means (hc : c.Built) {s : Search} {q : Query SelectStatement}
    (hq : c.compile s = .ok q) :
    (conditionOf (tokensOf q.statement.sql) = none ↔ s.conditions = []) ∧
    (∀ cond ∈ s.conditions, c.atom? cond = none ↔
      cond.operator = .oneOf ∧ cond.operand = .array []) ∧
    ∀ ts, conditionOf (tokensOf q.statement.sql) = some ts → ∃ f,
      (∀ g, Reads (.chain .or) (bindTokens q.values ts) g ↔ g = f) ∧
      f.predicates = (s.conditionsIn .and ++ s.conditionsIn .or).filterMap c.atom? ∧
      ∀ v, f.truth v = s.truth (c.truth v) := by
  obtain ⟨keys, ctx, hrun, hvalues⟩ := finish_eq_ok hq
  obtain ⟨-, hfits⟩ := selectStatement_fits hc numbered_start hrun
  rw [hvalues, (clauses_of_compile hc hq).2]
  have hreads := reads_rowFilter hfits.all hfits.any
  have hposed : ∀ cond ∈ s.conditions, ∃ p, c.Poses ctx.binder.params cond p := by
    have hblock : ∀ {conds ps}, List.Forall₂ (c.Poses ctx.binder.params) conds ps →
        ∀ cond ∈ conds, ∃ p, c.Poses ctx.binder.params cond p := by
      intro conds ps h cond hcond
      obtain ⟨p, -, hp⟩ := forall₂_exists_of_mem h.flip cond hcond
      exact ⟨p, hp⟩
    intro cond hcond
    rcases Search.mem_conditions_iff.1 hcond with hcond | hcond
    · exact hblock hfits.all cond hcond
    · exact hblock hfits.any cond hcond
  refine ⟨?_, fun cond hcond => ?_, fun ts hts => ?_⟩
  · rw [← c.formula?_eq_none_iff]
    generalize q.statement.filter.tokens? = ts?, c.formula? s = f? at hreads ⊢
    cases hreads <;> simp
  · obtain ⟨p, hp⟩ := hposed cond hcond
    obtain ⟨tableAlias, name, hatom, -⟩ := hp.atom?_eq
    rw [hatom, Condition.atom?_eq_none_iff]
  · rw [hts] at hreads
    rcases hformula : c.formula? s with _ | f <;> rw [hformula] at hreads <;> cases hreads
    next h => exact ⟨f, fun g => ⟨fun hg => hg.unique h, fun hg => hg ▸ h⟩, formula?_means hformula⟩

/-- Products above a price in no status at all, and those that are blue or without a vendor. -/
def blueOrStray : Search :=
  (((({} : Search).require "price.amount" .gt (.int 100)).allowEq "color.value"
    (.string "blue")).requireIn "status" []).allowEq "vendor" .null

theorem products_blueOrStray : ∃ q ts f, products.compile blueOrStray = .ok q ∧
    conditionOf (tokensOf q.statement.sql) = some ts ∧
    ts = tokensOf "(e.price_amount > ?1 AND 0 = 1) OR (j_color.value = ?3 OR j_vendor.id IS NULL)" ∧
    (∀ g, Reads (.chain .or) (bindTokens q.values ts) g ↔ g = f) ∧
    f.predicates = [.compare (.column "e" "price_amount") .gt (.value (some (.integer 100))),
      .compare (.column "j_color" "value") .eq (.value (some (.text "blue"))),
      .isNull (.column "j_vendor" "id")] ∧
    f.truth (fun _ => .unknown) = .unknown := by
  have hcompiles : ∃ q, products.compile blueOrStray = .ok q ∧ q.statement.filter.tokens? =
      some (tokensOf
        "(e.price_amount > ?1 AND 0 = 1) OR (j_color.value = ?3 OR j_vendor.id IS NULL)") :=
    ⟨_, rfl, by decide +kernel⟩
  obtain ⟨q, hq, hfilter⟩ := hcompiles
  have hcondition := (clauses_of_compile products_isMade.built hq).2.trans hfilter
  obtain ⟨-, -, hmeans⟩ := compile_condition_means products_isMade.built hq
  obtain ⟨f, hreads, hpredicates, htruth⟩ := hmeans _ hcondition
  refine ⟨q, _, f, hq, hcondition, rfl, hreads, ?_, ?_⟩
  · rw [hpredicates]
    decide +kernel
  · rw [htruth]
    decide +kernel

end QueryCompiler

end RecordStore
