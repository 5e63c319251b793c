import RecordStore.Search.Compiler
import RecordStore.Proofs.Except
import RecordStore.Proofs.Moves
import RecordStore.Proofs.Search.Statement
import Mathlib.Data.List.Nodup

/-!
# Values and their placeholders

While a search is compiled, values are bound as columns are resolved: the discriminator of a filter
at the first attribute that needs its join, whether it is grouped by, selected, compared or sorted
by. In the text the joins come first, so the placeholders do not stand in the order of their
numbers. What is kept all the way is that the numbers in the joins emitted so far and in the parts
made so far are those of the values bound so far, each once (`Numbered`), and that each stands where
its value belongs. An action that keeps this and returns a part of the statement *places* the part
(`Act.Places`).

Of a compiled search or count it follows that its text has the placeholders of its values, each
once, and each at the discriminator or operand that it was bound for (`IsWellBound`,
`QueryCompiler.compiled_isWellBound`).
-/

namespace RecordStore

variable {α β : Type}

/-! ### Compilers for standard filters -/

/-- The filters for other tables. -/
inductive ForeignFilter.Made : ForeignFilter → Prop
  | make {name table entityId targetId : String} {schema : Schema} {f : ForeignFilter}
      (h : ForeignFilter.make name table entityId targetId schema = .ok f) : Made f
  | discriminatedBy {f f' : ForeignFilter} {column : String} {value : Value} (hf : Made f)
      (h : f.discriminatedBy column value = .ok f') : Made f'
  | optional {f : ForeignFilter} (hf : Made f) : Made f.optional

/-- The filters that come with the library. -/
inductive JoinFilter.IsStandard : JoinFilter → Prop
  | embedded {name stem : String} {schema : Schema} {f : EmbeddedFilter}
      (h : EmbeddedFilter.make name stem schema = .ok f) : IsStandard (.embedded f)
  | ofEntity {entity : Schema} {stem : String} {f : EmbeddedFilter}
      (h : EmbeddedFilter.ofEntity entity stem = .ok f) : IsStandard (.embedded f)
  | foreign {f : ForeignFilter} (h : f.Made) : IsStandard (.foreign f)

/-- The compilers with standard filters. -/
inductive QueryCompiler.Built : QueryCompiler → Prop
  | make {table : String} {schema : Schema} {c : QueryCompiler}
      (h : QueryCompiler.make table schema = .ok c) : Built c
  | withLimits {c : QueryCompiler} (hc : Built c) (limits : SearchLimits) :
      Built (c.withLimits limits)
  | addFilter {c c' : QueryCompiler} {f : JoinFilter} (hc : Built c) (hf : f.IsStandard)
      (h : c.addFilter f = .ok c') : Built c'

/-- What has passed the guard is the name itself. -/
theorem Identifier.isValid_of_check_bind {name : String} {f : String → Except StoreError α} {a : α}
    (h : check name >>= f = .ok a) : isValid name = true ∧ f name = .ok a := by
  obtain ⟨name', hname, hrest⟩ := exists_of_bind_eq_ok h
  obtain ⟨hvalid, rfl⟩ := check_eq_ok_iff.1 hname
  exact ⟨hvalid, hrest⟩

theorem Expr.ofNames_eq_ok {tableAlias name : String} {e : Expr}
    (h : ofNames tableAlias name = .ok e) : e = .column tableAlias name ∧ e.IsNamed := by
  obtain ⟨halias, h⟩ := Identifier.isValid_of_check_bind h
  obtain ⟨hname, h⟩ := Identifier.isValid_of_check_bind h
  cases h
  exact ⟨rfl, tableAlias, name, rfl, halias, hname⟩

theorem ForeignFilter.make_eq_ok {name table entityId targetId : String} {schema : Schema}
    {f : ForeignFilter} (h : make name table entityId targetId schema = .ok f) :
    Identifier.isValid name = true ∧ Identifier.isValid table = true ∧
      Identifier.isValid entityId = true ∧ Identifier.isValid targetId = true ∧
      f = { name, table, entityId, targetId, schema } := by
  obtain ⟨hname, h⟩ := Identifier.isValid_of_check_bind h
  obtain ⟨htable, h⟩ := Identifier.isValid_of_check_bind h
  obtain ⟨hentity, h⟩ := Identifier.isValid_of_check_bind h
  obtain ⟨htarget, h⟩ := Identifier.isValid_of_check_bind h
  cases h
  exact ⟨hname, htable, hentity, htarget, rfl⟩

theorem ForeignFilter.discriminatedBy_eq_ok {f f' : ForeignFilter} {column : String} {value : Value}
    (h : f.discriminatedBy column value = .ok f') :
    Identifier.isValid column = true ∧ f' = { f with discriminator := some (column, value) } := by
  obtain ⟨hcolumn, h⟩ := Identifier.isValid_of_check_bind h
  cases h
  exact ⟨hcolumn, rfl⟩

theorem ForeignFilter.Made.isValid {f : ForeignFilter} (h : f.Made) :
    Identifier.isValid f.name = true ∧ Identifier.isValid f.table = true := by
  induction h with
  | make h =>
    obtain ⟨hname, htable, -, -, rfl⟩ := make_eq_ok h
    exact ⟨hname, htable⟩
  | discriminatedBy _ h ih =>
    obtain ⟨-, rfl⟩ := discriminatedBy_eq_ok h
    exact ih
  | optional _ ih => exact ih

theorem EmbeddedFilter.make_eq_ok {name stem : String} {schema : Schema} {f : EmbeddedFilter}
    (h : make name stem schema = .ok f) :
    Identifier.isValid name = true ∧ Identifier.isValid stem = true ∧ f = ⟨name, stem, schema⟩ := by
  obtain ⟨hname, h⟩ := Identifier.isValid_of_check_bind h
  obtain ⟨hstem, h⟩ := Identifier.isValid_of_check_bind h
  cases h
  exact ⟨hname, hstem, rfl⟩

theorem JoinFilter.IsStandard.isValid {f : JoinFilter} (h : f.IsStandard) :
    Identifier.isValid f.name = true := by
  cases h with
  | embedded h =>
    obtain ⟨hname, -, rfl⟩ := EmbeddedFilter.make_eq_ok h
    exact hname
  | ofEntity h =>
    obtain ⟨schema, -, h⟩ := exists_of_bind_eq_ok h
    obtain ⟨hname, -, rfl⟩ := EmbeddedFilter.make_eq_ok h
    exact hname
  | foreign h => exact h.isValid.1

namespace QueryCompiler

theorem make_eq_ok {table : String} {schema : Schema} {c : QueryCompiler}
    (h : make table schema = .ok c) :
    Identifier.isValid table = true ∧ schema.keys ≠ [] ∧ c = { table, schema } := by
  obtain ⟨htable, h⟩ := Identifier.isValid_of_check_bind h
  split at h
  · cases h
  next hkeys =>
    cases h
    exact ⟨htable, fun hnil => hkeys (List.isEmpty_iff.2 hnil), rfl⟩

theorem addFilter_eq_ok {c c' : QueryCompiler} {f : JoinFilter} (h : c.addFilter f = .ok c') :
    c.filter? f.name = none ∧ c.schema.contains f.name = false ∧
      c' = { c with filters := c.filters ++ [f] } := by
  obtain ⟨-, h⟩ := Identifier.isValid_of_check_bind h
  split at h
  · cases h
  next hnew =>
    cases h
    rw [Bool.or_eq_true, not_or, Bool.not_eq_true, Bool.not_eq_true,
      Option.isSome_eq_false_iff, Option.isNone_iff_eq_none] at hnew
    exact ⟨hnew.1, hnew.2, rfl⟩

/-- Limits and filters leave the table and its schema as they were. -/
theorem Built.exists_make {c : QueryCompiler} (h : c.Built) :
    ∃ c₀, QueryCompiler.make c.table c.schema = .ok c₀ := by
  induction h with
  | make h =>
    obtain ⟨-, -, rfl⟩ := make_eq_ok h
    exact ⟨_, h⟩
  | withLimits _ _ ih => exact ih
  | addFilter _ _ h ih =>
    obtain ⟨-, -, rfl⟩ := addFilter_eq_ok h
    exact ih

theorem Built.table {c : QueryCompiler} (h : c.Built) : Identifier.isValid c.table = true := by
  obtain ⟨c₀, hmake⟩ := h.exists_make
  exact (make_eq_ok hmake).1

theorem Built.filters {c : QueryCompiler} (h : c.Built) : ∀ f ∈ c.filters, f.IsStandard := by
  induction h with
  | make h =>
    obtain ⟨-, -, rfl⟩ := make_eq_ok h
    exact fun f hf => absurd hf List.not_mem_nil
  | withLimits _ _ ih => exact ih
  | addFilter _ hf h ih =>
    obtain ⟨-, -, rfl⟩ := addFilter_eq_ok h
    intro f' hf'
    rcases List.mem_append.1 hf' with hold | hnew
    · exact ih f' hold
    · rw [List.mem_singleton.1 hnew]
      exact hf

theorem filter?_eq_some {c : QueryCompiler} {name : String} {f : JoinFilter}
    (h : c.filter? name = some f) : f ∈ c.filters ∧ f.name = name :=
  ⟨List.mem_of_find?_eq_some h, by simpa using List.find?_some h⟩

end QueryCompiler

/-! ### What attributes stand for -/

/-- The column that a filter has for a property, or for the bare name. -/
def JoinFilter.expr? : JoinFilter → Option String → Option Expr
  | embedded f, some sub => some (.column searchedAlias (f.stem ++ "_" ++ sub))
  | foreign f, sub => some (.column f.joinAlias (sub.getD f.targetId))
  | _, _ => none

/-- The column that an attribute stands for: one of the searched table, or one of a filter. -/
def QueryCompiler.expr? (c : QueryCompiler) (attr : String) : Option Expr :=
  match Attribute.ofText attr with
  | .plain name =>
    if c.schema.contains name then some (.column searchedAlias name)
    else (c.filter? name).bind (·.expr? none)
  | .dotted name sub => (c.filter? name).bind (·.expr? (some sub))
  | .deeper => none

/-! ### What placeholders stand for -/

/-- The value with this number, counted from one, is the one that the operand is bound as. -/
def Holds (values : List Param) (slot : Nat) (operand : Value) : Prop :=
  0 < slot ∧ values[slot - 1]? = some (.ofValue operand)

/-- The join of a filter, given the column and the placeholder of its discriminator. -/
def ForeignFilter.clause (f : ForeignFilter) (placed : Option (Expr × Nat)) : TableJoin where
  isOptional := f.isOptional
  table := f.table
  tableAlias := f.joinAlias
  target := .column f.joinAlias f.targetId
  entity := .column searchedAlias f.entityId
  discriminator := placed

/-- The join is that of a filter, and its placeholder stands for the value of the discriminator. -/
def ForeignFilter.Joins (f : ForeignFilter) (values : List Param) (join : Join) : Prop :=
  ∃ placed, join = .table (f.clause placed) ∧ Option.Rel
    (fun p d => p.1 = .column f.joinAlias d.1 ∧ Holds values p.2 d.2) placed f.discriminator

/-- A value to compare with: not null, no list and no object. -/
def Value.IsScalar : Value → Prop
  | null | array _ | object _ => False
  | _ => True

/-- The predicate on a column that compares it with an operand, with the operand, or its elements
    one by one, behind its placeholders. -/
inductive Operator.Compares (values : List Param) (e : Expr) : Operator → Value → Predicate → Prop
  | isNull : Compares values e .eq .null (.isNull e)
  | isNotNull : Compares values e .ne .null (.isNotNull e)
  | never : Compares values e .oneOf (.array []) .never
  | isIn {operands : List Value} {slots : List Nat} (hoperands : operands ≠ [])
      (h : List.Forall₂ (fun operand slot => Holds values slot operand) operands slots) :
      Compares values e .oneOf (.array operands) (.isIn e slots)
  | compare {operator : Operator} {operand : Value} {slot : Nat} (hoperator : operator ≠ .oneOf)
      (hoperand : operand.IsScalar) (h : Holds values slot operand) :
      Compares values e operator operand (.compare e operator slot)

/-- The predicate of a condition, on the column that its attribute stands for. -/
def QueryCompiler.Poses (c : QueryCompiler) (values : List Param) (cond : Condition)
    (p : Predicate) : Prop :=
  ∃ e, c.expr? cond.attr = some e ∧ cond.operator.Compares values e cond.operand p

section More

variable {values values' : List Param}

theorem Holds.mono {slot : Nat} {operand : Value} (h : Holds values slot operand)
    (hle : values <+: values') : Holds values' slot operand := by
  obtain ⟨more, rfl⟩ := hle
  have hlt := (List.getElem?_eq_some_iff.1 h.2).1
  exact ⟨h.1, by rw [List.getElem?_append_left hlt]; exact h.2⟩

theorem ForeignFilter.Joins.mono {f : ForeignFilter} {join : Join} (h : f.Joins values join)
    (hle : values <+: values') : f.Joins values' join := by
  obtain ⟨placed, hjoin, h⟩ := h
  refine ⟨placed, hjoin, ?_⟩
  generalize f.discriminator = d at h ⊢
  cases h with
  | none => exact .none
  | some hvalue => exact .some ⟨hvalue.1, hvalue.2.mono hle⟩

theorem QueryCompiler.Poses.mono {c : QueryCompiler} {cond : Condition} {p : Predicate}
    (h : c.Poses values cond p) (hle : values <+: values') : c.Poses values' cond p := by
  obtain ⟨e, he, h⟩ := h
  refine ⟨e, he, ?_⟩
  generalize cond.operator = operator, cond.operand = operand at h ⊢
  cases h with
  | isNull => exact .isNull
  | isNotNull => exact .isNotNull
  | never => exact .never
  | isIn hoperands h => exact .isIn hoperands (h.imp fun _ _ h => h.mono hle)
  | compare hoperator hoperand h => exact .compare hoperator hoperand (h.mono hle)

end More

/-! ### Placing the parts of a statement -/

/-- The values bound so far are those whose numbers stand in the joins emitted so far and among
    these slots, each once. -/
structure Numbered (c : QueryCompiler) (ctx : Compilation) (slots : List Nat) : Prop where
  tableAlias : ctx.tableAlias = searchedAlias
  slots : (ctx.joins.flatMap (·.2.slots) ++ slots).Perm (List.range' 1 ctx.binder.params.length)
  distinct : (ctx.joins.map (·.1)).Nodup
  joins : ∀ entry ∈ ctx.joins, entry.2.IsNamed ∧
    ∃ f, .foreign f ∈ c.filters ∧ f.name = entry.1 ∧ f.Joins ctx.binder.params entry.2

/-- If the action succeeds, the slots of its result are numbered with what there was, nothing that
    was bound is lost, and the result is as described. -/
def Act.Places (c : QueryCompiler) (f : Act Compilation α) (slotsOf : α → List Nat)
    (Q : List Param → α → Prop) : Prop :=
  ∀ ⦃ctx slots a ctx'⦄, Numbered c ctx slots → f.perform ctx = (.ok a, ctx') →
    Numbered c ctx' (slots ++ slotsOf a) ∧ ctx.binder.params <+: ctx'.binder.params ∧
      Q ctx'.binder.params a

variable {c : QueryCompiler}

namespace Act.Places

/-- What makes no difference to the world places nothing. -/
theorem of_stay {f : Act Compilation α} {P : α → Prop}
    (h : ∀ ⦃ctx a ctx'⦄, ctx.tableAlias = searchedAlias → f.perform ctx = (.ok a, ctx') →
      ctx' = ctx ∧ P a) :
    f.Places c (fun _ => []) (fun _ a => P a) := by
  intro ctx slots a ctx' hctx hrun
  obtain ⟨rfl, ha⟩ := h hctx.tableAlias hrun
  exact ⟨by rwa [List.append_nil], List.prefix_rfl, ha⟩

theorem weaken {f : Act Compilation α} {slotsOf : α → List Nat} {Q Q' : List Param → α → Prop}
    (h : f.Places c slotsOf Q) (himp : ∀ values a, Q values a → Q' values a) :
    f.Places c slotsOf Q' := by
  intro ctx slots a ctx' hctx hrun
  obtain ⟨hctx', hle, ha⟩ := h hctx hrun
  exact ⟨hctx', hle, himp _ _ ha⟩

/-- An action on each element of a list places the results one after the other, if what is known of
    one of them stays true as further values are bound. -/
theorem mapM {f : β → Act Compilation α} {slotsOf : α → List Nat} {Q : List Param → β → α → Prop}
    (hmono : ∀ {values values' b a}, values <+: values' → Q values b a → Q values' b a)
    (h : ∀ b, (f b).Places c slotsOf (Q · b)) (bs : List β) :
    (bs.mapM f).Places c (List.flatMap slotsOf) fun values => List.Forall₂ (Q values) bs := by
  induction bs with
  | nil =>
    intro ctx slots as ctx' hctx hrun
    rw [List.mapM_nil] at hrun
    cases hrun
    exact ⟨by simpa using hctx, List.prefix_rfl, .nil⟩
  | cons b bs ih =>
    intro ctx slots as ctx' hctx hrun
    rw [List.mapM_cons] at hrun
    obtain ⟨a, ctx₁, hfirst, hrun⟩ := Act.perform_bind_eq_ok hrun
    obtain ⟨as', ctx₂, hrest, hrun⟩ := Act.perform_bind_eq_ok hrun
    cases hrun
    obtain ⟨hctx₁, hle₁, ha⟩ := h b hctx hfirst
    obtain ⟨hctx₂, hle₂, has⟩ := ih hctx₁ hrest
    rw [List.append_assoc] at hctx₂
    exact ⟨hctx₂, hle₁.trans hle₂, .cons (hmono hle₂ ha) has⟩

end Act.Places

theorem Compilation.bind_places (operand : Value) :
    (bind (.ofValue operand)).Places c (fun slot => [slot]) fun values slot =>
      Holds values slot operand := by
  intro ctx slots slot ctx' hctx hrun
  cases hrun
  have hle : ctx.binder.params <+: ctx.binder.params ++ [.ofValue operand] := List.prefix_append _ _
  -- The new number is the last one, and what the joins hold stays true.
  refine ⟨⟨hctx.tableAlias, ?_, hctx.distinct, ?_⟩, hle, by simp [Holds]⟩
  · rw [← List.append_assoc]
    simpa [Binder.bind, List.range'_concat, Nat.add_comm] using hctx.slots.append_right _
  · intro entry hentry
    obtain ⟨hnamed, f, hf, hname, hjoins⟩ := hctx.joins entry hentry
    exact ⟨hnamed, f, hf, hname, hjoins.mono hle⟩

theorem Act.ofExcept_eq_ok {σ : Type} {r : Except StoreError α} {s s' : σ} {a : α}
    (h : (ofExcept r).perform s = (.ok a, s')) : r = .ok a ∧ s = s' := by
  rwa [perform_ofExcept, Prod.mk.injEq] at h

theorem Act.ofNames_eq_ok {σ : Type} {tableAlias name : String} {s s' : σ} {e : Expr}
    (h : (ofExcept (Expr.ofNames tableAlias name)).perform s = (.ok e, s')) :
    e = .column tableAlias name ∧ e.IsNamed ∧ s = s' := by
  obtain ⟨he, rfl⟩ := ofExcept_eq_ok h
  obtain ⟨heq, hnamed⟩ := Expr.ofNames_eq_ok he
  exact ⟨heq, hnamed, rfl⟩

/-- A join whose placeholder has been numbered is emitted, if there is none of its name. -/
theorem Numbered.addClause {ctx ctx' : Compilation} {slots : List Nat} {f : ForeignFilter}
    {join : Join} (h : Numbered c ctx (slots ++ join.slots)) (hnew : ctx.isJoined f.name = false)
    (hf : .foreign f ∈ c.filters) (hnamed : join.IsNamed) (hjoin : f.Joins ctx.binder.params join)
    (hrun : (Compilation.addClause f.name join).perform ctx = (.ok (), ctx')) :
    Numbered c ctx' slots ∧ ctx'.binder = ctx.binder := by
  have hctx : ctx' = { ctx with joins := ctx.joins ++ [(f.name, join)] } := by
    rw [Compilation.addClause, Act.perform_change, hnew] at hrun
    exact (Prod.mk.inj hrun).2.symm
  subst hctx
  refine ⟨⟨h.tableAlias, ?_, ?_, ?_⟩, rfl⟩
  · -- The placeholder goes from the parts that are being made over to the joins.
    refine List.Perm.trans ?_ h.slots
    simp only [List.flatMap_append, List.flatMap_singleton, List.append_assoc]
    exact List.perm_append_comm.append_left _
  · rw [List.map_append, List.map_singleton]
    refine h.distinct.append (List.nodup_singleton _) ?_
    rw [List.disjoint_singleton]
    intro hold
    obtain ⟨entry, hentry, hname⟩ := List.mem_map.1 hold
    simp only [Compilation.isJoined, List.any_eq_false, decide_eq_true_eq] at hnew
    exact hnew entry hentry hname
  · intro entry hentry
    rcases List.mem_append.1 hentry with hold | hlast
    · exact h.joins entry hold
    · rw [List.mem_singleton.1 hlast]
      exact ⟨hnamed, f, hf, rfl, hjoin⟩

namespace ForeignFilter

variable {f : ForeignFilter}

/-- A join whose names have passed the guard, if the name of the discriminator has. -/
theorem clause_isNamed (placed : Option (Expr × Nat)) (htable : Identifier.isValid f.table = true)
    (htarget : (Expr.column f.joinAlias f.targetId).IsNamed)
    (hentity : (Expr.column searchedAlias f.entityId).IsNamed)
    (hplaced : ∀ p ∈ placed, p.1.IsNamed) : (Join.table (f.clause placed)).IsNamed := by
  obtain ⟨_, _, heq, halias, -⟩ := id htarget
  cases heq
  exact ⟨htable, halias, htarget, hentity, hplaced⟩

theorem ensureJoined_places (hf : .foreign f ∈ c.filters)
    (htable : Identifier.isValid f.table = true) :
    f.ensureJoined.Places c (fun _ => []) fun _ _ => True := by
  intro ctx slots a ctx' hctx hrun
  rw [List.append_nil]
  obtain ⟨_, _, hread, hrun⟩ := Act.perform_bind_eq_ok hrun
  cases hread
  dsimp only [id] at hrun
  split at hrun
  next =>
    cases hrun
    exact ⟨hctx, List.prefix_rfl, trivial⟩
  next hnew =>
    rw [Bool.not_eq_true] at hnew
    obtain ⟨target, _, hfirst, hrun⟩ := Act.perform_bind_eq_ok hrun
    obtain ⟨rfl, htarget, rfl⟩ := Act.ofNames_eq_ok hfirst
    obtain ⟨entity, _, hsecond, hrun⟩ := Act.perform_bind_eq_ok hrun
    obtain ⟨rfl, hentity, rfl⟩ := Act.ofNames_eq_ok hsecond
    rw [hctx.tableAlias] at hentity hrun
    rcases hd : f.discriminator with _ | ⟨column, value⟩ <;> rw [hd] at hrun
    · have hsame : Numbered c ctx (slots ++ (Join.table (f.clause none)).slots) := by
        rwa [Join.slots, clause, Option.toList_none, List.map_nil, List.append_nil]
      have hnamed := clause_isNamed none htable htarget hentity (by simp)
      have hjoins : f.Joins ctx.binder.params (.table (f.clause none)) :=
        ⟨none, rfl, by rw [hd]; exact .none⟩
      obtain ⟨hctx', hbinder⟩ := hsame.addClause hnew hf hnamed hjoins hrun
      exact ⟨hctx', hbinder ▸ List.prefix_rfl, trivial⟩
    · -- The discriminator is bound here, and emitted with the join before anything else is bound.
      obtain ⟨slot, ctx₁, hbind, hrun⟩ := Act.perform_bind_eq_ok hrun
      obtain ⟨hctx₁, hle, hholds⟩ := Compilation.bind_places value hctx hbind
      obtain ⟨e, _, hthird, hrun⟩ := Act.perform_bind_eq_ok hrun
      obtain ⟨rfl, he, rfl⟩ := Act.ofNames_eq_ok hthird
      have hnew₁ : ctx₁.isJoined f.name = false := by
        cases hbind
        exact hnew
      have hnamed := clause_isNamed (some (.column f.joinAlias column, slot)) htable htarget hentity
        (by simpa using he)
      have hjoins : f.Joins ctx₁.binder.params
          (.table (f.clause (some (.column f.joinAlias column, slot)))) :=
        ⟨_, rfl, by rw [hd]; exact .some ⟨rfl, hholds⟩⟩
      obtain ⟨hctx', hbinder⟩ := hctx₁.addClause hnew₁ hf hnamed hjoins hrun
      exact ⟨hctx', by rwa [hbinder], trivial⟩

theorem joinedColumn_places (hf : .foreign f ∈ c.filters)
    (htable : Identifier.isValid f.table = true) (name : String) :
    (do f.ensureJoined; Act.ofExcept (Expr.ofNames f.joinAlias name)).Places c (fun _ => [])
      fun _ e => e.IsNamed ∧ e = Expr.column f.joinAlias name := by
  intro ctx slots e ctx' hctx hrun
  obtain ⟨_, ctx₁, hjoined, hrun⟩ := Act.perform_bind_eq_ok hrun
  obtain ⟨he, hnamed, rfl⟩ := Act.ofNames_eq_ok hrun
  obtain ⟨hctx', hle, -⟩ := ensureJoined_places hf htable hctx hjoined
  exact ⟨hctx', hle, hnamed, he⟩

theorem column_places (hf : .foreign f ∈ c.filters) (htable : Identifier.isValid f.table = true)
    (sub : Option String) :
    (f.column sub).Places c (fun _ => []) fun _ e => e.IsNamed ∧
      (JoinFilter.foreign f).expr? sub = some e ∧
        ∀ name ∈ sub, Identifier.isValid name = true := by
  intro ctx slots e ctx' hctx hrun
  have hcolumn : (do f.ensureJoined; Act.ofExcept (Expr.ofNames f.joinAlias (sub.getD f.targetId)) :
      Act Compilation Expr).perform ctx = (.ok e, ctx') ∧
      ∀ name ∈ sub, Identifier.isValid name = true := by
    cases sub with
    | none => exact ⟨hrun, by simp⟩
    | some sub =>
      obtain ⟨_, _, hcheck, hrun⟩ := Act.perform_bind_eq_ok hrun
      obtain ⟨hvalid, rfl⟩ := Act.ofExcept_eq_ok hcheck
      split at hrun
      · exact ⟨hrun, by simpa using (Identifier.check_eq_ok_iff.1 hvalid).1⟩
      · cases hrun
  obtain ⟨hctx', hle, hnamed, rfl⟩ := joinedColumn_places hf htable _ hctx hcolumn.1
  exact ⟨hctx', hle, hnamed, rfl, hcolumn.2⟩

end ForeignFilter

theorem EmbeddedFilter.column_places (f : EmbeddedFilter) (sub : Option String) :
    (f.column sub).Places c (fun _ => []) fun _ e => e.IsNamed ∧
      (JoinFilter.embedded f).expr? sub = some e ∧
        ∀ name ∈ sub, Identifier.isValid name = true := by
  refine Act.Places.of_stay fun ctx e ctx' halias hrun => ?_
  cases sub with
  | none => cases hrun
  | some sub =>
    obtain ⟨_, _, hcheck, hrun⟩ := Act.perform_bind_eq_ok hrun
    obtain ⟨hvalid, rfl⟩ := Act.ofExcept_eq_ok hcheck
    split at hrun
    · obtain ⟨_, _, hread, hrun⟩ := Act.perform_bind_eq_ok hrun
      cases hread
      obtain ⟨rfl, hnamed, rfl⟩ := Act.ofNames_eq_ok hrun
      refine ⟨rfl, hnamed, ?_, by simpa using (Identifier.check_eq_ok_iff.1 hvalid).1⟩
      dsimp only
      rw [halias]
      rfl
    · cases hrun

theorem JoinFilter.IsStandard.column_places {f : JoinFilter} (h : f.IsStandard)
    (hf : f ∈ c.filters) (sub : Option String) :
    (f.column sub).Places c (fun _ => []) fun _ e =>
      e.IsNamed ∧ f.expr? sub = some e ∧ ∀ name ∈ sub, Identifier.isValid name = true := by
  cases h with
  | embedded => exact EmbeddedFilter.column_places _ sub
  | ofEntity => exact EmbeddedFilter.column_places _ sub
  | foreign h => exact ForeignFilter.column_places hf h.isValid.2 sub

end RecordStore
