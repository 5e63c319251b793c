import RecordStore.Proofs.Search.Compiler
import RecordStore.Proofs.Search.Registration

/-!
# Statements do not depend on values

Two searches are *alike* if they differ in the operands of their conditions only, and operands that
correspond are of one shape: both null, both scalars, lists of one length, or both objects. Two
compilers are alike if they differ in the values of discriminators only. Alike searches under alike
compilers come to the same (`QueryCompiler.compile_alike`): they are refused with the same error, or
compiled to the same text with as many values. So no value can be told from the text, and none
decides whether there is one.

Actions *agree* (`Act.Agrees`) if they do the same in contexts that differ in their bound values
only: they return the same and leave such contexts. What is composed of actions that agree agrees.
-/

namespace RecordStore

variable {α β γ : Type}

/-- Contexts that differ in their bound values only, and have as many of them. -/
structure Compilation.Alike (ctx ctx' : Compilation) : Prop where
  tableAlias : ctx.tableAlias = ctx'.tableAlias
  joins : ctx.joins = ctx'.joins
  size : ctx.binder.size = ctx'.binder.size

/-- In contexts that differ in their bound values only, the actions do the same. -/
def Act.Agrees (f f' : Act Compilation α) : Prop :=
  ∀ ⦃ctx ctx'⦄, ctx.Alike ctx' →
    (f.perform ctx).1 = (f'.perform ctx').1 ∧ (f.perform ctx).2.Alike (f'.perform ctx').2

/-! ### What may differ -/

/-- Operands of one shape. -/
inductive Value.SameShape : Value → Value → Prop
  | null : SameShape .null .null
  | scalar {v w : Value} (hv : v.IsScalar) (hw : w.IsScalar) : SameShape v w
  | array {vs ws : List Value} (h : vs.length = ws.length) : SameShape (.array vs) (.array ws)
  | object (vs ws : List (String × Value)) : SameShape (.object vs) (.object ws)

structure Condition.Alike (cond cond' : Condition) : Prop where
  attr : cond.attr = cond'.attr
  operator : cond.operator = cond'.operator
  block : cond.block = cond'.block
  operand : cond.operand.SameShape cond'.operand

structure Search.Alike (s s' : Search) : Prop where
  selection : s.selection = s'.selection
  conditions : List.Forall₂ Condition.Alike s.conditions s'.conditions
  paging : s.paging = s'.paging
  order : s.order = s'.order
  groups : s.groups = s'.groups

/-- The filter with another value for its discriminator, if it has one. -/
def ForeignFilter.withValue (f : ForeignFilter) (value : Value) : ForeignFilter :=
  { f with discriminator := f.discriminator.map fun d => (d.1, value) }

/-- Filters that differ in the value of a discriminator only. Filters of an application's own must
    not look at the values that were bound. -/
inductive JoinFilter.Alike : JoinFilter → JoinFilter → Prop
  | embedded (f : EmbeddedFilter) : Alike (.embedded f) (.embedded f)
  | foreign (f : ForeignFilter) (value : Value) : Alike (.foreign f) (.foreign (f.withValue value))
  | custom {name : String} {isForeign : Bool} {schema : Schema}
      {column column' : Option String → Act Compilation Expr}
      (h : ∀ sub, (column sub).Agrees (column' sub)) :
      Alike (.custom name isForeign schema column) (.custom name isForeign schema column')

/-- Compilers that differ in the values of discriminators only. -/
structure QueryCompiler.Alike (c c' : QueryCompiler) : Prop where
  table : c.table = c'.table
  schema : c.schema = c'.schema
  limits : c.limits = c'.limits
  filters : ∀ name, Option.Rel JoinFilter.Alike (c.filter? name) (c'.filter? name)

/-- Both are refused with the same error, or both have the same text, as many values, and results
    with the same columns that tell entities apart. -/
inductive ComesToTheSame {statement : Type} (sql : statement → String) :
    Except StoreError (Query statement) → Except StoreError (Query statement) → Prop
  | refused (e : StoreError) : ComesToTheSame sql (.error e) (.error e)
  | compiled {q q' : Query statement} (text : sql q.statement = sql q'.statement)
      (values : q.values.length = q'.values.length) (uniqueId : q.uniqueId = q'.uniqueId)
      (groups : q.groups = q'.groups) : ComesToTheSame sql (.ok q) (.ok q')

/-! ### Actions that agree -/

namespace Act

theorem agrees_pure (a : α) : (pure a : Act Compilation α).Agrees (pure a) :=
  fun _ _ hctx => ⟨rfl, hctx⟩

theorem agrees_ofExcept (r : Except StoreError α) :
    (ofExcept r : Act Compilation α).Agrees (ofExcept r) :=
  fun _ _ hctx => ⟨rfl, hctx⟩

theorem agrees_fail (e : StoreError) : (fail e : Act Compilation α).Agrees (fail e) :=
  agrees_ofExcept (.error e)

theorem Agrees.bind {f f' : Act Compilation α} {g g' : α → Act Compilation β} (hf : f.Agrees f')
    (hg : ∀ a, (g a).Agrees (g' a)) : (f >>= g).Agrees (f' >>= g') := by
  intro ctx ctx' hctx
  obtain ⟨hresult, hnext⟩ := hf hctx
  rw [perform_bind, perform_bind]
  rcases hrun : f.perform ctx with ⟨r, ctx₁⟩
  rcases hrun' : f'.perform ctx' with ⟨r', ctx₁'⟩
  rw [hrun, hrun'] at hresult hnext
  obtain rfl : r = r' := hresult
  cases r with
  | error e => exact ⟨rfl, hnext⟩
  | ok a => exact hg a hnext

theorem Agrees.map {f f' : Act Compilation α} (hf : f.Agrees f') (k : α → β) :
    (do return k (← f) : Act Compilation β).Agrees (do return k (← f')) :=
  hf.bind fun a => agrees_pure (k a)

theorem agrees_ite {p p' : Prop} [Decidable p] [Decidable p'] (hp : p ↔ p')
    {f f' g g' : Act Compilation α} (hf : f.Agrees f') (hg : g.Agrees g') :
    (if p then f else g).Agrees (if p' then f' else g') := by
  by_cases h : p
  · rwa [if_pos h, if_pos (hp.1 h)]
  · rwa [if_neg h, if_neg (mt hp.2 h)]

/-- What is read off the contexts, and what follows from it. -/
theorem agrees_read_bind {k : Compilation → α} {g g' : α → Act Compilation β}
    (h : ∀ ⦃ctx ctx'⦄, ctx.Alike ctx' → (g (k ctx)).Agrees (g' (k ctx'))) :
    (read k >>= g).Agrees (read k >>= g') := fun _ _ hctx => h hctx hctx

theorem agrees_mapM {R : β → γ → Prop} {f : β → Act Compilation α} {f' : γ → Act Compilation α}
    (h : ∀ b b', R b b' → (f b).Agrees (f' b')) {bs : List β} {bs' : List γ}
    (hbs : List.Forall₂ R bs bs') : (bs.mapM f).Agrees (bs'.mapM f') := by
  induction hbs with
  | nil => exact agrees_pure []
  | cons hb _ ih =>
    rw [List.mapM_cons, List.mapM_cons]
    exact (h _ _ hb).bind fun a => ih.map (a :: ·)

/-- The same list, with actions that agree on each of its elements. -/
theorem agrees_mapM_same {f f' : β → Act Compilation α} (h : ∀ b, (f b).Agrees (f' b))
    (bs : List β) : (bs.mapM f).Agrees (bs.mapM f') := by
  refine agrees_mapM (R := fun b b' => b = b') ?_ (List.forall₂_same.2 fun _ _ => rfl)
  rintro b _ rfl
  exact h b

end Act

/-- Values are bound to numbers in turn, whatever they are. -/
theorem Compilation.bind_agrees (param param' : Param) : (bind param).Agrees (bind param') := by
  intro ctx ctx' hctx
  have hsize : ctx.binder.params.length = ctx'.binder.params.length := hctx.size
  refine ⟨?_, hctx.tableAlias, hctx.joins, ?_⟩
  · simp [bind, Binder.bind, hsize]
  · simp [bind, Binder.bind, Binder.size, hsize]

theorem Compilation.addClause_agrees (name : String) (join : Join) :
    (addClause name join).Agrees (addClause name join) := by
  intro ctx ctx' hctx
  have hjoined : ctx.isJoined name = ctx'.isJoined name := by
    rw [isJoined, isJoined, hctx.joins]
  rw [addClause, Act.perform_change, Act.perform_change, hjoined]
  refine ⟨rfl, ?_⟩
  split
  · exact hctx
  · exact ⟨hctx.tableAlias, congrArg (· ++ [(name, join)]) hctx.joins, hctx.size⟩

/-! ### Filters -/

theorem EmbeddedFilter.column_agrees (f : EmbeddedFilter) (sub : Option String) :
    (f.column sub).Agrees (f.column sub) := by
  cases sub with
  | none => exact Act.agrees_fail _
  | some sub =>
    refine (Act.agrees_ofExcept _).bind fun _ => ?_
    refine Act.agrees_ite .rfl (Act.agrees_read_bind fun ctx ctx' hctx => ?_) (Act.agrees_fail _)
    rw [hctx.tableAlias]
    exact Act.agrees_ofExcept _

namespace ForeignFilter

/-- A join has the same names and the same placeholder, whatever value it is for. -/
theorem ensureJoined_agrees (f : ForeignFilter) (value : Value) :
    f.ensureJoined.Agrees (f.withValue value).ensureJoined := by
  refine Act.agrees_read_bind fun ctx ctx' hctx => ?_
  have hjoined : ctx.isJoined f.name = ctx'.isJoined f.name := by
    rw [Compilation.isJoined, Compilation.isJoined, hctx.joins]
  refine Act.agrees_ite (Eq.congr hjoined rfl) (Act.agrees_pure ()) ?_
  refine (Act.agrees_ofExcept _).bind fun target => ?_
  dsimp only [id]
  rw [hctx.tableAlias]
  refine (Act.agrees_ofExcept _).bind fun entity => ?_
  rw [withValue]
  rcases f.discriminator with _ | ⟨column, own⟩
  · exact Compilation.addClause_agrees _ _
  · refine (Compilation.bind_agrees _ _).bind fun slot => ?_
    exact (Act.agrees_ofExcept _).bind fun e => Compilation.addClause_agrees _ _

theorem column_agrees (f : ForeignFilter) (value : Value) (sub : Option String) :
    (f.column sub).Agrees ((f.withValue value).column sub) := by
  have hjoined : ∀ name, (do f.ensureJoined; Act.ofExcept (Expr.ofNames f.joinAlias name)).Agrees
      (do (f.withValue value).ensureJoined; Act.ofExcept (Expr.ofNames f.joinAlias name)) :=
    fun name => (ensureJoined_agrees f value).bind fun _ => Act.agrees_ofExcept _
  cases sub with
  | none => exact hjoined f.targetId
  | some sub =>
    refine (Act.agrees_ofExcept (Identifier.check sub)).bind fun _ => ?_
    refine Act.agrees_ite .rfl (hjoined sub) ?_
    exact (Act.agrees_fail _).bind fun name => hjoined name

end ForeignFilter

theorem JoinFilter.Alike.column_agrees {f f' : JoinFilter} (h : f.Alike f') (sub : Option String) :
    (f.column sub).Agrees (f'.column sub) := by
  cases h with
  | embedded f => exact f.column_agrees sub
  | foreign f value => exact f.column_agrees value sub
  | custom h => exact h sub

theorem JoinFilter.Alike.name {f f' : JoinFilter} (h : f.Alike f') : f.name = f'.name := by
  cases h <;> rfl

/-- Compilers that are alike filter by filter are alike. -/
theorem JoinFilter.Alike.find? {fs fs' : List JoinFilter} (h : List.Forall₂ JoinFilter.Alike fs fs')
    (name : String) : Option.Rel JoinFilter.Alike (fs.find? (·.name = name))
      (fs'.find? (·.name = name)) := by
  induction h with
  | nil => exact .none
  | @cons f f' fs fs' hf _ ih =>
    rw [List.find?_cons, List.find?_cons, hf.name]
    split
    · exact .some hf
    · exact ih

theorem Search.Alike.conditionsIn {s s' : Search} (h : s.Alike s') (block : Block) :
    List.Forall₂ Condition.Alike (s.conditionsIn block) (s'.conditionsIn block) :=
  forall₂_conditionsIn (fun _ _ hcond => hcond.block) h.conditions block

namespace QueryCompiler

variable {c c' : QueryCompiler} {s s' : Search}

/-! ### Conditions -/

theorem Alike.resolve (hc : c.Alike c') (attr : String) :
    (c.resolve attr).Agrees (c'.resolve attr) := by
  unfold QueryCompiler.resolve
  rw [hc.table, hc.schema]
  split
  next name _ =>
    have hrel := hc.filters name
    generalize c.filter? name = f?, c'.filter? name = f?' at hrel ⊢
    refine Act.agrees_ite .rfl ?_ ?_
    · refine Act.agrees_read_bind fun ctx ctx' hctx => ?_
      rw [hctx.tableAlias]
      exact (Act.agrees_ofExcept _).map _
    · cases hrel with
      | none => exact Act.agrees_fail _
      | some h => exact (h.column_agrees none).map _
  next name sub _ =>
    have hrel := hc.filters name
    generalize c.filter? name = f?, c'.filter? name = f?' at hrel ⊢
    cases hrel with
    | none => exact Act.agrees_fail _
    | some h => exact (h.column_agrees (some sub)).map _
  next => exact Act.agrees_fail _

/-- Which predicate a condition has, and what is wrong with it, is a matter of the operand's
    shape. -/
theorem Alike.predicate (hc : c.Alike c') {cond cond' : Condition} (h : cond.Alike cond') :
    (c.predicate cond).Agrees (c'.predicate cond') := by
  obtain ⟨attr, operator, operand, block⟩ := cond
  obtain ⟨_, _, operand', _⟩ := cond'
  obtain ⟨rfl, rfl, rfl, hshape⟩ := h
  refine (hc.resolve attr).bind fun column => ?_
  have hcompare : ∀ v w : Value, (do
      let slot ← Compilation.bind (.ofValue v)
      return Predicate.compare column.expr operator slot).Agrees (do
      let slot ← Compilation.bind (.ofValue w)
      return Predicate.compare column.expr operator slot) :=
    fun v w => (Compilation.bind_agrees _ _).map _
  cases hshape with
  | null =>
    cases operator with
    | eq | ne => exact Act.agrees_pure _
    | gt | ge | lt | le | like | oneOf => exact Act.agrees_fail _
  | scalar hv hw =>
    cases operand with
    | null | array | object => exact hv.elim
    | bool | number | string =>
      cases operand' with
      | null | array | object => exact hw.elim
      | bool | number | string =>
        cases operator with
        | oneOf => exact Act.agrees_fail _
        | eq | ne | gt | ge | lt | le | like => exact hcompare _ _
  | @array vs ws hlength =>
    cases operator with
    | oneOf =>
      rcases vs with _ | ⟨v, vs⟩ <;> rcases ws with _ | ⟨w, ws⟩
      · exact Act.agrees_pure _
      · cases hlength
      · cases hlength
      · have hslots : List.Forall₂ (fun _ _ => True) (v :: vs) (w :: ws) :=
          List.forall₂_iff_get.2 ⟨hlength, fun _ _ _ => trivial⟩
        exact (Act.agrees_mapM (fun _ _ _ => Compilation.bind_agrees _ _) hslots).map _
    | eq | ne | gt | ge | lt | le | like => exact Act.agrees_fail _
  | object => cases operator <;> exact Act.agrees_fail _

theorem Alike.rowFilter (hc : c.Alike c') (hs : s.Alike s') :
    (c.rowFilter s).Agrees (c'.rowFilter s') := by
  have hblock := fun block =>
    Act.agrees_mapM (fun _ _ hcond => hc.predicate hcond) (hs.conditionsIn block)
  exact (hblock .and).bind fun all => (hblock .or).map _

/-! ### Statements -/

theorem Alike.selectList (hc : c.Alike c') (keys groups : List Column)
    (selection : Option (List String)) :
    (c.selectList keys groups selection).Agrees (c'.selectList keys groups selection) := by
  cases selection with
  | none => exact Act.agrees_pure _
  | some attrs =>
    refine Act.Agrees.map ?_ _
    refine (Act.agrees_mapM_same (fun key : Column => hc.resolve key.label) _).bind fun missing => ?_
    exact (Act.agrees_mapM_same hc.resolve attrs).map _

theorem Alike.keyColumns (hc : c.Alike c') : c.keyColumns = c'.keyColumns := by
  rw [QueryCompiler.keyColumns, hc.schema]
  rfl

theorem Alike.selectStatement (hc : c.Alike c') (hs : s.Alike s') :
    (c.selectStatement s).Agrees (c'.selectStatement s') := by
  unfold QueryCompiler.selectStatement
  rw [hs.paging, hc.limits, hc.keyColumns, hs.groups, hs.selection, hs.order, hc.table]
  refine (Act.agrees_ofExcept _).bind fun limit => (Act.agrees_ofExcept _).bind fun keys => ?_
  refine (Act.agrees_mapM_same hc.resolve _).bind fun groups => ?_
  refine (hc.selectList keys groups _).bind fun selected => (hc.rowFilter hs).bind fun filter => ?_
  have hsort : ∀ o : SortKey, Act.Agrees (do return ((← c.resolve o.attr).expr, o.direction))
      (do return ((← c'.resolve o.attr).expr, o.direction)) := fun o => (hc.resolve o.attr).map _
  refine (Act.agrees_mapM_same hsort _).bind fun orderBy => ?_
  refine Act.agrees_read_bind fun ctx ctx' hctx => ?_
  rw [hctx.joins]
  exact Act.agrees_pure _

theorem Alike.countStatement (hc : c.Alike c') (hs : s.Alike s') :
    (c.countStatement s).Agrees (c'.countStatement s') := by
  unfold QueryCompiler.countStatement
  rw [hc.keyColumns, hc.table]
  refine (Act.agrees_ofExcept _).bind fun keys => (hc.rowFilter hs).bind fun filter => ?_
  refine Act.agrees_read_bind fun ctx ctx' hctx => ?_
  rw [hctx.joins]
  exact Act.agrees_pure _

/-- Compilations that agree come to the same. -/
theorem finish_comesToTheSame {statement : Type} (sql : statement → String) (groups : List String)
    {act act' : Act Compilation (statement × List Column)} (h : act.Agrees act') :
    ComesToTheSame sql (finish groups act) (finish groups act') := by
  have hstart : ({ tableAlias := searchedAlias } : Compilation).Alike
      { tableAlias := searchedAlias } := ⟨rfl, rfl, rfl⟩
  obtain ⟨hresult, hctx⟩ := h hstart
  rw [finish, finish]
  generalize act.perform _ = r, act'.perform _ = r' at hresult hctx
  obtain ⟨result, ctx⟩ := r
  obtain ⟨_, ctx'⟩ := r'
  obtain rfl := hresult
  rcases result with e | ⟨compiled, keys⟩
  · exact .refused e
  · exact .compiled rfl hctx.size rfl rfl

/-- Searches that differ in operands of one shape only, under compilers that differ in the values of
    discriminators only, come to the same, and so do their counts. -/
theorem compile_alike (hc : c.Alike c') (hs : s.Alike s') :
    ComesToTheSame SelectStatement.sql (c.compile s) (c'.compile s') ∧
      ComesToTheSame CountStatement.sql (c.compileCount s) (c'.compileCount s') := by
  have hsearch := finish_comesToTheSame SelectStatement.sql s.groups (hc.selectStatement hs)
  have hcount := finish_comesToTheSame CountStatement.sql [] (hc.countStatement hs)
  rw [compile, compile, ← hs.groups]
  exact ⟨hsearch, hcount⟩

/-- Products with other rows for their colors. -/
def recolored : QueryCompiler :=
  { products with filters := [.embedded prices, .foreign vendors,
      .foreign (colors.withValue (.object [("hue", .null)]))] }

/-- Products of a status and above a price, or of a color. -/
def offered (price color : Value) (statuses : List Value) : Search :=
  ((({} : Search).require "price.amount" .gt price).requireIn "status" statuses).allowEq
    "color.value" color

theorem offered_alike {price price' color color' : Value} {statuses statuses' : List Value}
    (hprice : price.SameShape price') (hcolor : color.SameShape color')
    (hstatuses : statuses.length = statuses'.length) :
    (offered price color statuses).Alike (offered price' color' statuses') where
  selection := rfl
  conditions := .cons ⟨rfl, rfl, rfl, hprice⟩
    (.cons ⟨rfl, rfl, rfl, .array hstatuses⟩ (.cons ⟨rfl, rfl, rfl, hcolor⟩ .nil))
  paging := rfl
  order := rfl
  groups := rfl

theorem products_alike_recolored : products.Alike recolored where
  table := rfl
  schema := rfl
  limits := rfl
  filters := JoinFilter.Alike.find? (.cons (.embedded prices)
    (.cons (.foreign vendors .null) (.cons (.foreign colors _) .nil)))

/-- Prices, colors and statuses of any kind leave the text as it is, also one that looks like a
    statement; and so do those that are refused leave the refusal. -/
theorem products_hides_values :
    (∃ q q', products.compile (offered (.int 5) .null [.null, .bool true]) = .ok q ∧
      recolored.compile (offered (.string "0; DROP TABLE product; --") .null
        [.array [], .string "?1"]) = .ok q' ∧
      q.statement.sql = q'.statement.sql ∧ q.values.length = q'.values.length ∧
      q.values ≠ q'.values) ∧
    ComesToTheSame SelectStatement.sql (products.compile (offered (.array [.null]) .null []))
      (recolored.compile (offered (.array [.int 7]) .null [])) := by
  have hprice : (Value.int 5).SameShape (.string "0; DROP TABLE product; --") :=
    .scalar trivial trivial
  have hoffered : (offered (.int 5) .null [.null, .bool true]).Alike
      (offered (.string "0; DROP TABLE product; --") .null [.array [], .string "?1"]) :=
    offered_alike hprice .null rfl
  have hrefused : (offered (.array [.null]) .null []).Alike (offered (.array [.int 7]) .null []) :=
    offered_alike (.array rfl) .null rfl
  refine ⟨?_, (compile_alike products_alike_recolored hrefused).1⟩
  obtain ⟨q, hq⟩ : ∃ q, products.compile (offered (.int 5) .null [.null, .bool true]) = .ok q :=
    ⟨_, rfl⟩
  obtain ⟨q', hq'⟩ : ∃ q', recolored.compile (offered (.string "0; DROP TABLE product; --") .null
      [.array [], .string "?1"]) = .ok q' := ⟨_, rfl⟩
  have hdiffer : q.values ≠ q'.values := by
    cases hq
    cases hq'
    decide +kernel
  have hsame := (compile_alike products_alike_recolored hoffered).1
  rw [hq, hq'] at hsame
  cases hsame with
  | compiled text values => exact ⟨q, q', hq, hq', text, values, hdiffer⟩

end QueryCompiler

end RecordStore
