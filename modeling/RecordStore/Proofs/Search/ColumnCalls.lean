import RecordStore.Proofs.Search.Compiler
import RecordStore.Proofs.Search.Registration
import Mathlib.Data.List.Induction

/-!
# Calls for columns

A filter is called for the column of one of its properties, or for that of the bare name
(`ColumnCall`), in a context that calls of other filters have left. Such a call may join a table and
bind a value on its way, and there is much that it can fail of: the name behind the dot, a property
of that name, the alias of the searched table. A table is joined only when nothing can fail any more
(`ForeignFilter.IsNamed.ensureJoined`), as the names that the join is made of have passed the guard
when the filter was made.

So a call of a filter that comes with the library either fails and changes nothing, or it returns
the column that there is for it and leaves the context with the join (`ColumnCall.perform_act`).
Calls in turn leave one join for each filter for another table that was called for with success, in
the order of these first successes (`Compilation.column_calls_join_once`).
-/

namespace RecordStore

/-- A call for the column of a property, or for that of the bare name. -/
structure ColumnCall where
  filter : JoinFilter
  sub : Option String

def ColumnCall.act (call : ColumnCall) : Act Compilation Expr := call.filter.column call.sub

namespace Compilation

/-- What calls leave, whether or not they fail. -/
def after (ctx : Compilation) (calls : List ColumnCall) : Compilation :=
  calls.foldl (fun ctx call => (call.act.perform ctx).2) ctx

/-- Calls with their results. -/
def answers : Compilation → List ColumnCall → List (ColumnCall × Except StoreError Expr)
  | _, [] => []
  | ctx, call :: calls =>
    (call, (call.act.perform ctx).1) :: answers (call.act.perform ctx).2 calls

end Compilation

/-- The filter for another table that was called for with success. -/
def ColumnCall.joined? : ColumnCall × Except StoreError Expr → Option ForeignFilter
  | (⟨.foreign f, _⟩, .ok _) => some f
  | _ => none

/-! ### What one call does -/

theorem Compilation.perform_addClause {ctx : Compilation} {name : String}
    (h : ctx.isJoined name = false) (join : Join) :
    (addClause name join).perform ctx =
      (.ok (), { ctx with joins := ctx.joins ++ [(name, join)] }) := by
  rw [addClause, Act.perform_change, h]
  rfl

namespace ForeignFilter

variable {f : ForeignFilter} {ctx : Compilation}

/-- The values that are bound for the join. -/
def values (f : ForeignFilter) : List Param := (f.discriminator.map (.ofValue ·.2)).toList

/-- The join in a statement on a table with this alias, with this placeholder. -/
def joinAt (f : ForeignFilter) (tableAlias : String) (slot : Nat) : Join :=
  .table { f.clause (f.discriminator.map fun d => (.column f.joinAlias d.1, slot)) with
    entity := .column tableAlias f.entityId }

/-- The context with the join, which is emitted if there is none of its name. -/
def joinTo (f : ForeignFilter) (ctx : Compilation) : Compilation :=
  if ctx.isJoined f.name then ctx
  else { ctx with
    binder := ⟨ctx.binder.params ++ f.values⟩
    joins := ctx.joins ++ [(f.name, f.joinAt ctx.tableAlias (ctx.binder.params.length + 1))] }

theorem joinTo_of_joined (h : ctx.isJoined f.name = true) : f.joinTo ctx = ctx := if_pos h

theorem joinTo_of_new (h : ctx.isJoined f.name = false) :
    f.joinTo ctx = { ctx with
      binder := ⟨ctx.binder.params ++ f.values⟩
      joins := ctx.joins ++
        [(f.name, f.joinAt ctx.tableAlias (ctx.binder.params.length + 1))] } := by
  rw [joinTo, h]
  rfl

/-- A join of the filter, whose placeholder is that of the value of its discriminator. -/
def JoinsUnder (f : ForeignFilter) (tableAlias : String) (values : List Param) (join : Join) :
    Prop :=
  ∃ slot, join = f.joinAt tableAlias slot ∧ ∀ d ∈ f.discriminator, Holds values slot d.2

theorem JoinsUnder.mono {tableAlias : String} {values values' : List Param} {join : Join}
    (h : f.JoinsUnder tableAlias values join) (hle : values <+: values') :
    f.JoinsUnder tableAlias values' join := by
  obtain ⟨slot, hjoin, hslot⟩ := h
  exact ⟨slot, hjoin, fun d hd => (hslot d hd).mono hle⟩

theorem joinAt_joinsUnder (f : ForeignFilter) (tableAlias : String) (values : List Param) :
    f.JoinsUnder tableAlias (values ++ f.values) (f.joinAt tableAlias (values.length + 1)) := by
  refine ⟨_, rfl, fun d hd => ?_⟩
  have hvalues : f.values = [.ofValue d.2] := by
    rw [ForeignFilter.values, hd]
    rfl
  simp [Holds, hvalues]

theorem IsNamed.ensureJoined (h : f.IsNamed) (ctx : Compilation) :
    (∃ e, f.ensureJoined.perform ctx = (.error e, ctx)) ∨
      f.ensureJoined.perform ctx = (.ok (), f.joinTo ctx) := by
  rw [ForeignFilter.ensureJoined, Act.perform_bind, Act.perform_read]
  dsimp only [id]
  rw [joinTo]
  split
  · exact .inr rfl
  next hnew =>
    rw [Bool.not_eq_true] at hnew
    rw [Act.perform_bind, Act.perform_ofExcept, Expr.ofNames_of_isValid h.joinAlias h.targetId]
    dsimp only
    rw [Act.perform_bind, Act.perform_ofExcept]
    cases hentity : Expr.ofNames ctx.tableAlias f.entityId with
    | error e => exact .inl ⟨e, rfl⟩
    | ok entity =>
      obtain ⟨rfl, -⟩ := Expr.ofNames_eq_ok hentity
      refine .inr ?_
      dsimp only
      rw [joinAt, values]
      rcases hd : f.discriminator with _ | ⟨column, value⟩
      · rw [Act.perform_bind, Act.perform_pure]
        dsimp only
        rw [Compilation.perform_addClause hnew]
        simp [clause]
      · -- A discriminator is bound only now that nothing can fail.
        have hcolumn := Expr.ofNames_of_isValid h.joinAlias (h.discriminator _ hd)
        simp only [Act.perform_bind, Compilation.bind, Act.perform_make, Act.perform_ofExcept,
          hcolumn, Act.perform_pure]
        rw [Compilation.perform_addClause (by exact hnew)]
        rfl

/-- A call fails and changes nothing, or it joins and returns the column that there is for it. -/
theorem IsNamed.column (h : f.IsNamed) (sub : Option String) (ctx : Compilation) :
    (∃ e, (f.column sub).perform ctx = (.error e, ctx)) ∨
      (f.column sub).perform ctx =
        (.ok (.column f.joinAlias (sub.getD f.targetId)), f.joinTo ctx) := by
  -- What stands behind the dot is checked first, and the rest is the same without it.
  have hjoined : ∀ name, Identifier.isValid name = true →
      (∃ e, (do f.ensureJoined; Act.ofExcept (Expr.ofNames f.joinAlias name) :
        Act Compilation Expr).perform ctx = (.error e, ctx)) ∨
      (do f.ensureJoined; Act.ofExcept (Expr.ofNames f.joinAlias name) :
        Act Compilation Expr).perform ctx = (.ok (.column f.joinAlias name), f.joinTo ctx) := by
    intro name hname
    rw [Act.perform_bind]
    rcases h.ensureJoined ctx with ⟨e, he⟩ | hok
    · exact .inl ⟨e, by rw [he]⟩
    · rw [hok, Expr.ofNames_of_isValid h.joinAlias hname]
      exact .inr rfl
  cases sub with
  | none => exact hjoined f.targetId h.targetId
  | some sub =>
    rw [ForeignFilter.column, Act.perform_bind, Act.perform_ofExcept]
    cases hcheck : Identifier.check sub with
    | error e => exact .inl ⟨e, rfl⟩
    | ok =>
      obtain ⟨hsub, -⟩ := Identifier.check_eq_ok_iff.1 hcheck
      dsimp only
      split
      · exact hjoined sub hsub
      · exact .inl ⟨_, rfl⟩

end ForeignFilter

theorem EmbeddedFilter.column_perform (f : EmbeddedFilter) (sub : Option String)
    (ctx : Compilation) :
    (∃ e, (f.column sub).perform ctx = (.error e, ctx)) ∨
      (f.column sub).perform ctx =
        (.ok (.column ctx.tableAlias (f.stem ++ "_" ++ sub.getD "")), ctx) := by
  cases sub with
  | none => exact .inl ⟨_, rfl⟩
  | some sub =>
    rw [column, Act.perform_bind, Act.perform_ofExcept]
    cases hcheck : Identifier.check sub with
    | error e => exact .inl ⟨e, rfl⟩
    | ok =>
      dsimp only
      split
      · simp only [Act.perform_bind, Act.perform_read, Act.perform_ofExcept]
        cases he : Expr.ofNames ctx.tableAlias (f.stem ++ "_" ++ sub) with
        | error e => exact .inl ⟨e, rfl⟩
        | ok =>
          obtain ⟨rfl, -⟩ := Expr.ofNames_eq_ok he
          exact .inr rfl
      · exact .inl ⟨_, rfl⟩

/-- The context after a call for a column that succeeds. -/
def JoinFilter.joinTo : JoinFilter → Compilation → Compilation
  | foreign f, ctx => f.joinTo ctx
  | _, ctx => ctx

namespace ColumnCall

/-- The column that is returned, if one is, in a statement on a table with this alias. -/
def expr (tableAlias : String) : ColumnCall → Expr
  | ⟨.embedded f, sub⟩ => .column tableAlias (f.stem ++ "_" ++ sub.getD "")
  | ⟨.foreign f, sub⟩ => .column f.joinAlias (sub.getD f.targetId)
  | ⟨.custom .., _⟩ => default

theorem perform_act {call : ColumnCall} (h : call.filter.IsStandard) (ctx : Compilation) :
    (∃ e, call.act.perform ctx = (.error e, ctx)) ∨
      call.act.perform ctx = (.ok (call.expr ctx.tableAlias), call.filter.joinTo ctx) := by
  obtain ⟨f, sub⟩ := call
  cases f with
  | embedded f => exact f.column_perform sub ctx
  | foreign f => exact h.made.isNamed.column sub ctx
  | custom => cases h

end ColumnCall

/-! ### Runs of calls -/

namespace Compilation

/-- What joins of these filters make of a context: their clauses come after those there were, and
    their values after those that were bound. -/
structure JoinsFor (ctx ctx' : Compilation) (fs : List ForeignFilter) : Prop where
  tableAlias : ctx'.tableAlias = ctx.tableAlias
  joins : ∃ entries, ctx'.joins = ctx.joins ++ entries ∧ List.Forall₂ (fun f entry =>
    entry.1 = f.name ∧ f.JoinsUnder ctx.tableAlias ctx'.binder.params entry.2) fs entries
  values : ctx'.binder.params = ctx.binder.params ++ fs.flatMap (·.values)

variable {ctx ctx' : Compilation} {f : ForeignFilter} {fs : List ForeignFilter}

theorem JoinsFor.refl (ctx : Compilation) : JoinsFor ctx ctx [] :=
  ⟨rfl, ⟨[], (List.append_nil _).symm, .nil⟩, (List.append_nil _).symm⟩

theorem JoinsFor.isJoined_iff (h : JoinsFor ctx ctx' fs) {name : String} :
    ctx'.isJoined name = true ↔ ctx.isJoined name = true ∨ name ∈ fs.map (·.name) := by
  obtain ⟨entries, hjoins, hentries⟩ := h.joins
  have hnames : entries.map (·.1) = fs.map (·.name) :=
    map_eq_map_of_forall₂ (hentries.flip.imp fun _ _ hentry => hentry.1)
  rw [isJoined, hjoins, List.any_append, Bool.or_eq_true, ← hnames]
  simp [isJoined]

/-- A filter that is not joined is joined last. -/
theorem JoinsFor.push (h : JoinsFor ctx ctx' fs) (hnew : ctx'.isJoined f.name = false) :
    JoinsFor ctx (f.joinTo ctx') (fs ++ [f]) := by
  obtain ⟨entries, hjoins, hentries⟩ := h.joins
  have hle : ctx'.binder.params <+: ctx'.binder.params ++ f.values := List.prefix_append _ _
  have hclause := f.joinAt_joinsUnder ctx.tableAlias ctx'.binder.params
  generalize hjoin : f.joinAt ctx.tableAlias (ctx'.binder.params.length + 1) = join at hclause
  rw [ForeignFilter.joinTo_of_new hnew, h.tableAlias, hjoin]
  refine ⟨rfl, ⟨entries ++ [(f.name, join)], ?_, ?_⟩, ?_⟩
  · dsimp only
    rw [hjoins, List.append_assoc]
  · exact List.rel_append (hentries.imp fun _ _ hentry => ⟨hentry.1, hentry.2.mono hle⟩)
      (.cons ⟨rfl, hclause⟩ .nil)
  · dsimp only
    rw [h.values, List.flatMap_append, List.flatMap_singleton, List.append_assoc]

/-- The filters that are joined when these are called for in turn: each once, in the order in which
    they come first. -/
def firstsOf (ctx : Compilation) (fs : List ForeignFilter) : List ForeignFilter :=
  (fs.filter fun f => !ctx.isJoined f.name).foldl (keepNew (·.name)) []

theorem firstsOf_append_singleton (ctx : Compilation) (fs : List ForeignFilter)
    (f : ForeignFilter) : ctx.firstsOf (fs ++ [f]) =
      if ctx.isJoined f.name then ctx.firstsOf fs else keepNew (·.name) (ctx.firstsOf fs) f := by
  rw [firstsOf, List.filter_append, List.foldl_append]
  cases hold : ctx.isJoined f.name <;> simp [hold, firstsOf]

theorem joinsFor_firstsOf (ctx : Compilation) (fs : List ForeignFilter) :
    JoinsFor ctx (fs.foldl (fun ctx f => f.joinTo ctx) ctx) (ctx.firstsOf fs) := by
  induction fs using List.reverseRecOn with
  | nil => exact .refl ctx
  | append_singleton fs f ih =>
    rw [List.foldl_append, List.foldl_cons, List.foldl_nil, firstsOf_append_singleton]
    generalize fs.foldl (fun ctx f => f.joinTo ctx) ctx = ctx' at ih ⊢
    have hjoined : ctx'.isJoined f.name = true ↔ _ := ih.isJoined_iff
    -- The last filter was joined at first, or with one before it, or is joined now.
    split
    next hold =>
      rw [ForeignFilter.joinTo_of_joined (hjoined.2 (.inl hold))]
      exact ih
    next hold =>
      have hkept : (ctx.firstsOf fs).any (·.name = f.name) = ctx'.isJoined f.name := by
        rw [Bool.eq_iff_iff, hjoined, or_iff_right hold]
        simp
      rw [keepNew, hkept]
      cases hnew : ctx'.isJoined f.name with
      | true =>
        rw [ForeignFilter.joinTo_of_joined hnew]
        exact ih
      | false => exact ih.push hnew

theorem tableAlias_joinTo (f : JoinFilter) (ctx : Compilation) :
    (f.joinTo ctx).tableAlias = ctx.tableAlias := by
  cases f with
  | foreign f =>
    rw [JoinFilter.joinTo, ForeignFilter.joinTo]
    split <;> rfl
  | embedded | custom => rfl

/-- Only calls that succeed for a column of another table leave anything. -/
theorem after_eq_foldl (calls : List ColumnCall) (hcalls : ∀ call ∈ calls, call.filter.IsStandard)
    (ctx : Compilation) : ctx.after calls =
      ((ctx.answers calls).filterMap ColumnCall.joined?).foldl (fun ctx f => f.joinTo ctx) ctx := by
  induction calls generalizing ctx with
  | nil => rfl
  | cons call calls ih =>
    obtain ⟨hcall, hrest⟩ := List.forall_mem_cons.1 hcalls
    rw [after, List.foldl_cons, ← after, ih hrest, answers]
    obtain ⟨f, sub⟩ := call
    rcases ColumnCall.perform_act hcall ctx with ⟨e, he⟩ | hok
    · rw [he]
      cases f <;> rfl
    · rw [hok]
      cases f <;> rfl

theorem expr_of_mem_answers {calls : List ColumnCall}
    (hcalls : ∀ call ∈ calls, call.filter.IsStandard) {call : ColumnCall} {e : Expr}
    (h : (call, .ok e) ∈ ctx.answers calls) : e = call.expr ctx.tableAlias := by
  induction calls generalizing ctx with
  | nil => exact absurd h List.not_mem_nil
  | cons first calls ih =>
    obtain ⟨hfirst, hrest⟩ := List.forall_mem_cons.1 hcalls
    rw [answers] at h
    rcases ColumnCall.perform_act hfirst ctx with ⟨e', he⟩ | hok
    · rw [he] at h
      rcases List.mem_cons.1 h with heq | h
      · cases heq
      · exact ih hrest h
    · rw [hok] at h
      rcases List.mem_cons.1 h with heq | h
      · cases heq
        rfl
      · rw [← tableAlias_joinTo first.filter ctx]
        exact ih hrest h

theorem mem_of_mem_answers {calls : List ColumnCall} {call : ColumnCall}
    {result : Except StoreError Expr} (h : (call, result) ∈ ctx.answers calls) : call ∈ calls := by
  induction calls generalizing ctx with
  | nil => exact absurd h List.not_mem_nil
  | cons first calls ih =>
    rcases List.mem_cons.1 h with heq | h
    · cases heq
      exact List.mem_cons_self
    · exact List.mem_cons_of_mem _ (ih h)

theorem mem_joined_iff {calls : List ColumnCall} :
    f ∈ (ctx.answers calls).filterMap ColumnCall.joined? ↔
      ∃ call e, (call, .ok e) ∈ ctx.answers calls ∧ call.filter = .foreign f := by
  rw [List.mem_filterMap]
  constructor
  · rintro ⟨⟨⟨g, sub⟩, result⟩, hmem, hjoined⟩
    cases g <;> cases result <;> cases hjoined
    exact ⟨_, _, hmem, rfl⟩
  · rintro ⟨⟨g, sub⟩, e, hmem, rfl⟩
    exact ⟨_, hmem, rfl⟩

/-- Filters that are told apart by their names are all there. -/
theorem mem_firstsOf_iff {filters : List JoinFilter} (hdistinct : (filters.map (·.name)).Nodup)
    (hfs : ∀ f ∈ fs, .foreign f ∈ filters) :
    f ∈ ctx.firstsOf fs ↔ ctx.isJoined f.name = false ∧ f ∈ fs := by
  have hkeeps := foldl_keepNew (·.name) [] (fs.filter fun f => !ctx.isJoined f.name)
  have hmem : ∀ g, g ∈ ctx.firstsOf fs → ctx.isJoined g.name = false ∧ g ∈ fs := by
    intro g hg
    have hfiltered := List.mem_filter.1 (hkeeps.mem hg)
    exact ⟨by simpa using hfiltered.2, hfiltered.1⟩
  refine ⟨hmem f, fun ⟨hnew, hf⟩ => ?_⟩
  have hfiltered : f ∈ fs.filter fun f => !ctx.isJoined f.name :=
    List.mem_filter.2 ⟨hf, by simp [hnew]⟩
  obtain ⟨g, hg, hname⟩ := List.mem_map.1 (hkeeps.covers hfiltered)
  have hsame : JoinFilter.foreign g = .foreign f :=
    List.inj_on_of_nodup_map hdistinct (hfs g (hmem g hg).2) (hfs f hf) hname
  cases hsame
  exact hg

/-- Columns are called for in turn, of filters with different names, in a statement on a table with
    any alias.
    * A call that fails leaves the joins and the bound values as they were.
    * The joins are those that there were and, for each filter for another table that a call has
      succeeded for, its clause, in the order of these first successes. Nothing is joined twice.
    * The values are those that were bound and those of the discriminators of these filters, in the
      same order, and each clause has the placeholder of its own.
    * Calls of one filter for one property that succeed return the same. -/
theorem column_calls_join_once {filters : List JoinFilter} (hstandard : ∀ f ∈ filters, f.IsStandard)
    (hdistinct : (filters.map (·.name)).Nodup) {calls : List ColumnCall}
    (hcalls : ∀ call ∈ calls, call.filter ∈ filters) (ctx : Compilation) :
    (∀ (call : ColumnCall) (ctx₁ ctx₂ : Compilation) (e : StoreError), call.filter ∈ filters →
      call.act.perform ctx₁ = (.error e, ctx₂) → ctx₂ = ctx₁) ∧
    (∃ fs entries, fs = ctx.firstsOf ((ctx.answers calls).filterMap ColumnCall.joined?) ∧
      (fs.map (·.name)).Nodup ∧
      (∀ f, f ∈ fs ↔ ctx.isJoined f.name = false ∧
        ∃ call e, (call, .ok e) ∈ ctx.answers calls ∧ call.filter = .foreign f) ∧
      (ctx.after calls).joins = ctx.joins ++ entries ∧
      List.Forall₂ (fun f entry => entry.1 = f.name ∧
        f.JoinsUnder ctx.tableAlias (ctx.after calls).binder.params entry.2) fs entries ∧
      (ctx.after calls).binder.params = ctx.binder.params ++ fs.flatMap (·.values)) ∧
    ∀ call e e', (call, .ok e) ∈ ctx.answers calls → (call, .ok e') ∈ ctx.answers calls →
      e = e' := by
  have hcallsStandard : ∀ call ∈ calls, call.filter.IsStandard :=
    fun call hcall => hstandard _ (hcalls call hcall)
  refine ⟨fun call ctx₁ ctx₂ e hcall hrun => ?_, ?_, fun call e e' he he' => ?_⟩
  · rcases ColumnCall.perform_act (hstandard _ hcall) ctx₁ with ⟨e', herror⟩ | hok
    · rw [herror] at hrun
      exact (Prod.mk.inj hrun).2.symm
    · rw [hok] at hrun
      cases hrun
  · have hjoins := joinsFor_firstsOf ctx ((ctx.answers calls).filterMap ColumnCall.joined?)
    rw [← after_eq_foldl calls hcallsStandard] at hjoins
    obtain ⟨entries, hentries, hclauses⟩ := hjoins.joins
    refine ⟨_, entries, rfl, (foldl_keepNew _ [] _).nodup List.nodup_nil, fun f => ?_, hentries,
      hclauses, hjoins.values⟩
    rw [mem_firstsOf_iff hdistinct, mem_joined_iff]
    intro g hg
    obtain ⟨call, e, hmem, hg⟩ := mem_joined_iff.1 hg
    exact hg ▸ hcalls call (mem_of_mem_answers hmem)
  · rw [expr_of_mem_answers hcallsStandard he, expr_of_mem_answers hcallsStandard he']

/-- A statement on a table with an alias of its own. -/
def productStart : Compilation := { tableAlias := "p" }

/-- Calls for columns of products, two of which fail. -/
def productCalls : List ColumnCall := [
  ⟨.foreign colors, some "value"⟩, ⟨.foreign vendors, some "size"⟩, ⟨.embedded prices, none⟩,
  ⟨.foreign vendors, none⟩, ⟨.embedded prices, some "amount"⟩, ⟨.foreign colors, none⟩]

/-- The colors are joined first, and the vendors with the call that succeeds for them. -/
theorem productCalls_join_once :
    (productStart.after productCalls).joins.map (·.1) = ["color", "vendor"] ∧
      (productStart.after productCalls).binder.params = [.text "color"] := by
  have hcalls : ∀ call ∈ productCalls, call.filter ∈ QueryCompiler.products.filters := by
    simp [productCalls, QueryCompiler.products]
  have hbuilt := QueryCompiler.products_isMade.built
  obtain ⟨-, ⟨fs, entries, hfs, -, -, hjoins, hclauses, hvalues⟩, -⟩ :=
    column_calls_join_once hbuilt.filters hbuilt.distinct.1 hcalls productStart
  obtain rfl : fs = [colors, vendors] := hfs
  refine ⟨?_, hvalues⟩
  rcases hclauses with _ | ⟨hcolors, _ | ⟨hvendors, _ | _⟩⟩
  rw [hjoins, productStart, List.nil_append, List.map_cons, hcolors.1, List.map_singleton,
    hvendors.1]
  rfl

end Compilation

end RecordStore
