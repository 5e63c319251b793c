import RecordStore.Proofs.Search.Acceptance
import RecordStore.Proofs.Search.Columns

/-!
# Which tables are joined

An attribute *means* a filter for another table if it is the filter's name, alone or in front of a
dot (`ForeignFilter.IsMeantBy`). A compiled search joins the tables of the filters that one of its
attributes means, wherever it stands, a count those that one of its conditions means; each once, and
no others (`QueryCompiler.compiled_isWellJoined`). Every column in the text is one of the searched
table or of a joined one.

Joins are emitted while attributes are resolved. What an action does for some attributes
(`Act.Joins`) is to emit the joins of the filters that they mean, unless they are there, and to
return columns of the searched table and of joined ones only.
-/

namespace RecordStore

variable {α β : Type}

/-- The attribute is the name of the filter, or begins with it and a dot. -/
def ForeignFilter.IsMeantBy (f : ForeignFilter) (attr : String) : Prop :=
  attr = f.name ∨ ∃ sub, attr = f.name ++ "." ++ sub

/-- The join of the filter's table under its alias, which keeps rows without a counterpart exactly if
    the filter is optional. -/
def ForeignFilter.IsJoinedBy (f : ForeignFilter) (ts : List (Token Nat)) : Prop :=
  ∃ condition, ts = [.word (if f.isOptional then "LEFT" else "INNER"), .word "JOIN", .word f.table,
    .word "AS", .word f.joinAlias, .word "ON"] ++ condition ∧ .word "JOIN" ∉ condition

/-- The text joins the tables of these filters, which are those that the attributes mean. -/
structure IsWellJoined (c : QueryCompiler) (attrs : List String) (text : String)
    (fs : List ForeignFilter) : Prop where
  distinct : (fs.map (·.joinAlias)).Nodup
  meant : ∀ f, f ∈ fs ↔ .foreign f ∈ c.filters ∧ ∃ attr ∈ attrs, f.IsMeantBy attr
  /-- The joins stand behind the searched table, one for each filter, and no other follows. -/
  source : ∃ front joins back, tokensOf text =
      front ++ [.word "FROM", .word c.table, .word "AS", .word searchedAlias] ++ joins.flatten ++ back ∧
    List.Forall₂ ForeignFilter.IsJoinedBy fs joins ∧ ¬ BeginsJoin back
  /-- Every column is one of the searched table or of a joined one. -/
  based : ∀ qualifier name, .column qualifier name ∈ tokensOf text →
    qualifier = searchedAlias ∨ ∃ f ∈ fs, qualifier = f.joinAlias

/-- A column of the searched table, or of the table of a filter that was joined. -/
def Expr.IsBased (c : QueryCompiler) (ctx : Compilation) (e : Expr) : Prop :=
  ∃ tableAlias name, e = .column tableAlias name ∧ (tableAlias = searchedAlias ∨
    ∃ f, .foreign f ∈ c.filters ∧ ctx.isJoined f.name = true ∧ tableAlias = f.joinAlias)

/-- Between two contexts, the joins of the filters were emitted that these attributes mean, and no
    others; these are columns of what is joined then. -/
structure JoinedFor (c : QueryCompiler) (attrs : List String) (ctx ctx' : Compilation)
    (es : List Expr) : Prop where
  tableAlias : ctx'.tableAlias = searchedAlias
  joined : ∀ f, .foreign f ∈ c.filters → (ctx'.isJoined f.name = true ↔
    ctx.isJoined f.name = true ∨ ∃ attr ∈ attrs, f.IsMeantBy attr)
  based : ∀ e ∈ es, e.IsBased c ctx'

/-- If the action succeeds, it has emitted the joins for these attributes. -/
def Act.Joins (c : QueryCompiler) (f : Act Compilation α) (attrs : List String)
    (exprsOf : α → List Expr) : Prop :=
  ∀ ⦃ctx a ctx'⦄, ctx.tableAlias = searchedAlias → f.perform ctx = (.ok a, ctx') →
    JoinedFor c attrs ctx ctx' (exprsOf a)

variable {c : QueryCompiler}

/-! ### Attributes and filters -/

/-- An attribute of a filter. -/
def JoinFilter.attr (f : JoinFilter) : Option String → String
  | none => f.name
  | some sub => f.name ++ "." ++ sub

/-- In front of the first dot of an attribute of a filter stands the filter's name. -/
theorem JoinFilter.attr_front {f : JoinFilter} (hf : Identifier.isValid f.name = true)
    (sub : Option String) : (f.attr sub).toList.takeWhile (· ≠ '.') = f.name.toList := by
  have hname := Identifier.notMem_dot hf
  cases sub with
  | none =>
    exact List.takeWhile_eq_self_iff.2 fun c hc => decide_eq_true fun hdot => hname (hdot ▸ hc)
  | some sub =>
    rw [attr, toList_dotted]
    exact (cut_at_dot hname _).1

theorem ForeignFilter.isMeantBy_iff {f : ForeignFilter} {attr : String} :
    f.IsMeantBy attr ↔ ∃ sub, attr = (JoinFilter.foreign f).attr sub := by
  rw [Option.exists]
  rfl

namespace QueryCompiler

/-- The attributes of a filter mean no other one. -/
theorem Built.isMeantBy_attr_iff (hc : c.Built) {f : JoinFilter} (hf : f ∈ c.filters)
    {g : ForeignFilter} (hg : .foreign g ∈ c.filters) (sub : Option String) :
    g.IsMeantBy (f.attr sub) ↔ f = .foreign g := by
  rw [ForeignFilter.isMeantBy_iff]
  constructor
  · rintro ⟨sub', hattr⟩
    have hfront := JoinFilter.attr_front (hc.filters f hf).isValid sub
    rw [hattr, JoinFilter.attr_front (hc.filters _ hg).isValid, String.toList_inj] at hfront
    exact List.inj_on_of_nodup_map hc.distinct.1 hf hg hfront.symm
  · rintro rfl
    exact ⟨sub, rfl⟩

/-- Properties mean no filter. -/
theorem IsMade.not_isMeantBy (hc : c.IsMade) {name : String} (h : c.schema.contains name = true)
    {f : ForeignFilter} (hf : .foreign f ∈ c.filters) : ¬ f.IsMeantBy name := by
  rintro (rfl | ⟨sub, rfl⟩)
  · have hnew := hc.built.distinct.2 _ hf
    rw [JoinFilter.name, h] at hnew
    cases hnew
  · refine Identifier.notMem_dot (hc.schema.isValid h) ?_
    rw [toList_dotted]
    exact List.mem_append_right _ List.mem_cons_self

end QueryCompiler

/-! ### Joining step by step -/

theorem Expr.IsBased.mono {ctx ctx' : Compilation} {e : Expr} (h : e.IsBased c ctx)
    (hle : ∀ f, .foreign f ∈ c.filters → ctx.isJoined f.name = true → ctx'.isJoined f.name = true) :
    e.IsBased c ctx' := by
  obtain ⟨tableAlias, name, he, halias | ⟨f, hf, hjoined, halias⟩⟩ := h
  · exact ⟨tableAlias, name, he, .inl halias⟩
  · exact ⟨tableAlias, name, he, .inr ⟨f, hf, hle f hf hjoined, halias⟩⟩

namespace JoinedFor

variable {attrs attrs' : List String} {ctx ctx₁ ctx₂ : Compilation} {es es' : List Expr}

theorem refl (hctx : ctx.tableAlias = searchedAlias) : JoinedFor c [] ctx ctx [] where
  tableAlias := hctx
  joined := by simp
  based := by simp

/-- What was joined stays joined. -/
theorem trans (h : JoinedFor c attrs ctx ctx₁ es) (h' : JoinedFor c attrs' ctx₁ ctx₂ es') :
    JoinedFor c (attrs ++ attrs') ctx ctx₂ (es ++ es') where
  tableAlias := h'.tableAlias
  joined f hf := by
    rw [h'.joined f hf, h.joined f hf, or_assoc]
    simp only [List.mem_append, or_and_right, exists_or]
  based e he := by
    rcases List.mem_append.1 he with he | he
    · exact (h.based e he).mono fun f hf hjoined => (h'.joined f hf).2 (.inl hjoined)
    · exact h'.based e he

/-- Only which filters are meant matters, and fewer columns may be looked at. -/
theorem weaken (h : JoinedFor c attrs ctx ctx₁ es)
    (hattrs : ∀ f, .foreign f ∈ c.filters →
      ((∃ attr ∈ attrs, f.IsMeantBy attr) ↔ ∃ attr ∈ attrs', f.IsMeantBy attr))
    (hes : es' ⊆ es) : JoinedFor c attrs' ctx ctx₁ es' where
  tableAlias := h.tableAlias
  joined f hf := by rw [h.joined f hf, hattrs f hf]
  based e he := h.based e (hes he)

/-- From an empty context, the filters are joined that the attributes mean. -/
theorem isJoined_iff (h : JoinedFor c attrs { tableAlias := searchedAlias } ctx es)
    {f : ForeignFilter} (hf : .foreign f ∈ c.filters) :
    ctx.isJoined f.name = true ↔ ∃ attr ∈ attrs, f.IsMeantBy attr := by
  rw [h.joined f hf]
  simp [Compilation.isJoined]

end JoinedFor

namespace Act

theorem Joins.mapM {f : β → Act Compilation α} {attrsOf : β → List String}
    {exprsOf : α → List Expr} (h : ∀ b, (f b).Joins c (attrsOf b) exprsOf) (bs : List β) :
    (bs.mapM f).Joins c (bs.flatMap attrsOf) (List.flatMap exprsOf) := by
  induction bs with
  | nil =>
    intro ctx as ctx' hctx hrun
    rw [List.mapM_nil] at hrun
    cases hrun
    exact .refl hctx
  | cons b bs ih =>
    intro ctx as ctx' hctx hrun
    rw [List.mapM_cons] at hrun
    obtain ⟨a, ctx₁, hfirst, hrun⟩ := perform_bind_eq_ok hrun
    obtain ⟨as', ctx₂, hrest, hrun⟩ := perform_bind_eq_ok hrun
    cases hrun
    have hjoined := h b hctx hfirst
    exact hjoined.trans (ih hjoined.tableAlias hrest)

end Act

/-! ### Joins of attributes -/

theorem Compilation.isJoined_addClause {ctx ctx' : Compilation} {name : String} {join : Join}
    (hrun : (addClause name join).perform ctx = (.ok (), ctx')) :
    ctx'.tableAlias = ctx.tableAlias ∧ ∀ other,
      (ctx'.isJoined other = true ↔ ctx.isJoined other = true ∨ other = name) := by
  rw [addClause, Act.perform_change] at hrun
  cases hrun
  split
  next hold =>
    refine ⟨rfl, fun other => ⟨.inl, ?_⟩⟩
    rintro (h | rfl)
    · exact h
    · exact hold
  next =>
    refine ⟨rfl, fun other => ?_⟩
    simp only [isJoined, List.any_append, List.any_cons, List.any_nil, Bool.or_false,
      Bool.or_eq_true, decide_eq_true_eq]
    exact or_congr_right eq_comm

namespace ForeignFilter

variable {f : ForeignFilter}

theorem isJoined_ensureJoined {ctx ctx' : Compilation}
    (hrun : f.ensureJoined.perform ctx = (.ok (), ctx')) :
    ctx'.tableAlias = ctx.tableAlias ∧ ∀ name,
      (ctx'.isJoined name = true ↔ ctx.isJoined name = true ∨ name = f.name) := by
  obtain ⟨_, _, hread, hrun⟩ := Act.perform_bind_eq_ok hrun
  cases hread
  dsimp only [id] at hrun
  split at hrun
  next hold =>
    cases hrun
    refine ⟨rfl, fun name => ⟨.inl, ?_⟩⟩
    rintro (h | rfl)
    · exact h
    · exact hold
  next =>
    obtain ⟨target, _, hfirst, hrun⟩ := Act.perform_bind_eq_ok hrun
    obtain ⟨-, rfl⟩ := Act.ofExcept_eq_ok hfirst
    obtain ⟨entity, _, hsecond, hrun⟩ := Act.perform_bind_eq_ok hrun
    obtain ⟨-, rfl⟩ := Act.ofExcept_eq_ok hsecond
    rcases hd : f.discriminator with _ | ⟨column, value⟩ <;> rw [hd] at hrun
    · exact Compilation.isJoined_addClause hrun
    · obtain ⟨slot, ctx₁, hbind, hrun⟩ := Act.perform_bind_eq_ok hrun
      obtain ⟨e, _, hthird, hrun⟩ := Act.perform_bind_eq_ok hrun
      obtain ⟨-, rfl⟩ := Act.ofExcept_eq_ok hthird
      cases hbind
      have hjoined := Compilation.isJoined_addClause hrun
      exact hjoined

theorem column_joins (hc : c.Built) (hf : .foreign f ∈ c.filters) (sub : Option String) :
    (f.column sub).Joins c [(JoinFilter.foreign f).attr sub] fun e => [e] := by
  intro ctx e ctx' hctx hrun
  -- The bare name and a property of the filter only differ in the column that is named in the end.
  obtain ⟨name, hrun⟩ : ∃ name, (do f.ensureJoined; Act.ofExcept (Expr.ofNames f.joinAlias name) :
      Act Compilation Expr).perform ctx = (.ok e, ctx') := by
    cases sub with
    | none => exact ⟨_, hrun⟩
    | some sub =>
      obtain ⟨_, _, hcheck, hrun⟩ := Act.perform_bind_eq_ok hrun
      obtain ⟨-, rfl⟩ := Act.ofExcept_eq_ok hcheck
      split at hrun
      · exact ⟨_, hrun⟩
      · cases hrun
  obtain ⟨_, ctx₁, hjoin, hrun⟩ := Act.perform_bind_eq_ok hrun
  obtain ⟨rfl, -, rfl⟩ := Act.ofNames_eq_ok hrun
  obtain ⟨halias, hjoined⟩ := isJoined_ensureJoined hjoin
  refine ⟨halias.trans hctx, fun g hg => ?_, ?_⟩
  · have hname : g.name = f.name ↔ JoinFilter.foreign f = .foreign g := by
      refine ⟨fun h => ?_, fun h => ?_⟩
      · exact List.inj_on_of_nodup_map hc.distinct.1 hf hg h.symm
      · cases h
        rfl
    simp only [List.mem_singleton, exists_eq_left, hc.isMeantBy_attr_iff hf hg, hjoined, hname]
  · simp only [List.mem_singleton, forall_eq]
    exact ⟨_, _, rfl, .inr ⟨f, hf, (hjoined _).2 (.inr rfl), rfl⟩⟩

end ForeignFilter

theorem EmbeddedFilter.column_joins (hc : c.Built) {f : EmbeddedFilter}
    (hf : .embedded f ∈ c.filters) (sub : Option String) :
    (f.column sub).Joins c [(JoinFilter.embedded f).attr sub] fun e => [e] := by
  intro ctx e ctx' hctx hrun
  cases sub with
  | none => cases hrun
  | some sub =>
    obtain ⟨_, _, hcheck, hrun⟩ := Act.perform_bind_eq_ok hrun
    obtain ⟨-, rfl⟩ := Act.ofExcept_eq_ok hcheck
    split at hrun
    · obtain ⟨_, _, hread, hrun⟩ := Act.perform_bind_eq_ok hrun
      cases hread
      obtain ⟨rfl, -, rfl⟩ := Act.ofNames_eq_ok hrun
      refine ⟨hctx, fun g hg => ?_, ?_⟩
      · have hnot : ¬ g.IsMeantBy ((JoinFilter.embedded f).attr (some sub)) := by
          rw [hc.isMeantBy_attr_iff hf hg]
          exact fun h => by cases h
        simp only [List.mem_singleton, exists_eq_left, hnot, or_false]
      · simp only [List.mem_singleton, forall_eq]
        exact ⟨_, _, rfl, .inl hctx⟩
    · cases hrun

namespace QueryCompiler

theorem filter_joins (hc : c.Built) {f : JoinFilter} (hf : f ∈ c.filters) (sub : Option String) :
    (f.column sub).Joins c [f.attr sub] fun e => [e] := by
  cases f with
  | embedded f => exact f.column_joins hc hf sub
  | foreign f => exact f.column_joins hc hf sub
  | custom => cases hc.filters _ hf

/-- An attribute emits the join of the filter that it means. -/
theorem resolve_joins (hc : c.IsMade) (attr : String) :
    (c.resolve attr).Joins c [attr] fun column => [column.expr] := by
  intro ctx column ctx' hctx hrun
  have hfilter : ∀ {name sub label} {f : JoinFilter}, c.filter? name = some f →
      f.attr sub = attr →
      (do return ⟨← f.column sub, label, false⟩ : Act Compilation Column).perform ctx =
        (.ok column, ctx') → JoinedFor c [attr] ctx ctx' [column.expr] := by
    intro name sub label f hf hattr hrun
    obtain ⟨e, ctx₁, he, hrun⟩ := Act.perform_bind_eq_ok hrun
    cases hrun
    rw [← hattr]
    exact filter_joins hc.built (filter?_eq_some hf).1 sub hctx he
  unfold resolve at hrun
  split at hrun
  next name hattr =>
    split at hrun
    next hproperty =>
      obtain ⟨_, _, hread, hrun⟩ := Act.perform_bind_eq_ok hrun
      cases hread
      obtain ⟨e, _, he, hrun⟩ := Act.perform_bind_eq_ok hrun
      obtain ⟨rfl, -, rfl⟩ := Act.ofNames_eq_ok he
      cases hrun
      refine ⟨hctx, fun g hg => ?_, ?_⟩
      · have hnot : ¬ g.IsMeantBy attr := by
          rw [Attribute.ofText_eq_plain hattr]
          exact hc.not_isMeantBy hproperty hg
        simp only [List.mem_singleton, exists_eq_left, hnot, or_false]
      · simp only [List.mem_singleton, forall_eq]
        exact ⟨_, _, rfl, .inl hctx⟩
    next =>
      split at hrun
      next f hf =>
        have hname : f.attr none = attr :=
          (filter?_eq_some hf).2.trans (Attribute.ofText_eq_plain hattr).symm
        exact hfilter hf hname hrun
      next => cases hrun
  next name sub hattr =>
    split at hrun
    next f hf =>
      have hname : f.attr (some sub) = attr := by
        rw [JoinFilter.attr, (filter?_eq_some hf).2, Attribute.ofText_eq_dotted hattr]
      exact hfilter hf hname hrun
    next => cases hrun
  next => cases hrun

/-! ### Joins of statements -/

theorem bind_joins (param : Param) :
    (Compilation.bind param).Joins c [] fun _ => [] := by
  intro ctx slot ctx' hctx hrun
  cases hrun
  exact ⟨hctx, fun f hf => by simp [Compilation.isJoined], by simp⟩

theorem predicate_joins (hc : c.IsMade) (cond : Condition) :
    (c.predicate cond).Joins c [cond.attr] Predicate.exprs := by
  intro ctx p ctx' hctx hrun
  obtain ⟨column, ctx₁, hcolumn, hrun⟩ := Act.perform_bind_eq_ok hrun
  have hjoined := resolve_joins hc cond.attr hctx hcolumn
  -- Once the column is there, only operands are bound, which joins nothing.
  suffices h : JoinedFor c [] ctx₁ ctx' [] ∧ p.exprs ⊆ [column.expr] from
    (hjoined.trans h.1).weaken (by simp) (by simpa using h.2)
  have hrest := JoinedFor.refl (c := c) hjoined.tableAlias
  dsimp only at hrun
  split at hrun
  next =>
    cases hrun
    exact ⟨hrest, List.Subset.refl _⟩
  next =>
    cases hrun
    exact ⟨hrest, List.Subset.refl _⟩
  next =>
    cases hrun
    exact ⟨hrest, List.nil_subset _⟩
  next values _ _ _ =>
    obtain ⟨slots, ctx₂, hbind, hrun⟩ := Act.perform_bind_eq_ok hrun
    cases hrun
    have hbound : (values.mapM fun v => Compilation.bind (.ofValue v)).Joins c _ _ :=
      .mapM (fun v => bind_joins (.ofValue v)) values
    exact ⟨(hbound hjoined.tableAlias hbind).weaken (by simp) (by simp), List.Subset.refl _⟩
  next => cases hrun
  next => cases hrun
  next => cases hrun
  next => cases hrun
  next =>
    obtain ⟨slot, ctx₂, hbind, hrun⟩ := Act.perform_bind_eq_ok hrun
    cases hrun
    exact ⟨bind_joins _ hjoined.tableAlias hbind, List.Subset.refl _⟩

theorem rowFilter_joins (hc : c.IsMade) (s : Search) :
    (c.rowFilter s).Joins c (s.conditions.map (·.attr)) RowFilter.exprs := by
  intro ctx filter ctx' hctx hrun
  obtain ⟨all, ctx₁, hall, hrun⟩ := Act.perform_bind_eq_ok hrun
  obtain ⟨any, ctx₂, hany, hrun⟩ := Act.perform_bind_eq_ok hrun
  cases hrun
  have hallJoined := Act.Joins.mapM (predicate_joins hc) _ hctx hall
  have hanyJoined := Act.Joins.mapM (predicate_joins hc) _ hallJoined.tableAlias hany
  refine (hallJoined.trans hanyJoined).weaken (fun f hf => ?_) (List.Subset.refl _)
  simp only [← List.map_eq_flatMap, ← List.map_append, List.mem_map, List.mem_append,
    ← Search.mem_conditions_iff]

/-- Keys that were not selected are properties, which join nothing. -/
theorem missingKeys_joins (hc : c.IsMade) {keys : List Column}
    (hkeys : ∀ key ∈ keys, c.schema.contains key.label = true) :
    (keys.mapM (c.resolve ·.label)).Joins c [] fun columns => columns.map (·.expr) := by
  intro ctx columns ctx' hctx hrun
  have hjoined := Act.Joins.mapM (fun key : Column => resolve_joins hc key.label) keys hctx hrun
  refine hjoined.weaken (fun f hf => ?_) (by simp [← List.map_eq_flatMap])
  simp only [← List.map_eq_flatMap, List.mem_map, List.not_mem_nil, false_and, exists_false,
    iff_false]
  rintro ⟨_, ⟨key, hkey, rfl⟩, hmeant⟩
  exact hc.not_isMeantBy (hkeys key hkey) hf hmeant

theorem selectList_joins (hc : c.IsMade) {keys groups : List Column}
    (hkeys : ∀ key ∈ keys, c.schema.contains key.label = true) (selection : Option (List String))
    {ctx ctx' : Compilation} {r : List SelectItem × List Column}
    (hctx : ctx.tableAlias = searchedAlias) (hgroups : ∀ group ∈ groups, group.expr.IsBased c ctx)
    (hrun : (c.selectList keys groups selection).perform ctx = (.ok r, ctx')) :
    JoinedFor c (selection.getD []) ctx ctx' (r.1.flatMap (·.exprs) ++ r.2.map (·.expr)) := by
  cases selection with
  | none =>
    -- Nothing is resolved: the groups are there already, and all else is of the searched table.
    cases hrun
    refine ⟨hctx, by simp, fun e he => ?_⟩
    simp only [List.flatMap_cons, List.flatMap_map, SelectItem.exprs, ← List.map_eq_flatMap,
      List.mem_append, List.mem_singleton, List.mem_map, List.mem_filter] at he
    rcases he with (rfl | ⟨group, ⟨hgroup, -⟩, rfl⟩) | ⟨group, hgroup, rfl⟩
    · exact ⟨_, _, rfl, .inl rfl⟩
    · exact hgroups group hgroup
    · exact hgroups group hgroup
  | some attrs =>
    obtain ⟨columns, ctx₁, hcolumns, hrun⟩ := Act.perform_bind_eq_ok hrun
    cases hrun
    obtain ⟨missing, ctx₂, hmissing, hcolumns⟩ := Act.perform_bind_eq_ok hcolumns
    obtain ⟨selected, ctx₃, hselected, hcolumns⟩ := Act.perform_bind_eq_ok hcolumns
    cases hcolumns
    -- Columns with a label that is there already are dropped, but what they joined stays joined.
    have hfirst := missingKeys_joins hc
      (fun key hkey => hkeys key (List.mem_of_mem_filter hkey)) hctx hmissing
    have hboth := hfirst.trans (Act.Joins.mapM (resolve_joins hc) _ hfirst.tableAlias hselected)
    refine ⟨hboth.tableAlias, fun f hf => ?_, fun e he => ?_⟩
    · rw [hboth.joined f hf]
      simp
    · simp only [List.flatMap_map, SelectItem.exprs, ← List.map_eq_flatMap, List.mem_append,
        or_self, List.mem_map] at he
      obtain ⟨column, hcolumn, rfl⟩ := he
      rcases List.mem_append.1 (mem_distinctLabels hcolumn) with hcolumn | hgroup
      · refine hboth.based _ ?_
        rw [← List.map_eq_flatMap, ← List.map_append]
        exact List.mem_map_of_mem hcolumn
      · exact (hgroups column hgroup).mono fun f hf h => (hboth.joined f hf).2 (.inl h)

theorem isBased_keys (ctx : Compilation) (names : List String) :
    ∀ e ∈ names.map (Expr.column searchedAlias), e.IsBased c ctx := by
  intro e he
  obtain ⟨name, -, rfl⟩ := List.mem_map.1 he
  exact ⟨_, _, rfl, .inl rfl⟩

theorem selectStatement_joins (hc : c.IsMade) {s : Search} {ctx ctx' : Compilation}
    {statement : SelectStatement} {keys : List Column} (hctx : ctx.tableAlias = searchedAlias)
    (hrun : (c.selectStatement s).perform ctx = (.ok (statement, keys), ctx')) :
    statement.table = c.table ∧ JoinedFor c s.attributes ctx ctx'
      (statement.items.flatMap (·.exprs) ++ statement.filter.exprs ++ statement.groupBy
        ++ statement.orderBy.map (·.1)) := by
  obtain ⟨limit, _, hlimit, hrun⟩ := Act.perform_bind_eq_ok hrun
  obtain ⟨-, rfl⟩ := Act.ofExcept_eq_ok hlimit
  rw [keyColumns_eq hc] at hrun
  obtain ⟨keys, _, hkeys, hrun⟩ := Act.perform_bind_eq_ok hrun
  cases hkeys
  obtain ⟨groups, ctx₁, hgroups, hrun⟩ := Act.perform_bind_eq_ok hrun
  obtain ⟨⟨items, grouped⟩, ctx₂, hselected, hrun⟩ := Act.perform_bind_eq_ok hrun
  obtain ⟨filter, ctx₃, hfilter, hrun⟩ := Act.perform_bind_eq_ok hrun
  obtain ⟨orderBy, ctx₄, horder, hrun⟩ := Act.perform_bind_eq_ok hrun
  cases hrun
  have hfirst := Act.Joins.mapM (resolve_joins hc) _ hctx hgroups
  have hbased : ∀ group ∈ groups, group.expr.IsBased c ctx₁ := fun group hgroup =>
    hfirst.based _ (List.mem_flatMap.2 ⟨group, hgroup, List.mem_singleton_self _⟩)
  have hsecond := selectList_joins hc contains_keyLabel _ hfirst.tableAlias hbased hselected
  have hthird := rowFilter_joins hc s hsecond.tableAlias hfilter
  have hsort : ∀ o : SortKey, Act.Joins c (do return ((← c.resolve o.attr).expr, o.direction))
      [o.attr] fun r => [r.1] := by
    intro o ctx r ctx' hctx hrun
    obtain ⟨column, ctx₁, hcolumn, hrun⟩ := Act.perform_bind_eq_ok hrun
    cases hrun
    exact resolve_joins hc o.attr hctx hcolumn
  have hfourth := Act.Joins.mapM hsort _ hthird.tableAlias horder
  have hall := ((hfirst.trans hsecond).trans hthird).trans hfourth
  refine ⟨rfl, hall.tableAlias, fun f hf => ?_, fun e he => ?_⟩
  · rw [hall.joined f hf]
    simp only [Search.attributes, ← List.map_eq_flatMap, List.map_id']
  · simp only [List.mem_append] at he
    have hmem := fun h => hall.based e (by simpa only [List.mem_append] using h)
    rcases he with ((hitem | hfilter) | hgroup) | horder
    · exact hmem (.inl (.inl (.inr (.inl hitem))))
    · exact hmem (.inl (.inr hfilter))
    · rcases List.mem_append.1 (mem_foldl_insertNew hgroup) with hkey | hcolumn
      · rw [List.map_map] at hkey
        exact isBased_keys _ _ e hkey
      · exact hmem (.inl (.inl (.inr (.inr hcolumn))))
    · rw [List.map_eq_flatMap] at horder
      exact hmem (.inr horder)

theorem countStatement_joins (hc : c.IsMade) {s : Search} {ctx ctx' : Compilation}
    {statement : CountStatement} {keys : List Column} (hctx : ctx.tableAlias = searchedAlias)
    (hrun : (c.countStatement s).perform ctx = (.ok (statement, keys), ctx')) :
    statement.table = c.table ∧ statement.keys = c.schema.keys.map (.column searchedAlias) ∧
      JoinedFor c (s.conditions.map (·.attr)) ctx ctx' statement.filter.exprs := by
  rw [countStatement, keyColumns_eq hc] at hrun
  obtain ⟨keys, _, hkeys, hrun⟩ := Act.perform_bind_eq_ok hrun
  cases hkeys
  obtain ⟨filter, ctx₁, hfilter, hrun⟩ := Act.perform_bind_eq_ok hrun
  cases hrun
  exact ⟨rfl, List.map_map, rowFilter_joins hc s hctx hfilter⟩

/-! ### Joins in the text -/

/-- The join of a filter names columns of the two tables that it joins. -/
theorem tokens_of_joins {f : ForeignFilter} {values : List Param} {join : Join}
    (h : f.Joins values join) : f.IsJoinedBy join.tokens ∧ ∀ e ∈ join.exprs,
      ∃ name, e = .column searchedAlias name ∨ e = .column f.joinAlias name := by
  obtain ⟨placed, rfl, hplaced⟩ := h
  have hends : ∀ e ∈ [(f.clause placed).target, (f.clause placed).entity],
      ∃ name, e = .column searchedAlias name ∨ e = .column f.joinAlias name := by
    simp [ForeignFilter.clause]
  generalize f.discriminator = d at hplaced
  cases hplaced with
  | none => exact ⟨⟨_, rfl, by simp [ForeignFilter.clause, Expr.token]⟩, hends⟩
  | @some p d hp =>
    obtain ⟨e, slot⟩ := p
    obtain ⟨rfl, -⟩ := hp
    refine ⟨⟨_, rfl, by simp [ForeignFilter.clause, Expr.token]⟩, fun e he => ?_⟩
    simp only [Join.exprs, ForeignFilter.clause, Option.map_some, Option.toList_some,
      List.mem_cons, List.not_mem_nil, or_false] at he
    rcases he with rfl | rfl | rfl
    · exact ⟨_, .inr rfl⟩
    · exact ⟨_, .inl rfl⟩
    · exact ⟨_, .inr rfl⟩

/-- From an empty context, the joins are those of the filters that the attributes mean. -/
theorem Fits.meant (hc : c.IsMade) {s : Search} {ctx : Compilation} {joins : List Join}
    {filter : RowFilter} (h : Fits c s ctx joins filter) {attrs : List String} {es : List Expr}
    (hjoined : JoinedFor c attrs { tableAlias := searchedAlias } ctx es) :
    ∃ fs : List ForeignFilter, (fs.map (·.name)).Nodup ∧
      (∀ f, f ∈ fs ↔ .foreign f ∈ c.filters ∧ ∃ attr ∈ attrs, f.IsMeantBy attr) ∧
      List.Forall₂ (fun f join => f.Joins ctx.binder.params join) fs joins := by
  obtain ⟨fs, hnames, hfilters, hjoins⟩ := h.filters
  refine ⟨fs, hnames ▸ h.numbered.distinct, fun f => ?_, hjoins⟩
  have hname : .foreign f ∈ c.filters →
      (f.name ∈ fs.map (·.name) ↔ ∃ attr ∈ attrs, f.IsMeantBy attr) := by
    intro hf
    rw [← hjoined.isJoined_iff hf, hnames]
    simp [Compilation.isJoined]
  constructor
  · intro hf
    exact ⟨hfilters f hf, (hname (hfilters f hf)).1 (List.mem_map_of_mem hf)⟩
  · rintro ⟨hforeign, hattr⟩
    obtain ⟨g, hg, hgf⟩ := List.mem_map.1 ((hname hforeign).2 hattr)
    cases List.inj_on_of_nodup_map hc.built.distinct.1 (hfilters g hg) hforeign hgf
    exact hg

/-- A text with the parts of a statement is well joined, if those were made for the attributes. -/
theorem Fits.isWellJoined (hc : c.IsMade) {s : Search} {ctx : Compilation} {joins : List Join}
    {filter : RowFilter} (h : Fits c s ctx joins filter) {attrs : List String} {es : List Expr}
    (hjoined : JoinedFor c attrs { tableAlias := searchedAlias } ctx es) {text : String}
    (hsource : HasSource (tokensOf text) c.table joins)
    (hcolumns : ∀ e ∈ columnsIn (tokensOf text), e ∈ joins.flatMap (·.exprs) ∨ e.IsBased c ctx) :
    ∃ fs, IsWellJoined c attrs text fs := by
  obtain ⟨fs, hdistinct, hmeant, hjoins⟩ := h.meant hc hjoined
  obtain ⟨front, back, hsource, hback⟩ := hsource
  refine ⟨fs, ?_, hmeant, ⟨front, joins.map (·.tokens), back, ?_, ?_, hback⟩, ?_⟩
  · have haliases : fs.map (·.joinAlias) = (fs.map (·.name)).map ("j_" ++ ·) := by
      rw [List.map_map]
      rfl
    rw [haliases]
    exact hdistinct.map fun _ _ => (String.append_right_inj _).1
  · rw [hsource, List.flatMap_def]
  · rw [List.forall₂_map_right_iff]
    exact hjoins.imp fun _ _ h => (tokens_of_joins h).1
  · intro qualifier name hcolumn
    have he : .column qualifier name ∈ columnsIn (tokensOf text) :=
      List.mem_filterMap.2 ⟨_, hcolumn, rfl⟩
    rcases hcolumns _ he with he | ⟨_, _, heq, halias⟩
    · obtain ⟨join, hjoin, he⟩ := List.mem_flatMap.1 he
      obtain ⟨f, hf, hfj⟩ := forall₂_exists_of_mem hjoins join hjoin
      obtain ⟨_, heq | heq⟩ := (tokens_of_joins hfj).2 _ he <;> cases heq
      · exact .inl rfl
      · exact .inr ⟨f, hf, rfl⟩
    · cases heq
      refine halias.imp id ?_
      rintro ⟨f, hforeign, hf, hqualifier⟩
      exact ⟨f, (hmeant f).2 ⟨hforeign, (hjoined.isJoined_iff hforeign).1 hf⟩, hqualifier⟩

/-- A compiled search joins the tables of the filters that its attributes mean, and the compiled
    count of one the tables of those that its conditions mean: each once, with rows that have no
    counterpart exactly if the filter is optional. Whatever column the text names is one of the
    searched table or of a joined one. -/
theorem compiled_isWellJoined (hc : c.IsMade) (s : Search) :
    (∀ q, c.compile s = .ok q → ∃ fs, IsWellJoined c s.attributes q.statement.sql fs) ∧
    ∀ q, c.compileCount s = .ok q →
      ∃ fs, IsWellJoined c (s.conditions.map (·.attr)) q.statement.sql fs := by
  constructor
  · intro q hq
    obtain ⟨keys, ctx, hrun, -⟩ := finish_eq_ok hq
    obtain ⟨hnamed, hfits⟩ := selectStatement_fits hc.built numbered_start hrun
    obtain ⟨htable, hjoined⟩ := selectStatement_joins hc rfl hrun
    have htokens := hnamed.lexes.tokensOf
    have hsource := q.statement.hasSource
    rw [← htokens, htable] at hsource
    refine hfits.isWellJoined hc hjoined hsource fun e he => ?_
    rw [htokens, hnamed.columnsIn_tokens, SelectStatement.exprs] at he
    have hbased := hjoined.based e
    simp only [List.mem_append] at he hbased
    rcases he with ((hitem | hjoin | hfilter) | hgroup) | horder
    · exact .inr (hbased (.inl (.inl (.inl hitem))))
    · exact .inl hjoin
    · exact .inr (hbased (.inl (.inl (.inr hfilter))))
    · exact .inr (hbased (.inl (.inr hgroup)))
    · exact .inr (hbased (.inr horder))
  · intro q hq
    obtain ⟨keys, ctx, hrun, -⟩ := finish_eq_ok hq
    obtain ⟨hnamed, hfits⟩ := countStatement_fits hc.built numbered_start hrun
    obtain ⟨htable, hkeys, hjoined⟩ := countStatement_joins hc rfl hrun
    have htokens := hnamed.lexes.tokensOf
    have hsource := q.statement.hasSource
    rw [← htokens, htable] at hsource
    refine hfits.isWellJoined hc hjoined hsource fun e he => ?_
    rw [htokens, hnamed.columnsIn_tokens, CountStatement.exprs, List.mem_append,
      List.mem_append] at he
    rcases he with hkey | hjoin | hfilter
    · split at hkey
      · cases hkey
      · rw [hkeys] at hkey
        exact .inr (isBased_keys _ _ e hkey)
    · exact .inl hjoin
    · exact .inr (hjoined.based e hfilter)

/-- Blue products are listed with their vendors, but counted without them. -/
theorem products_joins_dearBlue : ∃ q q' fs fs', products.compile dearBlue = .ok q ∧
    products.compileCount dearBlue = .ok q' ∧
    IsWellJoined products dearBlue.attributes q.statement.sql fs ∧
    IsWellJoined products (dearBlue.conditions.map (·.attr)) q'.statement.sql fs' ∧
    (colors ∈ fs ∧ vendors ∈ fs) ∧ colors ∈ fs' ∧ vendors ∉ fs' := by
  obtain ⟨fs, hfs⟩ := (compiled_isWellJoined products_isMade dearBlue).1 _ rfl
  obtain ⟨fs', hfs'⟩ := (compiled_isWellJoined products_isMade dearBlue).2 _ rfl
  have hcolors : .foreign colors ∈ products.filters := by simp [products]
  have hvendors : .foreign vendors ∈ products.filters := by simp [products]
  refine ⟨_, _, fs, fs', rfl, rfl, hfs, hfs', ⟨?_, ?_⟩, ?_, fun h => ?_⟩
  · exact (hfs.meant _).2 ⟨hcolors, "color.value", by decide +kernel, .inr ⟨"value", rfl⟩⟩
  · exact (hfs.meant _).2 ⟨hvendors, "vendor.name", by decide +kernel, .inr ⟨"name", rfl⟩⟩
  · exact (hfs'.meant _).2 ⟨hcolors, "color.value", by decide +kernel, .inr ⟨"value", rfl⟩⟩
  · obtain ⟨-, attr, hattr, hmeant⟩ := (hfs'.meant _).1 h
    obtain ⟨sub, rfl⟩ := ForeignFilter.isMeantBy_iff.1 hmeant
    have hothers : ∀ attr ∈ dearBlue.conditions.map (·.attr),
        attr.toList.takeWhile (· ≠ '.') ≠ vendors.name.toList := by decide +kernel
    exact hothers _ hattr (JoinFilter.attr_front (by decide +kernel) sub)

end QueryCompiler

end RecordStore
