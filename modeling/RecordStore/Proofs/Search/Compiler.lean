import RecordStore.Proofs.Search.Binding

/-!
# Compiled searches

Every action of the compiler places what it returns: attributes become columns without slots of
their own, conditions become predicates with slots for their operands. So the statement that comes
out of it is well bound.
-/

namespace RecordStore

variable {α β : Type}

theorem Attribute.ofText_eq_dotted {attr name sub : String} (h : ofText attr = .dotted name sub) :
    attr = name ++ "." ++ sub := by
  dsimp only [ofText] at h
  split at h
  · cases h
  next dot rest hrest =>
    split at h
    · cases h
    · cases h
      have hdot : dot = '.' := by
        have hhead := List.head?_dropWhile_not (· ≠ '.') attr.toList
        rw [hrest] at hhead
        simpa using hhead
      have hparts := List.takeWhile_append_dropWhile (p := (· ≠ '.')) (l := attr.toList)
      rw [hrest, hdot] at hparts
      rw [← String.toList_inj]
      simpa using hparts.symm

theorem forall₂_and_right {P : β → Prop} {R : α → β → Prop} {as : List α} {bs : List β}
    (h : List.Forall₂ (fun a b => P b ∧ R a b) as bs) : (∀ b ∈ bs, P b) ∧ List.Forall₂ R as bs := by
  obtain ⟨hP, hR⟩ := (List.forall₂_and_left (R := flip R) bs as).1 (List.Forall₂.flip h)
  exact ⟨hP, hR.flip⟩

theorem exists_forall₂ {R : α → β → Prop} {as : List α} (h : ∀ a ∈ as, ∃ b, R a b) :
    ∃ bs, List.Forall₂ R as bs := by
  induction as with
  | nil => exact ⟨[], .nil⟩
  | cons a rest ih =>
    obtain ⟨⟨b, hb⟩, hrest⟩ := List.forall_mem_cons.1 h
    obtain ⟨bs, hbs⟩ := ih hrest
    exact ⟨b :: bs, .cons hb hbs⟩

theorem forall₂_exists_of_mem {R : α → β → Prop} {as : List α} {bs : List β}
    (h : List.Forall₂ R as bs) : ∀ b ∈ bs, ∃ a ∈ as, R a b := by
  induction h with
  | nil => exact fun b hb => absurd hb List.not_mem_nil
  | cons hab _ ih =>
    refine List.forall_mem_cons.2 ⟨⟨_, List.mem_cons_self, hab⟩, fun b hb => ?_⟩
    obtain ⟨a, ha, hR⟩ := ih b hb
    exact ⟨a, List.mem_cons_of_mem _ ha, hR⟩

/-! ### Lists without repetition -/

section KeepNew

variable [DecidableEq β]

/-- Appends an element, unless `f` has its value on one of the list already. -/
def keepNew (f : α → β) (kept : List α) (a : α) : List α :=
  if kept.any (f · = f a) then kept else kept ++ [a]

/-- The elements of two lists, where of those with one value of `f` only the first stays. -/
structure KeepsNew (f : α → β) (kept as result : List α) : Prop where
  front : kept <+: result
  mem {a : α} (h : a ∈ result) : a ∈ kept ++ as
  covers {a : α} (h : a ∈ kept ++ as) : f a ∈ result.map f
  nodup (h : (kept.map f).Nodup) : (result.map f).Nodup

theorem keepNew_keeps (f : α → β) (kept : List α) (a : α) :
    KeepsNew f kept [a] (keepNew f kept a) := by
  rw [keepNew]
  split
  next hold =>
    obtain ⟨b, hb, heq⟩ := List.any_eq_true.1 hold
    refine ⟨List.prefix_rfl, List.mem_append_left _, fun {a'} h => ?_, id⟩
    rcases List.mem_append.1 h with hkept | hlast
    · exact List.mem_map_of_mem hkept
    · rw [List.mem_singleton.1 hlast, ← of_decide_eq_true heq]
      exact List.mem_map_of_mem hb
  next hnew =>
    refine ⟨List.prefix_append _ _, id, List.mem_map_of_mem, fun hkept => ?_⟩
    rw [List.map_append, List.map_singleton]
    refine hkept.append (List.nodup_singleton _) (List.disjoint_singleton.2 fun hold => ?_)
    obtain ⟨b, hb, heq⟩ := List.mem_map.1 hold
    exact hnew (List.any_eq_true.2 ⟨b, hb, decide_eq_true heq⟩)

theorem foldl_keepNew (f : α → β) (kept as : List α) :
    KeepsNew f kept as (as.foldl (keepNew f) kept) := by
  induction as generalizing kept with
  | nil =>
    refine ⟨List.prefix_rfl, List.mem_append_left _, fun h => ?_, id⟩
    rw [List.append_nil] at h
    exact List.mem_map_of_mem h
  | cons a as ih =>
    have hfirst := keepNew_keeps f kept a
    have hrest := ih (keepNew f kept a)
    refine ⟨hfirst.front.trans hrest.front, fun h => ?_, fun {b} h => ?_,
      fun h => hrest.nodup (hfirst.nodup h)⟩
    · rcases List.mem_append.1 (hrest.mem h) with h | h
      · rw [List.append_cons]
        exact List.mem_append_left _ (hfirst.mem h)
      · exact List.mem_append_right _ (List.mem_cons_of_mem _ h)
    · rw [List.append_cons, List.mem_append] at h
      rcases h with h | h
      · obtain ⟨b', hb', heq⟩ := List.mem_map.1 (hfirst.covers h)
        rw [← heq]
        exact hrest.covers (List.mem_append_left _ hb')
      · exact hrest.covers (List.mem_append_right _ h)

end KeepNew

/-- Lists of conditions that correspond do so block by block. -/
theorem Search.forall₂_conditionsIn {R : Condition → Condition → Prop} {s s' : Search}
    (hblock : ∀ cond cond', R cond cond' → cond.block = cond'.block)
    (h : List.Forall₂ R s.conditions s'.conditions) (block : Block) :
    List.Forall₂ R (s.conditionsIn block) (s'.conditionsIn block) := by
  refine List.rel_filter (fun cond cond' hcond => ?_) h
  dsimp only
  rw [hblock cond cond' hcond]

/-- Every condition lies in one of the two blocks. -/
theorem Search.mem_conditions_iff {s : Search} {cond : Condition} :
    cond ∈ s.conditions ↔ cond ∈ s.conditionsIn .and ∨ cond ∈ s.conditionsIn .or := by
  simp only [conditionsIn, List.mem_filter, decide_eq_true_eq, ← and_or_left]
  have hblock : cond.block = .and ∨ cond.block = .or := by
    cases cond.block with
    | and => exact .inl rfl
    | or => exact .inr rfl
  exact ⟨fun h => ⟨h, hblock⟩, And.left⟩

namespace QueryCompiler

variable {c : QueryCompiler}

theorem resolve_places (hc : c.Built) (attr : String) :
    (c.resolve attr).Places c (fun _ => []) fun _ column =>
      column.IsNamed ∧ c.expr? attr = some column.expr := by
  intro ctx slots column ctx' hctx hrun
  unfold resolve at hrun
  split at hrun
  next name hattr =>
    rw [expr?, hattr]
    split at hrun
    next hproperty =>
      obtain ⟨_, _, hread, hrun⟩ := Act.perform_bind_eq_ok hrun
      cases hread
      obtain ⟨e, _, he, hrun⟩ := Act.perform_bind_eq_ok hrun
      obtain ⟨rfl, hnamed, rfl⟩ := Act.ofNames_eq_ok he
      cases hrun
      dsimp only at hnamed ⊢
      rw [hctx.tableAlias] at hnamed ⊢
      refine ⟨by rwa [List.append_nil], List.prefix_rfl, ⟨hnamed, .inl ?_⟩, ?_⟩
      swap
      · rw [if_pos hproperty]
      obtain ⟨_, _, heq, -, hname⟩ := hnamed
      cases heq
      exact hname
    next hproperty =>
      split at hrun
      next f hfilter =>
        obtain ⟨e, ctx₁, he, hrun⟩ := Act.perform_bind_eq_ok hrun
        cases hrun
        obtain ⟨hf, hname⟩ := filter?_eq_some hfilter
        have hstandard := hc.filters f hf
        obtain ⟨hctx', hle, hnamed, hexpr, -⟩ := hstandard.column_places hf none hctx he
        refine ⟨hctx', hle, ⟨hnamed, .inl (hname ▸ hstandard.isValid)⟩, ?_⟩
        dsimp only
        rw [if_neg hproperty, hfilter]
        exact hexpr
      next => cases hrun
  next name sub hattr =>
    rw [expr?, hattr]
    split at hrun
    next f hfilter =>
      obtain ⟨e, ctx₁, he, hrun⟩ := Act.perform_bind_eq_ok hrun
      cases hrun
      obtain ⟨hf, hname⟩ := filter?_eq_some hfilter
      have hstandard := hc.filters f hf
      obtain ⟨hctx', hle, hnamed, hexpr, hsub⟩ := hstandard.column_places hf (some sub) hctx he
      refine ⟨hctx', hle, ⟨hnamed, .inr ⟨name, sub, Attribute.ofText_eq_dotted hattr, ?_, ?_⟩⟩, ?_⟩
      · exact hname ▸ hstandard.isValid
      · exact hsub sub rfl
      · dsimp only
        rw [hfilter]
        exact hexpr
    next => cases hrun
  next => cases hrun

theorem predicate_places (hc : c.Built) (cond : Condition) :
    (c.predicate cond).Places c (·.slots) fun values p => p.IsNamed ∧ c.Poses values cond p := by
  intro ctx slots p ctx' hctx hrun
  obtain ⟨column, ctx₁, hcolumn, hrun⟩ := Act.perform_bind_eq_ok hrun
  obtain ⟨hctx₁, hle₁, hnamed, hexpr⟩ := resolve_places hc cond.attr hctx hcolumn
  -- Once the column is there, only operands are bound.
  suffices h : Numbered c ctx' (slots ++ p.slots) ∧ ctx₁.binder.params <+: ctx'.binder.params ∧
      p.IsNamed ∧ cond.operator.Compares ctx'.binder.params column.expr cond.operand p from
    ⟨h.1, hle₁.trans h.2.1, h.2.2.1, column.expr, hexpr, h.2.2.2⟩
  have hslots : Numbered c ctx₁ slots := by rwa [List.append_nil] at hctx₁
  dsimp only at hrun
  split at hrun
  next hoperator hoperand =>
    rw [hoperator, hoperand]
    cases hrun
    exact ⟨hctx₁, List.prefix_rfl, hnamed.expr, .isNull⟩
  next hoperator hoperand =>
    rw [hoperator, hoperand]
    cases hrun
    exact ⟨hctx₁, List.prefix_rfl, hnamed.expr, .isNotNull⟩
  next hoperator hoperand =>
    rw [hoperator, hoperand]
    cases hrun
    exact ⟨hctx₁, List.prefix_rfl, trivial, .never⟩
  next operands hsome hoperator hoperand =>
    rw [hoperator, hoperand]
    obtain ⟨bound, ctx₂, hbind, hrun⟩ := Act.perform_bind_eq_ok hrun
    cases hrun
    obtain ⟨hctx₂, hle, hholds⟩ := Act.Places.mapM
      (Q := fun values operand slot => Holds values slot operand) (fun hle h => h.mono hle)
      Compilation.bind_places operands hslots hbind
    rw [List.flatMap_singleton'] at hctx₂
    exact ⟨hctx₂, hle, hnamed.expr, .isIn hsome hholds⟩
  next => cases hrun
  next => cases hrun
  next => cases hrun
  next => cases hrun
  next hoperator hnull harray hobject _ _ _ _ =>
    obtain ⟨slot, ctx₂, hbind, hrun⟩ := Act.perform_bind_eq_ok hrun
    cases hrun
    obtain ⟨hctx₂, hle, hholds⟩ := Compilation.bind_places _ hslots hbind
    have hscalar : cond.operand.IsScalar := by
      cases hoperand : cond.operand with
      | null => exact hnull hoperand
      | array => exact harray _ hoperand
      | object => exact hobject _ hoperand
      | bool | number | string => trivial
    exact ⟨hctx₂, hle, hnamed.expr, .compare hoperator hscalar hholds⟩

/-- What is known of each column and its attribute is known of all of them. -/
theorem places_pairs {f : β → Act Compilation α} {R : β → α → Prop}
    (h : ∀ b, (f b).Places c (fun _ => []) fun _ a => R b a) (bs : List β) :
    (bs.mapM f).Places c (fun _ => []) fun _ as => List.Forall₂ R bs as := by
  intro ctx slots as ctx' hctx hrun
  obtain ⟨hctx', hle, has⟩ := Act.Places.mapM (Q := fun _ => R) (fun _ h => h) h bs hctx hrun
  rw [List.flatMap_eq_nil_iff.2 fun _ _ => rfl] at hctx'
  exact ⟨hctx', hle, has⟩

theorem places_columns {f : β → Act Compilation α} {P : α → Prop}
    (h : ∀ b, (f b).Places c (fun _ => []) fun _ a => P a) (bs : List β) :
    (bs.mapM f).Places c (fun _ => []) fun _ as => ∀ a ∈ as, P a := by
  have hpairs := places_pairs (R := fun _ a => P a ∧ True) (by simpa only [and_true] using h) bs
  exact hpairs.weaken fun _ _ h => (forall₂_and_right h).1

theorem rowFilter_places (hc : c.Built) (s : Search) :
    (c.rowFilter s).Places c (·.slots) fun values filter => filter.IsNamed ∧
      List.Forall₂ (c.Poses values) (s.conditionsIn .and) filter.all ∧
      List.Forall₂ (c.Poses values) (s.conditionsIn .or) filter.any := by
  have hblock := Act.Places.mapM (Q := fun values cond p => p.IsNamed ∧ c.Poses values cond p)
    (fun hle h => ⟨h.1, h.2.mono hle⟩) (predicate_places hc)
  intro ctx slots filter ctx' hctx hrun
  obtain ⟨all, ctx₁, hall, hrun⟩ := Act.perform_bind_eq_ok hrun
  obtain ⟨any, ctx₂, hany, hrun⟩ := Act.perform_bind_eq_ok hrun
  cases hrun
  obtain ⟨hctx₁, hle₁, hall⟩ := hblock _ hctx hall
  obtain ⟨hctx₂, hle₂, hany⟩ := hblock _ hctx₁ hany
  obtain ⟨hallNamed, hall⟩ := forall₂_and_right hall
  obtain ⟨hanyNamed, hany⟩ := forall₂_and_right hany
  rw [List.append_assoc] at hctx₂
  exact ⟨hctx₂, hle₁.trans hle₂, ⟨hallNamed, hanyNamed⟩, hall.imp fun _ _ h => h.mono hle₂, hany⟩

theorem mem_distinctLabels {columns : List Column} {column : Column}
    (h : column ∈ distinctLabels columns) : column ∈ columns :=
  (foldl_keepNew Column.label [] columns).mem h

theorem mem_foldl_insertNew {exprs : List Expr} {kept : List Expr} {e : Expr}
    (h : e ∈ exprs.foldl insertNew kept) : e ∈ kept ++ exprs :=
  (foldl_keepNew Expr.sql kept exprs).mem h

theorem keyColumns_isNamed {keys : List Column} (h : c.keyColumns = .ok keys) :
    ∀ key ∈ keys, key.IsNamed := by
  have hkeys := (forall₂_of_mapM_eq_ok h).imp (S := fun _ key => key.IsNamed ∧ True) ?_
  · exact (forall₂_and_right hkeys).1
  · intro name key hkey
    obtain ⟨e, he, hkey⟩ := exists_of_bind_eq_ok hkey
    cases hkey
    obtain ⟨rfl, hnamed⟩ := Expr.ofNames_eq_ok he
    obtain ⟨_, _, heq, -, hname⟩ := id hnamed
    cases heq
    exact ⟨⟨hnamed, .inl hname⟩, trivial⟩

theorem resolve_isNamed (hc : c.Built) (attr : String) :
    (c.resolve attr).Places c (fun _ => []) fun _ column => column.IsNamed :=
  (resolve_places hc attr).weaken fun _ _ h => h.1

theorem sort_places (hc : c.Built) (o : SortKey) :
    Act.Places c (do return ((← c.resolve o.attr).expr, o.direction))
      (fun _ => []) fun _ r => r.1.IsNamed := by
  intro ctx slots r ctx' hctx hrun
  obtain ⟨column, ctx₁, hcolumn, hrun⟩ := Act.perform_bind_eq_ok hrun
  cases hrun
  obtain ⟨hctx₁, hle, hnamed⟩ := resolve_isNamed hc o.attr hctx hcolumn
  exact ⟨hctx₁, hle, hnamed.expr⟩

theorem selectedColumns_places (hc : c.Built) {keys groups : List Column}
    (hgroups : ∀ group ∈ groups, group.IsNamed) (attrs : List String) :
    (c.selectedColumns keys groups attrs).Places c (fun _ => []) fun _ columns =>
      ∀ column ∈ columns, column.IsNamed := by
  intro ctx slots columns ctx' hctx hrun
  obtain ⟨missing, ctx₁, hmissing, hrun⟩ := Act.perform_bind_eq_ok hrun
  obtain ⟨selected, ctx₂, hselected, hrun⟩ := Act.perform_bind_eq_ok hrun
  cases hrun
  obtain ⟨hctx₁, hle₁, hmissing⟩ :=
    places_columns (fun key : Column => resolve_isNamed hc key.label) _ hctx hmissing
  obtain ⟨hctx₂, hle₂, hselected⟩ := places_columns (resolve_isNamed hc) _ hctx₁ hselected
  rw [List.append_nil] at hctx₂
  refine ⟨hctx₂, hle₁.trans hle₂, fun column hcolumn => ?_⟩
  rcases List.mem_append.1 (mem_distinctLabels hcolumn) with hcolumn | hcolumn
  · exact (List.mem_append.1 hcolumn).elim (hmissing column) (hselected column)
  · exact hgroups column hcolumn

theorem selectList_places (hc : c.Built) {keys groups : List Column}
    (hgroups : ∀ group ∈ groups, group.IsNamed) (selection : Option (List String)) :
    (c.selectList keys groups selection).Places c (fun _ => []) fun _ r =>
      (∀ item ∈ r.1, item.IsNamed) ∧ ∀ column ∈ r.2, column.IsNamed := by
  have hitems : ∀ columns : List Column, (∀ column ∈ columns, column.IsNamed) →
      ∀ item ∈ columns.map SelectItem.column, item.IsNamed := by
    intro columns hcolumns item hitem
    obtain ⟨column, hcolumn, rfl⟩ := List.mem_map.1 hitem
    exact hcolumns column hcolumn
  intro ctx slots r ctx' hctx hrun
  cases selection with
  | none =>
    cases hrun
    have hothers := hitems (groups.filter (!·.isLocal)) fun column hcolumn =>
      hgroups column (List.mem_of_mem_filter hcolumn)
    exact ⟨by rwa [List.append_nil], List.prefix_rfl,
      List.forall_mem_cons.2 ⟨trivial, hothers⟩, hgroups⟩
  | some attrs =>
    obtain ⟨columns, ctx₁, hcolumns, hrun⟩ := Act.perform_bind_eq_ok hrun
    cases hrun
    obtain ⟨hctx₁, hle, hnamed⟩ := selectedColumns_places hc hgroups attrs hctx hcolumns
    exact ⟨hctx₁, hle, hitems columns hnamed, hnamed⟩

/-- The parts of a statement that were made in this context. -/
structure Fits (c : QueryCompiler) (s : Search) (ctx : Compilation) (joins : List Join)
    (filter : RowFilter) : Prop where
  numbered : Numbered c ctx filter.slots
  joins : joins = ctx.joins.map (·.2)
  all : List.Forall₂ (c.Poses ctx.binder.params) (s.conditionsIn .and) filter.all
  any : List.Forall₂ (c.Poses ctx.binder.params) (s.conditionsIn .or) filter.any

theorem Fits.isNamed {s : Search} {ctx : Compilation} {joins : List Join} {filter : RowFilter}
    (h : Fits c s ctx joins filter) : ∀ join ∈ joins, join.IsNamed := by
  intro join hjoin
  rw [h.joins] at hjoin
  obtain ⟨entry, hentry, rfl⟩ := List.mem_map.1 hjoin
  exact (h.numbered.joins entry hentry).1

/-- The joins are those of the filters whose names are kept with them. -/
theorem Fits.filters {s : Search} {ctx : Compilation} {joins : List Join} {filter : RowFilter}
    (h : Fits c s ctx joins filter) : ∃ fs : List ForeignFilter,
      fs.map (·.name) = ctx.joins.map (·.1) ∧ (∀ f ∈ fs, .foreign f ∈ c.filters) ∧
        List.Forall₂ (fun f join => f.Joins ctx.binder.params join) fs joins := by
  obtain ⟨fs, hfs⟩ := exists_forall₂ fun entry hentry => (h.numbered.joins entry hentry).2
  refine ⟨fs, ?_, ?_, ?_⟩
  · exact map_eq_map_of_forall₂ (hfs.imp fun _ _ h => h.2.1).flip
  · exact (forall₂_and_right (R := fun _ _ => True) (hfs.imp fun _ _ h => ⟨h.1, trivial⟩)).1
  · rw [h.joins, List.forall₂_map_right_iff]
    exact (hfs.imp fun _ _ h => h.2.2).flip

theorem selectStatement_fits (hc : c.Built) {s : Search} {ctx ctx' : Compilation}
    {statement : SelectStatement} {keys : List Column} (hctx : Numbered c ctx [])
    (hrun : (c.selectStatement s).perform ctx = (.ok (statement, keys), ctx')) :
    statement.IsNamed ∧ Fits c s ctx' statement.joins statement.filter := by
  obtain ⟨limit, _, hlimit, hrun⟩ := Act.perform_bind_eq_ok hrun
  obtain ⟨-, rfl⟩ := Act.ofExcept_eq_ok hlimit
  obtain ⟨keys, _, hkeys, hrun⟩ := Act.perform_bind_eq_ok hrun
  obtain ⟨hkeyColumns, rfl⟩ := Act.ofExcept_eq_ok hkeys
  obtain ⟨groups, ctx₁, hgroups, hrun⟩ := Act.perform_bind_eq_ok hrun
  obtain ⟨⟨items, grouped⟩, ctx₂, hselected, hrun⟩ := Act.perform_bind_eq_ok hrun
  obtain ⟨filter, ctx₃, hfilter, hrun⟩ := Act.perform_bind_eq_ok hrun
  obtain ⟨orderBy, ctx₄, horder, hrun⟩ := Act.perform_bind_eq_ok hrun
  cases hrun
  -- Only the condition has slots of its own; all else may still bind discriminators.
  obtain ⟨hctx₁, -, hgroups⟩ := places_columns (resolve_isNamed hc) _ hctx hgroups
  obtain ⟨hctx₂, -, hitems, hgrouped⟩ := selectList_places hc hgroups _ hctx₁ hselected
  obtain ⟨hctx₃, -, hnamed, hall, hany⟩ := rowFilter_places hc s hctx₂ hfilter
  obtain ⟨hctx₄, hle, horder⟩ := places_columns (sort_places hc) _ hctx₃ horder
  rw [List.append_nil] at hctx₄
  have hfits : Fits c s ctx' (ctx'.joins.map (·.2)) filter :=
    ⟨hctx₄, rfl, hall.imp fun _ _ h => h.mono hle, hany.imp fun _ _ h => h.mono hle⟩
  refine ⟨⟨hitems, hc.table, hfits.isNamed, hnamed, fun e he => ?_, horder⟩, hfits⟩
  rcases List.mem_append.1 (mem_foldl_insertNew he) with he | he
  · obtain ⟨key, hkey, rfl⟩ := List.mem_map.1 he
    exact (keyColumns_isNamed hkeyColumns key hkey).expr
  · obtain ⟨column, hcolumn, rfl⟩ := List.mem_map.1 he
    exact (hgrouped column hcolumn).expr

theorem countStatement_fits (hc : c.Built) {s : Search} {ctx ctx' : Compilation}
    {statement : CountStatement} {keys : List Column} (hctx : Numbered c ctx [])
    (hrun : (c.countStatement s).perform ctx = (.ok (statement, keys), ctx')) :
    statement.IsNamed ∧ Fits c s ctx' statement.joins statement.filter := by
  obtain ⟨keys, _, hkeys, hrun⟩ := Act.perform_bind_eq_ok hrun
  obtain ⟨hkeyColumns, rfl⟩ := Act.ofExcept_eq_ok hkeys
  obtain ⟨filter, ctx₁, hfilter, hrun⟩ := Act.perform_bind_eq_ok hrun
  cases hrun
  obtain ⟨hctx₁, -, hnamed, hall, hany⟩ := rowFilter_places hc s hctx hfilter
  have hfits : Fits c s ctx' (ctx'.joins.map (·.2)) filter := ⟨hctx₁, rfl, hall, hany⟩
  refine ⟨⟨hc.table, hfits.isNamed, hnamed, fun e he => ?_⟩, hfits⟩
  obtain ⟨key, hkey, rfl⟩ := List.mem_map.1 he
  exact (keyColumns_isNamed hkeyColumns key hkey).expr

theorem numbered_start : Numbered c { tableAlias := searchedAlias } [] where
  tableAlias := rfl
  slots := .refl _
  distinct := List.nodup_nil
  joins := by simp

theorem finish_run {statement : Type} {groups : List String}
    {act : Act Compilation (statement × List Column)} {q : Query statement}
    (h : finish groups act = .ok q) : ∃ keys ctx,
      act.perform { tableAlias := searchedAlias } = (.ok (q.statement, keys), ctx) ∧
        q.values = ctx.binder.params ∧ q.uniqueId = keys.map (·.label) ∧ q.groups = groups := by
  rw [finish] at h
  split at h
  next keys ctx hrun =>
    cases h
    exact ⟨keys, ctx, hrun, rfl, rfl, rfl⟩
  next => cases h

theorem finish_eq_ok {statement : Type} {groups : List String}
    {act : Act Compilation (statement × List Column)} {q : Query statement}
    (h : finish groups act = .ok q) : ∃ keys ctx,
      act.perform { tableAlias := searchedAlias } = (.ok (q.statement, keys), ctx) ∧
        q.values = ctx.binder.params := by
  obtain ⟨keys, ctx, hrun, hvalues, -⟩ := finish_run h
  exact ⟨keys, ctx, hrun, hvalues⟩

end QueryCompiler

end RecordStore
