import RecordStore.Proofs.Search.Acceptance
import RecordStore.Proofs.Search.StatementTokens

/-!
# What is selected and grouped

The rows of a result are folded into entities by the columns of the primary key and of the groups.
So these have to be among the columns of the result, whether the search selects attributes or all
columns of the table, and the database must not merge rows of different entities. What a compiled
search selects, groups and sorts by is read off the compilation once (`QueryCompiler.Outlines`); what
its rows carry follows from that (`QueryCompiler.compile_carries`).

Labels and expressions are told apart by different things: two labels may stand for one expression,
which is then selected twice and grouped once.
-/

namespace RecordStore

/-! ### Columns -/

theorem Expr.IsNamed.eq_of_sql {e e' : Expr} (h : e.IsNamed) (h' : e'.IsNamed)
    (heq : e.sql = e'.sql) : e = e' := by
  have htokens : [e.token] = [(e'.token : Token Nat)] := by
    rw [← h.lexes.tokensOf, ← h'.lexes.tokensOf, heq]
  obtain ⟨tableAlias, name, rfl, -, -⟩ := h
  obtain ⟨tableAlias', name', rfl, -, -⟩ := h'
  simpa [Expr.token] using htokens

/-- The label of an item. -/
def SelectItem.label? : SelectItem → Option String
  | everything => none
  | column c => some c.label

/-- The labels of the columns of a result, besides those of the searched table. -/
def SelectStatement.labels (s : SelectStatement) : List String := s.items.filterMap (·.label?)

theorem filterMap_label?_map (columns : List Column) :
    (columns.map SelectItem.column).filterMap (·.label?) = columns.map (·.label) := by
  rw [List.filterMap_map, ← List.filterMap_eq_map]
  rfl

namespace QueryCompiler

variable {c : QueryCompiler}

/-- A column whose label is an attribute that the compiler knows, and that stands for it. -/
structure Offers (c : QueryCompiler) (column : Column) : Prop where
  knows : c.Knows column.label
  expr : c.expr? column.label = some column.expr
  isLocal : column.isLocal = true → c.schema.contains column.label = true
  isNamed : column.IsNamed

theorem resolve_label {attr : String} {ctx ctx' : Compilation} {column : Column}
    (hrun : (c.resolve attr).perform ctx = (.ok column, ctx')) :
    column.label = attr ∧ (column.isLocal = true → c.schema.contains attr = true) := by
  unfold resolve at hrun
  split at hrun
  next name hattr =>
    obtain rfl := Attribute.ofText_eq_plain hattr
    split at hrun
    next hproperty =>
      obtain ⟨_, _, -, hrun⟩ := Act.perform_bind_eq_ok hrun
      obtain ⟨e, _, -, hrun⟩ := Act.perform_bind_eq_ok hrun
      cases hrun
      exact ⟨rfl, fun _ => hproperty⟩
    next =>
      split at hrun
      next =>
        obtain ⟨e, _, -, hrun⟩ := Act.perform_bind_eq_ok hrun
        cases hrun
        exact ⟨rfl, nofun⟩
      next => cases hrun
  next =>
    split at hrun
    next =>
      obtain ⟨e, _, -, hrun⟩ := Act.perform_bind_eq_ok hrun
      cases hrun
      exact ⟨rfl, nofun⟩
    next => cases hrun
  next => cases hrun

theorem resolve_offers (hc : c.IsMade) (attr : String) :
    (c.resolve attr).Places c (fun _ => []) fun _ column => c.Offers column ∧ column.label = attr := by
  intro ctx slots column ctx' hctx hrun
  obtain ⟨hctx', hle, hnamed, hexpr⟩ := resolve_places hc.built attr hctx hrun
  obtain ⟨rfl, hlocal⟩ := resolve_label hrun
  have hfault := resolve_hasFault hc column.label ctx hctx.tableAlias
  rw [hrun] at hfault
  have hknows := (attributeFault_eq_none_iff hc _).1 hfault.1
  exact ⟨hctx', hle, ⟨hknows, hexpr, hlocal, hnamed⟩, rfl⟩

/-- Attributes in a row are resolved to columns with their labels. -/
theorem resolveAll_offers (hc : c.IsMade) (attrs : List String) :
    (attrs.mapM c.resolve).Places c (fun _ => []) fun _ columns =>
      (∀ column ∈ columns, c.Offers column) ∧ columns.map (·.label) = attrs := by
  refine (places_pairs (resolve_offers hc) attrs).weaken fun _ columns h => ?_
  obtain ⟨hoffers, hlabels⟩ := forall₂_and_right h
  refine ⟨hoffers, ?_⟩
  rw [← List.forall₂_eq_eq_eq, List.forall₂_map_left_iff]
  exact hlabels.flip

/-- The columns of the primary key. -/
def keys (c : QueryCompiler) : List Column :=
  c.schema.keys.map fun key => ⟨.column searchedAlias key, key, true⟩

def keyExprs (c : QueryCompiler) : List Expr := c.keys.map (·.expr)

theorem map_label_keys : c.keys.map (·.label) = c.schema.keys := by
  rw [keys, List.map_map]
  exact List.map_id _

theorem keys_offer (hc : c.IsMade) : ∀ key ∈ c.keys, c.Offers key := by
  intro column hcolumn
  obtain ⟨key, hkey, rfl⟩ := List.mem_map.1 hcolumn
  have hproperty := Schema.contains_of_mem_keys hkey
  have hvalid := hc.schema.isValid hproperty
  refine ⟨.property hproperty, ?_, fun _ => hproperty,
    ⟨searchedAlias, key, rfl, searchedAlias_isValid, hvalid⟩, .inl hvalid⟩
  rw [expr?, Attribute.ofText_of_notMem (Identifier.notMem_dot hvalid)]
  dsimp only
  rw [if_pos hproperty]

/-! ### The outline of a search -/

/-- What is selected and, besides the primary key, grouped by, for the columns of the groups. -/
inductive Selects (c : QueryCompiler) (groups : List Column) :
    Option (List String) → List SelectItem → List Column → Prop
  | everything :
      Selects c groups none (.everything :: (groups.filter (!·.isLocal)).map .column) groups
  | columns {attrs : List String} {missing selected : List Column}
      (hmissing : missing.map (·.label) = c.schema.keys.filter (!attrs.contains ·))
      (hselected : selected.map (·.label) = attrs)
      (h : ∀ column ∈ missing ++ selected, c.Offers column) :
      Selects c groups (some attrs) ((distinctLabels (missing ++ selected ++ groups)).map .column)
        (distinctLabels (missing ++ selected ++ groups))

/-- What a search is compiled to, but for its joins and its condition. -/
structure Outlines (c : QueryCompiler) (s : Search) (groups grouped : List Column)
    (statement : SelectStatement) : Prop where
  table : statement.table = c.table
  offered : ∀ group ∈ groups, c.Offers group
  labels : groups.map (·.label) = s.groups
  selects : c.Selects groups s.selection statement.items grouped
  groupBy : statement.groupBy = (grouped.map (·.expr)).foldl insertNew c.keyExprs
  orderBy : List.Forall₂ (fun o r => c.Knows o.attr ∧ c.expr? o.attr = some r.1 ∧ o.direction = r.2)
    s.order statement.orderBy

theorem selectList_selects (hc : c.IsMade) (groups : List Column)
    (selection : Option (List String)) :
    (c.selectList c.keys groups selection).Places c (fun _ => []) fun _ r =>
      c.Selects groups selection r.1 r.2 := by
  intro ctx slots r ctx' hctx hrun
  cases selection with
  | none =>
    cases hrun
    exact ⟨by rwa [List.append_nil], List.prefix_rfl, .everything⟩
  | some attrs =>
    obtain ⟨columns, ctx₁, hcolumns, hrun⟩ := Act.perform_bind_eq_ok hrun
    cases hrun
    obtain ⟨missing, ctx₂, hmissing, hrun⟩ := Act.perform_bind_eq_ok hcolumns
    obtain ⟨selected, ctx₃, hselected, hrun⟩ := Act.perform_bind_eq_ok hrun
    cases hrun
    have hlabels : (((c.keys.filter fun key => !attrs.contains key.label).map (·.label)).mapM
        c.resolve).perform ctx = (.ok missing, ctx₂) := by
      rw [List.mapM_map]
      exact hmissing
    obtain ⟨hctx₂, hle₂, hmissing, hmissingLabels⟩ := resolveAll_offers hc _ hctx hlabels
    obtain ⟨hctx₃, hle₃, hselected, hselectedLabels⟩ := resolveAll_offers hc _ hctx₂ hselected
    rw [List.append_nil] at hctx₃
    refine ⟨hctx₃, hle₂.trans hle₃, .columns ?_ hselectedLabels ?_⟩
    · rw [hmissingLabels, ← map_label_keys, List.filter_map]
      rfl
    · exact List.forall_mem_append.2 ⟨hmissing, hselected⟩

theorem sort_resolves (hc : c.IsMade) (o : SortKey) :
    Act.Places c (do return ((← c.resolve o.attr).expr, o.direction)) (fun _ => []) fun _ r =>
      c.Knows o.attr ∧ c.expr? o.attr = some r.1 ∧ o.direction = r.2 := by
  intro ctx slots r ctx' hctx hrun
  obtain ⟨column, ctx₁, hcolumn, hrun⟩ := Act.perform_bind_eq_ok hrun
  cases hrun
  obtain ⟨hctx₁, hle, hoffers, hlabel⟩ := resolve_offers hc o.attr hctx hcolumn
  rw [← hlabel]
  exact ⟨hctx₁, hle, hoffers.knows, hoffers.expr, rfl⟩

theorem selectStatement_outlines (hc : c.IsMade) {s : Search} {ctx ctx' : Compilation}
    {statement : SelectStatement} {keys : List Column} (hctx : Numbered c ctx [])
    (hrun : (c.selectStatement s).perform ctx = (.ok (statement, keys), ctx')) :
    keys = c.keys ∧ ∃ groups grouped, c.Outlines s groups grouped statement := by
  obtain ⟨limit, _, hlimit, hrun⟩ := Act.perform_bind_eq_ok hrun
  obtain ⟨-, rfl⟩ := Act.ofExcept_eq_ok hlimit
  obtain ⟨keys, _, hkeys, hrun⟩ := Act.perform_bind_eq_ok hrun
  obtain ⟨hkeyColumns, rfl⟩ := Act.ofExcept_eq_ok hkeys
  obtain rfl : c.keys = keys := Except.ok.inj ((keyColumns_eq hc).symm.trans hkeyColumns)
  obtain ⟨groups, ctx₁, hgroups, hrun⟩ := Act.perform_bind_eq_ok hrun
  obtain ⟨⟨items, grouped⟩, ctx₂, hselected, hrun⟩ := Act.perform_bind_eq_ok hrun
  obtain ⟨filter, ctx₃, hfilter, hrun⟩ := Act.perform_bind_eq_ok hrun
  obtain ⟨orderBy, ctx₄, horder, hrun⟩ := Act.perform_bind_eq_ok hrun
  cases hrun
  obtain ⟨hctx₁, -, hgroups⟩ := resolveAll_offers hc _ hctx hgroups
  obtain ⟨hctx₂, -, hselects⟩ := selectList_selects hc groups _ hctx₁ hselected
  obtain ⟨hctx₃, -, -⟩ := rowFilter_places hc.built s hctx₂ hfilter
  obtain ⟨-, -, horder⟩ := places_pairs (sort_resolves hc) _ hctx₃ horder
  exact ⟨rfl, groups, grouped, ⟨rfl, hgroups.1, hgroups.2, hselects, rfl, horder⟩⟩

/-! ### What rows carry -/

theorem mem_map_label_distinctLabels {columns : List Column} {name : String} :
    name ∈ (distinctLabels columns).map (·.label) ↔ name ∈ columns.map (·.label) := by
  have hkept := foldl_keepNew Column.label [] columns
  constructor
  · intro h
    obtain ⟨column, hcolumn, rfl⟩ := List.mem_map.1 h
    exact List.mem_map_of_mem (hkept.mem hcolumn)
  · intro h
    obtain ⟨column, hcolumn, rfl⟩ := List.mem_map.1 h
    exact hkept.covers hcolumn

theorem nodup_map_label_distinctLabels (columns : List Column) :
    ((distinctLabels columns).map (·.label)).Nodup :=
  (foldl_keepNew Column.label [] columns).nodup List.nodup_nil

section Selects

variable {groups grouped : List Column} {items : List SelectItem} {selection : Option (List String)}

theorem Selects.offers (h : c.Selects groups selection items grouped)
    (hgroups : ∀ group ∈ groups, c.Offers group) :
    (∀ column, .column column ∈ items → c.Offers column) ∧
      ∀ column ∈ grouped, c.Offers column := by
  cases h with
  | everything =>
    refine ⟨fun column hcolumn => ?_, hgroups⟩
    have hother : column ∈ groups.filter (!·.isLocal) := by simpa using hcolumn
    exact hgroups column (List.mem_of_mem_filter hother)
  | @columns attrs missing selected _ _ h =>
    have hoffers : ∀ column ∈ distinctLabels (missing ++ selected ++ groups), c.Offers column :=
      fun column hcolumn => List.forall_mem_append.2 ⟨h, hgroups⟩ column (mem_distinctLabels hcolumn)
    exact ⟨fun column hcolumn => hoffers column (by simpa using hcolumn), hoffers⟩

theorem Selects.of_none (h : c.Selects groups none items grouped) :
    items = .everything :: (groups.filter (!·.isLocal)).map .column := by
  cases h
  rfl

theorem Selects.of_some {attrs : List String} (h : c.Selects groups (some attrs) items grouped) :
    items = grouped.map .column ∧ (grouped.map (·.label)).Nodup := by
  cases h with
  | columns => exact ⟨rfl, nodup_map_label_distinctLabels _⟩

/-- With selected attributes, the labels are the names of the key, the attributes and the groups. -/
theorem Selects.mem_labels {attrs : List String}
    (h : c.Selects groups (some attrs) items grouped) (name : String) :
    name ∈ items.filterMap (·.label?) ↔
      name ∈ c.schema.keys ∨ name ∈ attrs ∨ name ∈ groups.map (·.label) := by
  cases h with
  | columns hmissing hselected _ =>
    rw [filterMap_label?_map, mem_map_label_distinctLabels, List.map_append, List.map_append,
      hmissing, hselected]
    by_cases hattr : name ∈ attrs <;> simp [hattr]

/-- What is grouped by, besides the key, are the selected attributes and the groups. -/
theorem Selects.mem_grouped (h : c.Selects groups selection items grouped) {name : String}
    (hkey : name ∉ c.schema.keys) :
    name ∈ grouped.map (·.label) ↔ name ∈ selection.getD [] ++ groups.map (·.label) := by
  cases selection with
  | none =>
    cases h
    rfl
  | some attrs =>
    have hlabels := h.mem_labels name
    rw [h.of_some.1, filterMap_label?_map, or_iff_right hkey] at hlabels
    rw [hlabels, List.mem_append]
    rfl

end Selects

theorem mem_foldl_insertNew_iff {kept exprs : List Expr} (hkept : ∀ e ∈ kept, e.IsNamed)
    (hexprs : ∀ e ∈ exprs, e.IsNamed) {e : Expr} :
    e ∈ exprs.foldl insertNew kept ↔ e ∈ kept ∨ e ∈ exprs := by
  have hnamed := List.forall_mem_append.2 ⟨hkept, hexprs⟩
  refine ⟨fun h => List.mem_append.1 (mem_foldl_insertNew h), fun h => ?_⟩
  -- Another expression with the same text would be the same.
  have hmem := List.mem_append.2 h
  obtain ⟨e', he', htext⟩ := List.mem_map.1 ((foldl_keepNew Expr.sql kept exprs).covers hmem)
  rw [← (hnamed e' (mem_foldl_insertNew he')).eq_of_sql (hnamed e hmem) htext]
  exact he'

theorem nodup_keyExprs (hc : c.IsMade) : (c.keyExprs.map (·.sql)).Nodup := by
  rw [keyExprs, keys, List.map_map, List.map_map]
  refine hc.schema.nodup_keys.map fun key key' h => ?_
  simpa [Expr.sql] using h

/-- What the rows of a compiled search carry. -/
structure Carries (c : QueryCompiler) (s : Search) (q : Query SelectStatement) : Prop where
  /-- The text reads like the parts of the statement. -/
  reads : tokensOf q.statement.sql = q.statement.tokens
  uniqueId : q.uniqueId = c.schema.keys
  groups : q.groups = s.groups
  /-- A label is selected for the expression that it stands for. -/
  stands : ∀ column, .column column ∈ q.statement.items →
    c.expr? column.label = some column.expr
  /-- What entities are told apart by is in every row, as a column of its own or, if all columns of
      the table are selected, as one of them. -/
  carried : ∀ name ∈ q.uniqueId ++ q.groups, name ∈ q.statement.labels ∨
    s.selection = none ∧ .everything ∈ q.statement.items ∧ c.schema.contains name = true
  /-- Of selected attributes, every row has each once, with the key and the groups. -/
  selected : ∀ attrs ∈ s.selection, .everything ∉ q.statement.items ∧
    q.statement.labels.Nodup ∧ ∀ name, name ∈ q.statement.labels ↔
      name ∈ c.schema.keys ∨ name ∈ attrs ∨ name ∈ s.groups
  /-- Rows are grouped by the key and then by what else is selected, or else by the groups. -/
  grouped : ∃ others, q.statement.groupBy = c.keyExprs ++ others ∧ ∀ e, e ∈ others ↔
    e ∉ c.keyExprs ∧ ∃ name ∈ s.selection.getD [] ++ s.groups, c.expr? name = some e
  distinct : (q.statement.groupBy.map (·.sql)).Nodup

namespace Outlines

variable {s : Search} {groups grouped : List Column} {statement : SelectStatement}

theorem mem_groupBy (h : c.Outlines s groups grouped statement) (hc : c.IsMade) {e : Expr}
    (hkey : e ∉ c.keyExprs) : e ∈ statement.groupBy ↔
      ∃ name ∈ s.selection.getD [] ++ s.groups, c.expr? name = some e := by
  obtain ⟨-, hgrouped⟩ := h.selects.offers h.offered
  have hkeys : ∀ e ∈ c.keyExprs, e.IsNamed := by
    simpa [keyExprs] using fun key hmem => (keys_offer hc key hmem).isNamed.expr
  have hexprs : ∀ e ∈ grouped.map (·.expr), e.IsNamed := by
    simpa using fun column hmem => (hgrouped column hmem).isNamed.expr
  -- The expression of a key stands for no label but that of a key.
  have hlabel : ∀ {name}, c.expr? name = some e → name ∉ c.schema.keys := by
    intro name hname hmem
    rw [← map_label_keys] at hmem
    obtain ⟨key, hmemKey, rfl⟩ := List.mem_map.1 hmem
    have hsame := Option.some.inj ((keys_offer hc key hmemKey).expr.symm.trans hname)
    exact hkey (hsame ▸ List.mem_map_of_mem hmemKey)
  rw [h.groupBy, mem_foldl_insertNew_iff hkeys hexprs, or_iff_right hkey]
  constructor
  · intro he
    obtain ⟨column, hcolumn, rfl⟩ := List.mem_map.1 he
    have hexpr := (hgrouped column hcolumn).expr
    have hmem := (h.selects.mem_grouped (hlabel hexpr)).1 (List.mem_map_of_mem hcolumn)
    rw [h.labels] at hmem
    exact ⟨column.label, hmem, hexpr⟩
  · rintro ⟨name, hmem, hexpr⟩
    rw [← h.labels, ← h.selects.mem_grouped (hlabel hexpr)] at hmem
    obtain ⟨column, hcolumn, rfl⟩ := List.mem_map.1 hmem
    have hsame := Option.some.inj ((hgrouped column hcolumn).expr.symm.trans hexpr)
    exact hsame ▸ List.mem_map_of_mem hcolumn

/-- A key or a group is selected itself, or is among all columns of the table. -/
theorem carries_name (h : c.Outlines s groups grouped statement) {name : String}
    (hname : name ∈ c.schema.keys ++ s.groups) : name ∈ statement.labels ∨
      s.selection = none ∧ .everything ∈ statement.items ∧ c.schema.contains name = true := by
  have hselects := h.selects
  rw [← h.labels, List.mem_append] at hname
  cases hselection : s.selection with
  | some attrs =>
    rw [hselection] at hselects
    exact .inl ((hselects.mem_labels name).2 (hname.imp_right .inr))
  | none =>
    rw [hselection] at hselects
    have hitems := hselects.of_none
    have hall : SelectItem.everything ∈ statement.items := by simp [hitems]
    rcases hname with hkey | hlabel
    · exact .inr ⟨rfl, hall, Schema.contains_of_mem_keys hkey⟩
    · obtain ⟨group, hgroup, rfl⟩ := List.mem_map.1 hlabel
      -- A group that is no column of the table has an item of its own.
      cases hlocal : group.isLocal with
      | true => exact .inr ⟨rfl, hall, (h.offered group hgroup).isLocal hlocal⟩
      | false =>
        refine .inl (List.mem_filterMap.2 ⟨.column group, ?_, rfl⟩)
        rw [hitems]
        exact List.mem_cons_of_mem _ (List.mem_map_of_mem (by simp [hgroup, hlocal]))

/-- The key comes first in the grouping, and no expression comes twice. -/
theorem groupBy_eq (h : c.Outlines s groups grouped statement) (hc : c.IsMade) :
    (∃ others, statement.groupBy = c.keyExprs ++ others ∧ ∀ e, e ∈ others ↔
      e ∉ c.keyExprs ∧ ∃ name ∈ s.selection.getD [] ++ s.groups, c.expr? name = some e) ∧
    (statement.groupBy.map (·.sql)).Nodup := by
  have hkept := foldl_keepNew Expr.sql c.keyExprs (grouped.map (·.expr))
  have hnodup := hkept.nodup (nodup_keyExprs hc)
  obtain ⟨others, hothers⟩ := hkept.front
  have hgroupBy : statement.groupBy = c.keyExprs ++ others := h.groupBy.trans hothers.symm
  rw [← hothers, List.map_append] at hnodup
  rw [hgroupBy, List.map_append]
  refine ⟨⟨others, rfl, fun e => ?_⟩, hnodup⟩
  have hother : e ∈ others → e ∉ c.keyExprs := fun he hkey =>
    hnodup.disjoint (List.mem_map_of_mem hkey) (List.mem_map_of_mem he)
  have hmem : e ∉ c.keyExprs → (e ∈ others ↔
      ∃ name ∈ s.selection.getD [] ++ s.groups, c.expr? name = some e) := by
    intro hkey
    rw [← h.mem_groupBy hc hkey, hgroupBy, List.mem_append, or_iff_right hkey]
  exact ⟨fun he => ⟨hother he, (hmem (hother he)).1 he⟩, fun he => (hmem he.1).2 he.2⟩

end Outlines

/-- The rows of a compiled search carry what entities are told apart by, and are grouped by nothing
    else than what is selected. -/
theorem compile_carries (hc : c.IsMade) (s : Search) {q : Query SelectStatement}
    (h : c.compile s = .ok q) : c.Carries s q := by
  obtain ⟨keys, ctx, hrun, -, huniqueId, hgroups⟩ := finish_run h
  obtain ⟨hnamed, -⟩ := selectStatement_fits hc.built numbered_start hrun
  obtain ⟨rfl, groups, grouped, houtlines⟩ := selectStatement_outlines hc numbered_start hrun
  rw [map_label_keys] at huniqueId
  obtain ⟨hgrouped, hdistinct⟩ := houtlines.groupBy_eq hc
  obtain ⟨hoffers, -⟩ := houtlines.selects.offers houtlines.offered
  refine ⟨hnamed.lexes.tokensOf, huniqueId, hgroups,
    fun column hcolumn => (hoffers column hcolumn).expr, fun name hname => ?_,
    fun attrs hattrs => ?_, hgrouped, hdistinct⟩
  · rw [huniqueId, hgroups] at hname
    exact houtlines.carries_name hname
  · have hselects := houtlines.selects
    rw [Option.mem_def.1 hattrs] at hselects
    obtain ⟨hitems, hnodup⟩ := hselects.of_some
    refine ⟨by simp [hitems], ?_, fun name => ?_⟩
    · rwa [SelectStatement.labels, hitems, filterMap_label?_map]
    · rw [← houtlines.labels]
      exact hselects.mem_labels name

/-- Prices under two names, with the vendors of the products. -/
def pricedTwice : Search :=
  (({} : Search).select ["price.amount", "price_amount", "sku"]).groupBy ["vendor"]

/-- The shop is not selected but told apart by, and the price is grouped once. -/
theorem products_carries_pricedTwice : ∃ q, products.compile pricedTwice = .ok q ∧
    q.statement.labels = ["shop", "price.amount", "price_amount", "sku", "vendor"] ∧
    q.statement.groupBy = [.column "e" "shop", .column "e" "sku", .column "e" "price_amount",
      .column "j_vendor" "id"] ∧ products.Carries pricedTwice q :=
  ⟨_, rfl, by decide +kernel, by decide +kernel, compile_carries products_isMade pricedTwice rfl⟩

end QueryCompiler

end RecordStore
