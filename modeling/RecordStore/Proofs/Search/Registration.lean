import RecordStore.Proofs.Search.Binding
import Mathlib.Data.List.TakeWhile

/-!
# What registration guarantees

A schema, a filter and a compiler can be had only through the checks of their constructors. What
those checks leave behind:

* every name in a schema is an identifier (`Schema.Made.isValid`), and so are all names of a filter
  and of the compiler's table;
* the filters of a compiler have distinct names, none of which is a property of the table
  (`QueryCompiler.Built.distinct`), so that an attribute without a dot means a property or a filter
  and never both.

The table of products, with a filter of each kind (`QueryCompiler.products`), is the compiler on
which the results about searches are tried.
-/

namespace RecordStore

/-- The schemas that can be built. -/
inductive Schema.Made : Schema → Prop
  | ofList {ps : List Property} {schema : Schema} (h : Schema.ofList ps = .ok schema) : Made schema
  | embed {schema schema' : Schema} {stem : String} {ps : List Property} (hs : Made schema)
      (h : schema.embed stem ps = .ok schema') : Made schema'

/-- A compiler with its filters, all of them and their schemas built through the checks. -/
structure QueryCompiler.IsMade (c : QueryCompiler) : Prop where
  built : c.Built
  schema : c.schema.Made
  filters : ∀ f ∈ c.filters, f.schema.Made

/-! ### Names -/

namespace Schema

theorem push_eq_ok_iff {schema schema' : Schema} {p : Property} :
    schema.push p = .ok schema' ↔ Identifier.isValid p.name = true ∧
      p.name ∉ schema.columns ∧ schema' = ⟨schema.properties ++ [p]⟩ := by
  constructor
  · intro h
    obtain ⟨hname, h⟩ := Identifier.isValid_of_check_bind h
    split at h
    · cases h
    next hnew =>
      cases h
      exact ⟨hname, mt contains_iff.2 hnew, rfl⟩
  · rintro ⟨hname, hnew, rfl⟩
    have hcheck : Identifier.check p.name = .ok p.name := if_pos hname
    rw [push, hcheck]
    exact if_neg (mt contains_iff.1 hnew)

/-- Columns are added if their names differ from each other and from those there are. -/
theorem pushAll_eq_ok_iff {ps : List Property} {schema schema' : Schema} :
    schema.pushAll ps = .ok schema' ↔
      (∀ p ∈ ps, Identifier.isValid p.name = true) ∧ (ps.map (·.name)).Nodup ∧
      (∀ p ∈ ps, p.name ∉ schema.columns) ∧ schema' = ⟨schema.properties ++ ps⟩ := by
  induction ps generalizing schema with
  | nil =>
    simp only [pushAll, List.foldlM_nil, pure, Except.pure, Except.ok.injEq, List.not_mem_nil,
      IsEmpty.forall_iff, implies_true, List.map_nil, List.nodup_nil, List.append_nil, true_and]
    exact eq_comm
  | cons p ps ih =>
    have hcolumns : (Schema.mk (schema.properties ++ [p])).columns = schema.columns ++ [p.name] :=
      List.map_append
    have hsequence : schema.pushAll (p :: ps) = .ok schema' ↔
        ∃ pushed, schema.push p = .ok pushed ∧ pushed.pushAll ps = .ok schema' := by
      rw [pushAll, List.foldlM_cons]
      refine ⟨exists_of_bind_eq_ok, ?_⟩
      rintro ⟨pushed, hpush, hrest⟩
      rw [hpush]
      exact hrest
    simp only [hsequence, push_eq_ok_iff, and_assoc, exists_and_left, exists_eq_left, ih, hcolumns,
      List.forall_mem_cons, List.map_cons, List.nodup_cons, List.mem_append, List.mem_singleton,
      not_or, List.mem_map, List.append_assoc, List.singleton_append]
    -- Both sides say of each pair of names that they differ, but group the pairs otherwise.
    constructor
    · rintro ⟨hname, hnew, hnames, hnodup, hothers, rfl⟩
      refine ⟨hname, hnames, ?_, hnodup, hnew, fun q hq => (hothers q hq).1, rfl⟩
      rintro ⟨q, hq, heq⟩
      exact (hothers q hq).2 heq
    · rintro ⟨hname, hnames, hfirst, hnodup, hnew, hothers, rfl⟩
      exact ⟨hname, hnew, hnames, hnodup,
        fun q hq => ⟨hothers q hq, fun heq => hfirst ⟨q, hq, heq⟩⟩, rfl⟩

theorem embed_eq_ok_iff {stem : String} {ps : List Property} {schema schema' : Schema} :
    schema.embed stem ps = .ok schema' ↔
      Identifier.isValid stem = true ∧ schema.pushAll (ps.map (·.embedded stem)) = .ok schema' := by
  refine ⟨Identifier.isValid_of_check_bind, ?_⟩
  rintro ⟨hstem, h⟩
  have hcheck : Identifier.check stem = .ok stem := if_pos hstem
  rw [embed, hcheck]
  exact h

theorem Made.isValid_name {schema : Schema} (h : schema.Made) :
    ∀ p ∈ schema.properties, Identifier.isValid p.name = true := by
  induction h with
  | ofList h =>
    obtain ⟨hnames, -, -, rfl⟩ := pushAll_eq_ok_iff.1 h
    exact hnames
  | embed _ h ih =>
    obtain ⟨hnames, -, -, rfl⟩ := pushAll_eq_ok_iff.1 (embed_eq_ok_iff.1 h).2
    exact List.forall_mem_append.2 ⟨ih, hnames⟩

/-- No two columns share a name. -/
theorem Made.nodup_columns {schema : Schema} (h : schema.Made) : schema.columns.Nodup := by
  induction h with
  | ofList h =>
    obtain ⟨-, hnodup, -, rfl⟩ := pushAll_eq_ok_iff.1 h
    exact hnodup
  | embed _ h ih =>
    obtain ⟨-, hnodup, hnew, rfl⟩ := pushAll_eq_ok_iff.1 (embed_eq_ok_iff.1 h).2
    rw [columns, List.map_append]
    refine ih.append hnodup (List.disjoint_right.2 fun name hname => ?_)
    obtain ⟨p, hp, rfl⟩ := List.mem_map.1 hname
    exact hnew p hp

theorem Made.nodup_keys {schema : Schema} (h : schema.Made) : schema.keys.Nodup :=
  h.nodup_columns.sublist (List.filter_sublist.map _)

theorem Made.isValid {schema : Schema} (h : schema.Made) {name : String}
    (hname : schema.contains name = true) : Identifier.isValid name = true := by
  obtain ⟨p, hp, rfl⟩ := List.mem_map.1 (contains_iff.1 hname)
  exact h.isValid_name p hp

end Schema

/-- Two names with something between them that may stand in a name. -/
theorem Identifier.isValid_append {a b : String} (ha : isValid a = true) (hb : isValid b = true) :
    isValid (a ++ b) = true := by
  simp only [isValid, Bool.and_eq_true, Bool.not_eq_true', List.isEmpty_eq_false_iff,
    String.toList_append, List.all_append] at ha hb ⊢
  exact ⟨List.append_ne_nil_of_left_ne_nil ha.1 _, ha.2, hb.2⟩

theorem Identifier.notMem_dot {name : String} (h : isValid name = true) : '.' ∉ name.toList := by
  intro hdot
  rw [isValid, Bool.and_eq_true, List.all_eq_true] at h
  exact absurd (h.2 '.' hdot) (by decide)

theorem Identifier.check_of_isValid {name : String} (h : isValid name = true) :
    check name = .ok name := by
  rw [check, if_pos h]

theorem Expr.ofNames_of_isValid {tableAlias name : String}
    (halias : Identifier.isValid tableAlias = true) (hname : Identifier.isValid name = true) :
    ofNames tableAlias name = .ok (column tableAlias name) := by
  rw [ofNames, Identifier.check_of_isValid halias, Identifier.check_of_isValid hname]
  rfl

theorem searchedAlias_isValid : Identifier.isValid searchedAlias = true := by decide

/-- The names that the join of a filter is made of have passed the guard. -/
structure ForeignFilter.IsNamed (f : ForeignFilter) : Prop where
  joinAlias : Identifier.isValid f.joinAlias = true
  table : Identifier.isValid f.table = true
  entityId : Identifier.isValid f.entityId = true
  targetId : Identifier.isValid f.targetId = true
  discriminator : ∀ d ∈ f.discriminator, Identifier.isValid d.1 = true

theorem ForeignFilter.Made.isNamed {f : ForeignFilter} (h : f.Made) : f.IsNamed := by
  induction h with
  | make h =>
    obtain ⟨hname, htable, hentity, htarget, rfl⟩ := make_eq_ok h
    exact ⟨Identifier.isValid_append (by decide) hname, htable, hentity, htarget, by simp⟩
  | discriminatedBy _ h ih =>
    obtain ⟨hcolumn, rfl⟩ := discriminatedBy_eq_ok h
    refine ⟨ih.joinAlias, ih.table, ih.entityId, ih.targetId, fun d hd => ?_⟩
    cases hd
    exact hcolumn
  | optional _ ih => exact ⟨ih.joinAlias, ih.table, ih.entityId, ih.targetId, ih.discriminator⟩

namespace JoinFilter

theorem IsStandard.stem {f : EmbeddedFilter} (h : (JoinFilter.embedded f).IsStandard) :
    Identifier.isValid f.stem = true := by
  cases h with
  | embedded h =>
    obtain ⟨-, hstem, rfl⟩ := EmbeddedFilter.make_eq_ok h
    exact hstem
  | ofEntity h =>
    obtain ⟨schema, -, h⟩ := exists_of_bind_eq_ok h
    obtain ⟨-, hstem, rfl⟩ := EmbeddedFilter.make_eq_ok h
    exact hstem

theorem IsStandard.made {f : ForeignFilter} (h : (JoinFilter.foreign f).IsStandard) : f.Made := by
  cases h with
  | foreign h => exact h

end JoinFilter

/-! ### Filters -/

namespace QueryCompiler

variable {c : QueryCompiler}

theorem Built.distinct (h : c.Built) :
    (c.filters.map (·.name)).Nodup ∧ ∀ f ∈ c.filters, c.schema.contains f.name = false := by
  induction h with
  | make h =>
    obtain ⟨-, -, rfl⟩ := make_eq_ok h
    exact ⟨List.nodup_nil, fun f hf => absurd hf List.not_mem_nil⟩
  | withLimits _ _ ih => exact ih
  | @addFilter c c' f _ _ h ih =>
    obtain ⟨hnew, hproperty, rfl⟩ := addFilter_eq_ok h
    refine ⟨?_, fun g hg => ?_⟩
    · rw [List.map_append, List.map_singleton]
      refine ih.1.append (List.nodup_singleton _) ?_
      rw [List.disjoint_singleton]
      intro hold
      obtain ⟨g, hg, hname⟩ := List.mem_map.1 hold
      exact List.find?_eq_none.1 hnew g hg (decide_eq_true hname)
    · rcases List.mem_append.1 hg with hold | hlast
      · exact ih.2 g hold
      · rw [List.mem_singleton.1 hlast]
        exact hproperty

/-- The table has a primary key. -/
theorem Built.keys_ne_nil (h : c.Built) : c.schema.keys ≠ [] := by
  obtain ⟨c₀, hmake⟩ := h.exists_make
  exact (make_eq_ok hmake).2.1

theorem Built.filter?_eq_some_iff (h : c.Built) {name : String} {f : JoinFilter} :
    c.filter? name = some f ↔ f ∈ c.filters ∧ f.name = name := by
  refine ⟨filter?_eq_some, ?_⟩
  rintro ⟨hf, rfl⟩
  obtain ⟨g, hg⟩ : ∃ g, c.filter? f.name = some g :=
    Option.isSome_iff_exists.1 (List.find?_isSome.2 ⟨f, hf, decide_eq_true rfl⟩)
  obtain ⟨hmem, hname⟩ := filter?_eq_some hg
  rw [hg, List.inj_on_of_nodup_map h.distinct.1 hmem hf hname]

end QueryCompiler

/-! ### Attributes -/

/-- Nothing is cut off at a dot if there is none. -/
theorem dropWhile_dot_of_notMem {cs : List Char} (h : '.' ∉ cs) : cs.dropWhile (· ≠ '.') = [] := by
  rw [List.dropWhile_eq_nil_iff]
  intro c hc
  exact decide_eq_true fun hdot => h (hdot ▸ hc)

/-- A text is cut at its first dot. -/
theorem cut_at_dot {front : List Char} (h : '.' ∉ front) (back : List Char) :
    (front ++ '.' :: back).takeWhile (· ≠ '.') = front ∧
      (front ++ '.' :: back).dropWhile (· ≠ '.') = '.' :: back := by
  have hall : ∀ c ∈ front, decide (c ≠ '.') = true :=
    fun c hc => decide_eq_true fun hdot => h (hdot ▸ hc)
  rw [List.takeWhile_append_of_pos hall, List.dropWhile_append_of_pos hall]
  simp

theorem toList_dotted (name sub : String) :
    (name ++ "." ++ sub).toList = name.toList ++ '.' :: sub.toList := by
  simp [String.toList_append]

namespace Attribute

theorem ofText_of_notMem {attr : String} (h : '.' ∉ attr.toList) : ofText attr = plain attr := by
  rw [ofText, dropWhile_dot_of_notMem h]

/-- Behind the first dot there is a name, or a second dot. -/
theorem ofText_cut {name : String} (hname : '.' ∉ name.toList) (sub : String) :
    ofText (name ++ "." ++ sub) = if '.' ∈ sub.toList then deeper else dotted name sub := by
  obtain ⟨hfront, hback⟩ := cut_at_dot hname sub.toList
  rw [ofText, toList_dotted, hback, hfront]
  simp

theorem ofText_dotted {name sub : String} (hname : '.' ∉ name.toList) (hsub : '.' ∉ sub.toList) :
    ofText (name ++ "." ++ sub) = dotted name sub := by
  rw [ofText_cut hname, if_neg hsub]

theorem ofText_eq_plain {attr name : String} (h : ofText attr = plain name) : attr = name := by
  dsimp only [ofText] at h
  split at h
  · cases h
    rfl
  · split at h <;> cases h

end Attribute

/-! ### A table with filters of each kind -/

/-- The prices in the table of products. -/
def prices : EmbeddedFilter where
  name := "price"
  stem := "price"
  schema := ⟨[{ name := "amount" }, { name := "currency" }]⟩

/-- The vendor of a product, which need not have one. -/
def vendors : ForeignFilter where
  name := "vendor"
  table := "vendor"
  entityId := "vendor_id"
  targetId := "id"
  schema := ⟨[{ name := "name" }]⟩
  isOptional := true

/-- The colors of a product, among its other traits. -/
def colors : ForeignFilter where
  name := "color"
  table := "trait"
  entityId := "sku"
  targetId := "product_sku"
  schema := ⟨[{ name := "value" }]⟩
  discriminator := some ("kind", .string "color")

/-- Products, which are told apart by their shop and its number for them. -/
def QueryCompiler.products : QueryCompiler where
  table := "product"
  schema := ⟨[{ name := "shop", isKey := true }, { name := "sku", isKey := true },
    { name := "status" }, { name := "vendor_id" },
    { name := "price_amount", embeddedIn := some "price" },
    { name := "price_currency", embeddedIn := some "price" }]⟩
  filters := [.embedded prices, .foreign vendors, .foreign colors]

theorem prices_isStandard : (JoinFilter.embedded prices).IsStandard := by
  have hmake : EmbeddedFilter.ofEntity QueryCompiler.products.schema "price" = .ok prices := rfl
  exact .ofEntity hmake

theorem vendors_made : vendors.Made := by
  have hmake : ForeignFilter.make "vendor" "vendor" "vendor_id" "id" vendors.schema =
      .ok { vendors with isOptional := false } := rfl
  exact .optional (.make hmake)

theorem colors_made : colors.Made := by
  have hmake : ForeignFilter.make "color" "trait" "sku" "product_sku" colors.schema =
      .ok { colors with discriminator := none } := rfl
  have hkind : ForeignFilter.discriminatedBy { colors with discriminator := none }
      "kind" (.string "color") = .ok colors := rfl
  exact .discriminatedBy (.make hmake) hkind

namespace QueryCompiler

theorem products_isMade : products.IsMade where
  built := by
    have hmake : make "product" products.schema = .ok { products with filters := [] } := rfl
    have hprices := Built.addFilter (.make hmake) prices_isStandard rfl
    have hvendors := Built.addFilter hprices (.foreign vendors_made) rfl
    exact .addFilter hvendors (.foreign colors_made) rfl
  schema := by
    have hown : Schema.ofList (products.schema.properties.take 4) =
        .ok ⟨products.schema.properties.take 4⟩ := rfl
    have hprices : Schema.embed ⟨products.schema.properties.take 4⟩ "price"
        prices.schema.properties = .ok products.schema := rfl
    exact .embed (.ofList hown) hprices
  filters := by
    have hmade : ∀ schema ∈ [prices.schema, vendors.schema, colors.schema],
        Schema.ofList schema.properties = .ok schema := by decide +kernel
    intro f hf
    exact .ofList (hmade f.schema (List.mem_map_of_mem (f := JoinFilter.schema) hf))

end QueryCompiler

end RecordStore
