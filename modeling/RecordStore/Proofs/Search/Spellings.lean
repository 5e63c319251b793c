import RecordStore.Proofs.Search.Compiler
import RecordStore.Proofs.Search.Registration

/-!
# Two spellings of an embedded column

A column that a table embeds under a stem can be written as it is declared, `stem_sub`, or behind a
dot, `stem.sub`. The first one is found in the schema, the second one by the filter for the stem,
whose schema is made of the names that are left when the stem is taken off
(`EmbeddedFilter.mem_embeddedNames_iff`). As stems may have underscores in them, it takes more than
the name to tell to which stem a column belongs: it is declared with it (`Schema.Embeds`).

An action *succeeds as* another one (`Act.SucceedsAs`) if, wherever it succeeds, the other one does
so too, with a result that is related to its own, and leaves the same world. So do the compilations
of searches in which attributes stand for the same columns (`QueryCompiler.compile_eq_of_rewrites`),
as the two spellings do (`QueryCompiler.embedded_spellings_agree`).
-/

namespace RecordStore

variable {σ α α' β β' : Type}

/-! ### Actions that succeed together -/

/-- Wherever the first action succeeds, the second one succeeds with a result that is related to the
    first one's, and leaves the same world. -/
def Act.SucceedsAs (R : α → β → Prop) (f : Act σ α) (g : Act σ β) : Prop :=
  ∀ ⦃s a s'⦄, f.perform s = (.ok a, s') → ∃ b, g.perform s = (.ok b, s') ∧ R a b

namespace Act

variable {R : α → β → Prop} {S : α' → β' → Prop}

theorem SucceedsAs.refl (f : Act σ α) : f.SucceedsAs Eq f := fun _ a _ h => ⟨a, h, rfl⟩

theorem succeedsAs_pure {a : α} {b : β} (h : R a b) :
    (pure a : Act σ α).SucceedsAs R (pure b : Act σ β) := by
  intro s a' s' hrun
  cases hrun
  exact ⟨b, rfl, h⟩

/-- An action that fails is no obligation. -/
theorem succeedsAs_fail (e : StoreError) (g : Act σ β) : (fail e : Act σ α).SucceedsAs R g := by
  intro s a s' hrun
  cases hrun

theorem SucceedsAs.bind {f : Act σ α} {g : Act σ β} {f' : α → Act σ α'} {g' : β → Act σ β'}
    (h : f.SucceedsAs R g) (hnext : ∀ a b, R a b → (f' a).SucceedsAs S (g' b)) :
    (f >>= f').SucceedsAs S (g >>= g') := by
  intro s a' s' hrun
  obtain ⟨a, s₁, hf, hf'⟩ := perform_bind_eq_ok hrun
  obtain ⟨b, hg, hab⟩ := h hf
  obtain ⟨b', hg', hab'⟩ := hnext a b hab hf'
  refine ⟨b', ?_, hab'⟩
  rw [perform_bind, hg]
  exact hg'

/-- The first part is the same. -/
theorem SucceedsAs.bind_same (f : Act σ α) {f' : α → Act σ α'} {g' : α → Act σ β'}
    (hnext : ∀ a, (f' a).SucceedsAs S (g' a)) : (f >>= f').SucceedsAs S (f >>= g') := by
  refine (SucceedsAs.refl f).bind fun a _ heq => ?_
  exact heq ▸ hnext a

theorem SucceedsAs.mapM {f : α' → Act σ α} {g : β' → Act σ α} {as : List α'} {bs : List β'}
    (h : List.Forall₂ (fun a b => (f a).SucceedsAs Eq (g b)) as bs) :
    (as.mapM f).SucceedsAs Eq (bs.mapM g) := by
  induction h with
  | nil => exact succeedsAs_pure rfl
  | cons hab _ ih =>
    rw [List.mapM_cons, List.mapM_cons]
    refine hab.bind fun a _ heq => ih.bind fun as _ heqs => ?_
    rw [heq, heqs]
    exact succeedsAs_pure rfl

end Act

/-! ### Searches with other attributes -/

/-- Conditions that differ in their attributes only, which are related. -/
structure Condition.Rewrites (R : String → String → Prop) (cond cond' : Condition) : Prop where
  attr : R cond.attr cond'.attr
  operator : cond.operator = cond'.operator
  operand : cond.operand = cond'.operand
  block : cond.block = cond'.block

structure SortKey.Rewrites (R : String → String → Prop) (key key' : SortKey) : Prop where
  attr : R key.attr key'.attr
  direction : key.direction = key'.direction

/-- Searches that differ in the attributes of conditions and of sort columns only. -/
structure Search.Rewrites (R : String → String → Prop) (s s' : Search) : Prop where
  selection : s.selection = s'.selection
  conditions : List.Forall₂ (Condition.Rewrites R) s.conditions s'.conditions
  paging : s.paging = s'.paging
  order : List.Forall₂ (SortKey.Rewrites R) s.order s'.order
  groups : s.groups = s'.groups

namespace Search.Rewrites

variable {R S : String → String → Prop} {s s' : Search}

theorem mono (hRS : ∀ attr attr', R attr attr' → S attr attr') (h : s.Rewrites R s') :
    s.Rewrites S s' where
  selection := h.selection
  conditions := h.conditions.imp fun _ _ hcond => { hcond with attr := hRS _ _ hcond.attr }
  paging := h.paging
  order := h.order.imp fun _ _ hkey => { hkey with attr := hRS _ _ hkey.attr }
  groups := h.groups

theorem symm (h : s.Rewrites R s') : s'.Rewrites (fun attr attr' => R attr' attr) s where
  selection := h.selection.symm
  conditions := h.conditions.flip.imp fun _ _ hcond =>
    ⟨hcond.attr, hcond.operator.symm, hcond.operand.symm, hcond.block.symm⟩
  paging := h.paging.symm
  order := h.order.flip.imp fun _ _ hkey => ⟨hkey.attr, hkey.direction.symm⟩
  groups := h.groups.symm

end Search.Rewrites

namespace QueryCompiler

variable {c : QueryCompiler} {s s' : Search}

/-- Where the first attribute stands for a column, the second one stands for the same one, and as
    much is joined and bound for it. -/
def Resolves (c : QueryCompiler) (attr attr' : String) : Prop :=
  (c.resolve attr).SucceedsAs (fun column column' => column.expr = column'.expr) (c.resolve attr')

theorem predicate_succeedsAs {cond cond' : Condition} (h : cond.Rewrites c.Resolves cond') :
    (c.predicate cond).SucceedsAs Eq (c.predicate cond') := by
  obtain ⟨attr, operator, operand, block⟩ := cond
  obtain ⟨hattr, rfl, rfl, rfl⟩ := h
  refine hattr.bind fun column column' hexpr => ?_
  dsimp only
  rw [hexpr]
  -- Only errors tell the attributes apart.
  split <;> first | exact .refl _ | exact Act.succeedsAs_fail _ _

theorem rowFilter_succeedsAs (h : s.Rewrites c.Resolves s') :
    (c.rowFilter s).SucceedsAs Eq (c.rowFilter s') := by
  have hblock : ∀ block, ((s.conditionsIn block).mapM c.predicate).SucceedsAs Eq
      ((s'.conditionsIn block).mapM c.predicate) := by
    intro block
    have hconditions :=
      Search.forall₂_conditionsIn (fun _ _ hcond => hcond.block) h.conditions block
    exact .mapM (hconditions.imp fun _ _ => predicate_succeedsAs)
  refine (hblock .and).bind fun all _ hall => (hblock .or).bind fun any _ hany => ?_
  rw [hall, hany]
  exact .refl _

theorem sort_succeedsAs {key key' : SortKey} (h : key.Rewrites c.Resolves key') :
    Act.SucceedsAs Eq (do return ((← c.resolve key.attr).expr, key.direction))
      (do return ((← c.resolve key'.attr).expr, key'.direction)) := by
  refine h.attr.bind fun column column' hexpr => ?_
  rw [hexpr, h.direction]
  exact .refl _

theorem selectStatement_succeedsAs (h : s.Rewrites c.Resolves s') :
    (c.selectStatement s).SucceedsAs Eq (c.selectStatement s') := by
  unfold selectStatement
  rw [h.paging, h.groups, h.selection]
  refine .bind_same _ fun limit => .bind_same _ fun keys => .bind_same _ fun groups => ?_
  refine .bind_same _ fun selected => (rowFilter_succeedsAs h).bind fun filter _ hfilter => ?_
  have hsort := Act.SucceedsAs.mapM (h.order.imp fun _ _ => sort_succeedsAs)
  refine hsort.bind fun orderBy _ horder => ?_
  rw [hfilter, horder]
  exact .refl _

theorem countStatement_succeedsAs (h : s.Rewrites c.Resolves s') :
    (c.countStatement s).SucceedsAs Eq (c.countStatement s') := by
  unfold countStatement
  refine .bind_same _ fun keys => (rowFilter_succeedsAs h).bind fun filter _ hfilter => ?_
  rw [hfilter]
  exact .refl _

theorem finish_eq_of_succeedsAs {statement : Type} {groups : List String}
    {act act' : Act Compilation (statement × List Column)} (h : act.SucceedsAs Eq act')
    {q : Query statement} (hq : finish groups act = .ok q) : finish groups act' = .ok q := by
  rw [finish] at hq ⊢
  split at hq
  next hrun =>
    obtain ⟨_, hrun', rfl⟩ := h hrun
    rw [hrun']
    exact hq
  next => cases hq

/-- A search that compiles, and a count, compile to the same with other attributes in conditions and
    sort columns that stand for the same columns. -/
theorem compile_eq_of_rewrites (h : s.Rewrites c.Resolves s') :
    (∀ q, c.compile s = .ok q → c.compile s' = .ok q) ∧
      ∀ q, c.compileCount s = .ok q → c.compileCount s' = .ok q := by
  refine ⟨fun q hq => ?_, fun q hq => finish_eq_of_succeedsAs (countStatement_succeedsAs h) hq⟩
  rw [compile, ← h.groups]
  exact finish_eq_of_succeedsAs (selectStatement_succeedsAs h) hq

end QueryCompiler

/-! ### The columns that a schema embeds -/

/-- Whether a schema embeds a property under a stem. -/
def Schema.Embeds (entity : Schema) (stem sub : String) : Prop :=
  ∃ p ∈ entity.properties, p.embeddedIn = some stem ∧ p.name = stem ++ "_" ++ sub

theorem Schema.Embeds.contains {entity : Schema} {stem sub : String} (h : entity.Embeds stem sub) :
    entity.contains (stem ++ "_" ++ sub) = true := by
  obtain ⟨p, hp, -, hname⟩ := h
  exact contains_iff.2 (hname ▸ List.mem_map_of_mem hp)

namespace EmbeddedFilter

variable {entity : Schema} {stem sub : String} {f : EmbeddedFilter}

/-- A name without the stem in front is the rest of it. -/
theorem stripped_iff {name : String} :
    ((stem.toList ++ ['_']).isPrefixOf name.toList = true ∧
      String.ofList (name.toList.drop (stem.toList ++ ['_']).length) = sub) ↔
    name = stem ++ "_" ++ sub := by
  rw [List.isPrefixOf_iff_prefix]
  constructor
  · rintro ⟨⟨rest, hrest⟩, rfl⟩
    rw [← String.toList_inj, ← hrest]
    simp
  · rintro rfl
    simp

theorem mem_embeddedNames_iff : sub ∈ embeddedNames entity stem ↔ entity.Embeds stem sub := by
  have hstrip : ∀ p : Property,
      (if (stem.toList ++ ['_']).isPrefixOf p.name.toList then
        some (String.ofList (p.name.toList.drop (stem.toList ++ ['_']).length)) else none) =
          some sub ↔ p.name = stem ++ "_" ++ sub := by
    intro p
    rw [Option.ite_none_right_eq_some, Option.some.injEq, stripped_iff]
  simp only [embeddedNames, List.mem_filterMap, List.mem_filter, hstrip, decide_eq_true_eq,
    Schema.Embeds, and_assoc]

theorem ofEntity_eq_ok (h : ofEntity entity stem = .ok f) :
    f.name = stem ∧ f.stem = stem ∧ Identifier.isValid stem = true ∧
      (∀ sub, f.schema.contains sub = true ↔ entity.Embeds stem sub) ∧
      ∀ sub, entity.Embeds stem sub → Identifier.isValid sub = true := by
  obtain ⟨schema, hschema, h⟩ := exists_of_bind_eq_ok h
  obtain ⟨hstem, -, rfl⟩ := make_eq_ok h
  obtain ⟨hnames, -, -, rfl⟩ := Schema.pushAll_eq_ok_iff.1 hschema
  refine ⟨rfl, rfl, hstem, fun sub => ?_, fun sub hsub => ?_⟩
  · rw [Schema.contains_iff, ← mem_embeddedNames_iff]
    simp [Schema.columns]
  · exact List.forall_mem_map.1 hnames sub (mem_embeddedNames_iff.2 hsub)

theorem isValid_of_embeds (h : ofEntity entity stem = .ok f) (hsub : entity.Embeds stem sub) :
    Identifier.isValid (stem ++ "_" ++ sub) = true := by
  obtain ⟨-, -, hstem, -, hvalid⟩ := ofEntity_eq_ok h
  exact Identifier.isValid_append (Identifier.isValid_append hstem (by decide)) (hvalid sub hsub)

end EmbeddedFilter

namespace QueryCompiler

variable {c c' : QueryCompiler} {stem sub : String} {f : EmbeddedFilter}

/-! ### Attributes -/

/-- A compiler with the filter that is made for the columns under a stem. -/
structure HasStem (c : QueryCompiler) (stem : String) (f : EmbeddedFilter) : Prop where
  made : EmbeddedFilter.ofEntity c.schema stem = .ok f
  filter : c.filter? stem = some (.embedded f)

namespace HasStem

theorem resolve_flat (h : c.HasStem stem f) (hsub : c.schema.Embeds stem sub) (ctx : Compilation) :
    (c.resolve (stem ++ "_" ++ sub)).perform ctx =
      ((Expr.ofNames ctx.tableAlias (stem ++ "_" ++ sub)).map (⟨·, stem ++ "_" ++ sub, true⟩),
        ctx) := by
  have hname := EmbeddedFilter.isValid_of_embeds h.made hsub
  rw [resolve, Attribute.ofText_of_notMem (Identifier.notMem_dot hname)]
  dsimp only
  rw [if_pos hsub.contains]
  simp only [Act.perform_bind, Act.perform_read, Act.perform_ofExcept]
  cases Expr.ofNames ctx.tableAlias (stem ++ "_" ++ sub) <;> rfl

theorem resolve_dotted (h : c.HasStem stem f) (hsub : c.schema.Embeds stem sub)
    (ctx : Compilation) :
    (c.resolve (stem ++ "." ++ sub)).perform ctx =
      ((Expr.ofNames ctx.tableAlias (stem ++ "_" ++ sub)).map (⟨·, stem ++ "." ++ sub, false⟩),
        ctx) := by
  obtain ⟨-, hstem, hvalid, hcontains, hvalidSub⟩ := EmbeddedFilter.ofEntity_eq_ok h.made
  have hname := hvalidSub sub hsub
  rw [resolve, Attribute.ofText_dotted (Identifier.notMem_dot hvalid) (Identifier.notMem_dot hname)]
  dsimp only
  rw [h.filter]
  simp only [JoinFilter.column, EmbeddedFilter.column, Act.perform_bind, Act.perform_ofExcept,
    Identifier.check_of_isValid hname, (hcontains sub).2 hsub, if_true, Act.perform_read, hstem]
  cases Expr.ofNames ctx.tableAlias (stem ++ "_" ++ sub) <;> rfl

/-- Nothing else stands behind the dot. -/
theorem embeds_of_resolve (h : c.HasStem stem f) {ctx ctx' : Compilation} {column : Column}
    (hrun : (c.resolve (stem ++ "." ++ sub)).perform ctx = (.ok column, ctx')) :
    c.schema.Embeds stem sub := by
  obtain ⟨-, -, hvalid, hcontains, -⟩ := EmbeddedFilter.ofEntity_eq_ok h.made
  rw [resolve, Attribute.ofText_cut (Identifier.notMem_dot hvalid)] at hrun
  by_cases hdot : '.' ∈ sub.toList
  · -- A second dot is refused before any filter is looked for.
    rw [if_pos hdot] at hrun
    cases hrun
  · rw [if_neg hdot] at hrun
    dsimp only at hrun
    rw [h.filter] at hrun
    obtain ⟨e, _, he, -⟩ := Act.perform_bind_eq_ok hrun
    obtain ⟨_, _, -, he⟩ := Act.perform_bind_eq_ok he
    by_cases hsub : f.schema.contains sub = true
    · exact (hcontains sub).1 hsub
    · rw [if_neg hsub] at he
      cases he

/-- In a statement on a table whose alias has passed the guard, both spellings stand for the column,
    and leave the context as it is. -/
theorem resolve_spellings (h : c.HasStem stem f) (hsub : c.schema.Embeds stem sub)
    {ctx : Compilation} (halias : Identifier.isValid ctx.tableAlias = true) :
    ∃ dotted flat, (c.resolve (stem ++ "." ++ sub)).perform ctx = (.ok dotted, ctx) ∧
      (c.resolve (stem ++ "_" ++ sub)).perform ctx = (.ok flat, ctx) ∧
      dotted.expr = .column ctx.tableAlias (stem ++ "_" ++ sub) ∧ flat.expr = dotted.expr := by
  have he := Expr.ofNames_of_isValid halias (EmbeddedFilter.isValid_of_embeds h.made hsub)
  rw [h.resolve_dotted hsub, h.resolve_flat hsub, he]
  exact ⟨_, _, rfl, rfl, rfl, rfl⟩

end HasStem

/-! ### Spellings -/

/-- The dotted spelling of a column under a stem, and the flat one. Other attributes are spelled in
    one way. -/
inductive Respelled (stem : String) (P : String → Prop) : String → String → Prop
  | same (attr : String) : Respelled stem P attr attr
  | flat {sub : String} (h : P sub) : Respelled stem P (stem ++ "." ++ sub) (stem ++ "_" ++ sub)

theorem resolves_refl (attr : String) : c.Resolves attr attr :=
  fun _ column _ h => ⟨column, h, rfl⟩

/-- Attributes stand for the same column if they are the same expression under other labels. -/
theorem resolves_of_perform {attr attr' : String} {expr : Compilation → Except StoreError Expr}
    {isLocal isLocal' : Bool}
    (h : ∀ ctx, (c.resolve attr).perform ctx = ((expr ctx).map (⟨·, attr, isLocal⟩), ctx))
    (h' : ∀ ctx, (c.resolve attr').perform ctx = ((expr ctx).map (⟨·, attr', isLocal'⟩), ctx)) :
    c.Resolves attr attr' := by
  intro ctx column ctx' hrun
  rw [h] at hrun
  rw [h']
  cases he : expr ctx <;> rw [he] at hrun <;> cases hrun
  exact ⟨_, rfl, rfl⟩

theorem Respelled.resolves {attr attr' : String} (h : c.HasStem stem f)
    (hspelled : Respelled stem (c.schema.Embeds stem) attr attr') :
    c.Resolves attr attr' ∧ c.Resolves attr' attr := by
  cases hspelled with
  | same => exact ⟨resolves_refl _, resolves_refl _⟩
  | flat hsub => exact ⟨resolves_of_perform (h.resolve_dotted hsub) (h.resolve_flat hsub),
      resolves_of_perform (h.resolve_flat hsub) (h.resolve_dotted hsub)⟩

/-- A dotted name that stands for a column at all is that of an embedded one. -/
theorem Respelled.resolves_of_any {attr attr' : String} (h : c.HasStem stem f)
    (hspelled : Respelled stem (fun _ => True) attr attr') : c.Resolves attr attr' := by
  cases hspelled with
  | same => exact resolves_refl _
  | flat =>
    intro ctx column ctx' hrun
    exact (Respelled.resolves h (.flat (h.embeds_of_resolve hrun))).1 hrun

/-! ### Compilers with the filter -/

/-- The compilers that a compiler is made into by more filters, of an application's own also, and by
    other limits. -/
inductive Extends (c : QueryCompiler) : QueryCompiler → Prop
  | refl : Extends c c
  | withLimits {c' : QueryCompiler} (h : Extends c c') (limits : SearchLimits) :
      Extends c (c'.withLimits limits)
  | addFilter {c' c'' : QueryCompiler} {g : JoinFilter} (h : Extends c c')
      (hadd : c'.addFilter g = .ok c'') : Extends c c''

theorem filter?_of_addFilter {g : JoinFilter} (h : c.addFilter g = .ok c') :
    c'.filter? g.name = some g ∧ c'.schema = c.schema := by
  obtain ⟨hnew, -, rfl⟩ := addFilter_eq_ok h
  refine ⟨?_, rfl⟩
  rw [filter?, List.find?_append, ← filter?, hnew]
  simp

/-- A filter that is there answers to its name for good. -/
theorem Extends.keeps (h : c.Extends c') {name : String} {g : JoinFilter}
    (hg : c.filter? name = some g) : c'.filter? name = some g ∧ c'.schema = c.schema := by
  induction h with
  | refl => exact ⟨hg, rfl⟩
  | withLimits _ _ ih => exact ih
  | addFilter _ hadd ih =>
    obtain ⟨-, -, rfl⟩ := addFilter_eq_ok hadd
    refine ⟨?_, ih.2⟩
    rw [filter?, List.find?_append, ← filter?, ih.1]
    rfl

theorem Extends.hasStem {c₁ : QueryCompiler} (hext : c₁.Extends c')
    (hf : EmbeddedFilter.ofEntity c.schema stem = .ok f)
    (hadd : c.addFilter (.embedded f) = .ok c₁) : c'.HasStem stem f ∧ c'.schema = c.schema := by
  obtain ⟨hadded, hschema₁⟩ := filter?_of_addFilter hadd
  obtain ⟨hfilter, hschema'⟩ := hext.keeps hadded
  obtain ⟨hname, -⟩ := EmbeddedFilter.ofEntity_eq_ok hf
  have hsame : c'.schema = c.schema := hschema'.trans hschema₁
  exact ⟨⟨hsame ▸ hf, hname ▸ hfilter⟩, hsame⟩

/-- A table embeds columns under a stem, and a compiler for it has the filter that is made for them,
    and whatever other filters.
    * What stands behind the stem and a dot stands for a column exactly if the table declares this
      column, as one that is embedded under the stem. It is the column that the flat name stands
      for; nothing is joined and nothing is bound for either.
    * So it does not matter how such columns are spelled in conditions and to sort by: a search, or
      a count, is compiled with the one spelling exactly if it is with the other, and to the same
      text with the same values.
    * A search that is compiled with dotted names, whether or not they are those of such columns, is
      compiled to the same with flat ones. -/
theorem embedded_spellings_agree (hf : EmbeddedFilter.ofEntity c.schema stem = .ok f)
    {c₁ : QueryCompiler} (hadd : c.addFilter (.embedded f) = .ok c₁) (hext : c₁.Extends c') :
    (∀ sub ctx, Identifier.isValid ctx.tableAlias = true →
      ((∃ column, ((c'.resolve (stem ++ "." ++ sub)).perform ctx).1 = .ok column) ↔
        c.schema.Embeds stem sub) ∧
      (c.schema.Embeds stem sub → ∃ dotted flat,
        (c'.resolve (stem ++ "." ++ sub)).perform ctx = (.ok dotted, ctx) ∧
        (c'.resolve (stem ++ "_" ++ sub)).perform ctx = (.ok flat, ctx) ∧
        dotted.expr = .column ctx.tableAlias (stem ++ "_" ++ sub) ∧ flat.expr = dotted.expr)) ∧
    (∀ s s', Search.Rewrites (Respelled stem (c.schema.Embeds stem)) s s' →
      (∀ q, c'.compile s = .ok q ↔ c'.compile s' = .ok q) ∧
      ∀ q, c'.compileCount s = .ok q ↔ c'.compileCount s' = .ok q) ∧
    ∀ s s', Search.Rewrites (Respelled stem fun _ => True) s s' →
      (∀ q, c'.compile s = .ok q → c'.compile s' = .ok q) ∧
      ∀ q, c'.compileCount s = .ok q → c'.compileCount s' = .ok q := by
  obtain ⟨hstem, hschema⟩ := hext.hasStem hf hadd
  rw [← hschema]
  refine ⟨fun sub ctx halias => ⟨⟨?_, fun hsub => ?_⟩, fun hsub => ?_⟩, fun s s' h => ?_,
    fun s s' h => ?_⟩
  · rintro ⟨column, hcolumn⟩
    exact hstem.embeds_of_resolve (Prod.ext hcolumn rfl)
  · obtain ⟨dotted, -, hdotted, -⟩ := hstem.resolve_spellings hsub halias
    exact ⟨dotted, congrArg Prod.fst hdotted⟩
  · exact hstem.resolve_spellings hsub halias
  · have hthere := compile_eq_of_rewrites (h.mono fun _ _ hspelled => (hspelled.resolves hstem).1)
    have hback :=
      compile_eq_of_rewrites (h.symm.mono fun _ _ hspelled => (hspelled.resolves hstem).2)
    exact ⟨fun q => ⟨hthere.1 q, hback.1 q⟩, fun q => ⟨hthere.2 q, hback.2 q⟩⟩
  · exact compile_eq_of_rewrites (h.mono fun _ _ hspelled => hspelled.resolves_of_any hstem)

/-! ### Stems that overlap -/

/-- Parts with two sizes; the stem of one of them begins with the stem of the other. -/
def parts : QueryCompiler where
  table := "part"
  schema := ⟨[{ name := "id", isKey := true },
    { name := "size_min_x", embeddedIn := some "size" },
    { name := "size_min_y", embeddedIn := some "size_min" }]⟩

def partSizes : EmbeddedFilter := ⟨"size", "size", ⟨[{ name := "min_x" }]⟩⟩

def partMinima : EmbeddedFilter := ⟨"size_min", "size_min", ⟨[{ name := "y" }]⟩⟩

/-- Parts with a filter for each size. -/
def sizedParts : QueryCompiler :=
  { parts with filters := [.embedded partSizes, .embedded partMinima] }

/-- Parts of a size, the largest first. -/
def bySize (attr : String) : Search :=
  (({} : Search).require attr .gt (.int 1)).sortBy attr .desc

/-- Parts are found by the one spelling as by the other. The column belongs to the shorter stem, and
    the longer one does not lead to it. -/
theorem sizedParts_spellings_agree :
    (∃ q, sizedParts.compile (bySize "size.min_x") = .ok q ∧
      sizedParts.compile (bySize "size_min_x") = .ok q) ∧
    ¬∃ column, ((sizedParts.resolve "size_min.x").perform
      { tableAlias := searchedAlias }).1 = .ok column := by
  have hsizes : EmbeddedFilter.ofEntity parts.schema "size" = .ok partSizes := rfl
  have hminima : EmbeddedFilter.ofEntity parts.schema "size_min" = .ok partMinima := rfl
  have hfirst : parts.addFilter (.embedded partSizes) =
      .ok { parts with filters := [.embedded partSizes] } := rfl
  have hsecond : addFilter { parts with filters := [.embedded partSizes] } (.embedded partMinima) =
      .ok sizedParts := rfl
  obtain ⟨-, hsearches, -⟩ := embedded_spellings_agree hsizes hfirst (.addFilter .refl hsecond)
  obtain ⟨hresolves, -, -⟩ := embedded_spellings_agree
    (c := { parts with filters := [.embedded partSizes] }) hminima hsecond .refl
  constructor
  · have hsub : parts.schema.Embeds "size" "min_x" :=
      ⟨{ name := "size_min_x", embeddedIn := some "size" }, by decide, rfl, rfl⟩
    have hspelled : Respelled "size" (parts.schema.Embeds "size") "size.min_x" "size_min_x" :=
      .flat hsub
    have hsearch : Search.Rewrites (Respelled "size" (parts.schema.Embeds "size"))
        (bySize "size.min_x") (bySize "size_min_x") :=
      ⟨rfl, .cons ⟨hspelled, rfl, rfl, rfl⟩ .nil, rfl, .cons ⟨hspelled, rfl⟩ .nil, rfl⟩
    obtain ⟨q, hq⟩ : ∃ q, sizedParts.compile (bySize "size.min_x") = .ok q := ⟨_, rfl⟩
    exact ⟨q, hq, ((hsearches _ _ hsearch).1 q).1 hq⟩
  · intro hcolumn
    have hnone : ∀ p ∈ parts.schema.properties,
        p.embeddedIn = some "size_min" → p.name ≠ "size_min_x" := by decide
    obtain ⟨p, hp, hembedded, hname⟩ := (hresolves "x" _ searchedAlias_isValid).1.1 hcolumn
    exact hnone p hp hembedded hname

end QueryCompiler

end RecordStore
