import RecordStore.Proofs.Search.Compiler
import RecordStore.Proofs.Search.Registration
import RecordStore.Proofs.TableStore

/-!
# Which searches are accepted

A search is *accepted* by a compiler if its page lies inside the limits, every attribute in it is
known and every operand fits its operator (`QueryCompiler.Accepts`). What is wrong with one item of
a search does not depend on the others (`QueryCompiler.fault`), so compiling fails with the fault of
the first item that has one, in the order in which they are looked at (`Search.items`).

An action *has a fault*, or none, if whether it fails, and how, is the same in every context of the
searched table (`Act.HasFault`). In sequence the first fault counts.
-/

namespace RecordStore

variable {α β : Type}

/-! ### What is accepted -/

/-- The attributes that a compiler knows: a property of the table, the name of a filter for another
    table, and a property of a filter behind its name. -/
inductive QueryCompiler.Knows (c : QueryCompiler) : String → Prop
  | property {name : String} (h : c.schema.contains name = true) : Knows c name
  | joined {f : ForeignFilter} (hf : .foreign f ∈ c.filters) : Knows c f.name
  | sub {f : JoinFilter} {sub : String} (hf : f ∈ c.filters) (h : f.schema.contains sub = true) :
      Knows c (f.name ++ "." ++ sub)

/-- The operands that an operator takes. -/
def Operator.Takes : Operator → Value → Prop
  | oneOf, .array _ => True
  | oneOf, _ => False
  | eq, v | ne, v => v = .null ∨ v.IsScalar
  | _, v => v.IsScalar

/-- The attributes in a search. -/
def Search.attributes (s : Search) : List String :=
  s.groups ++ s.selection.getD [] ++ s.conditions.map (·.attr) ++ s.order.map (·.attr)

/-- A search in which nothing is wrong. -/
structure QueryCompiler.Accepts (c : QueryCompiler) (s : Search) : Prop where
  paging : ∃ page, s.paging.resolve c.limits = .ok page
  attributes : ∀ attr ∈ s.attributes, c.Knows attr
  operands : ∀ cond ∈ s.conditions, cond.operator.Takes cond.operand

/-- What is looked at in a search. -/
inductive SearchItem where
  | paging (paging : Paging)
  | attr (attr : String)
  | condition (cond : Condition)

/-- The items of a search, in the order in which they are looked at. -/
def Search.items (s : Search) : List SearchItem :=
  .paging s.paging :: (s.groups.map .attr ++ (s.selection.getD []).map .attr
    ++ (s.conditionsIn .and).map .condition ++ (s.conditionsIn .or).map .condition
    ++ s.order.map (.attr ·.attr))

/-- Nothing is wrong with an item. -/
def QueryCompiler.Admits (c : QueryCompiler) : SearchItem → Prop
  | .paging p => ∃ page, p.resolve c.limits = .ok page
  | .attr attr => c.Knows attr
  | .condition cond => c.Knows cond.attr ∧ cond.operator.Takes cond.operand

/-! ### What is wrong -/

/-- What is wrong with the name behind the dot, for the properties of a filter. -/
def Schema.subFault (schema : Schema) (name place sub : String) : Option StoreError :=
  if Identifier.isValid sub then
    if schema.contains sub then none else some (.unknownAttribute (name ++ "." ++ sub) place)
  else some (.invalidIdentifier sub)

/-- What is wrong with an attribute of a filter. -/
def JoinFilter.fault : JoinFilter → Option String → Option StoreError
  | embedded f, none => some (.unknownAttribute f.name ("embedded " ++ f.stem))
  | embedded f, some sub => f.schema.subFault f.name f.stem sub
  | foreign _, none => none
  | foreign f, some sub => f.schema.subFault f.name f.table sub
  | custom .., _ => none

/-- What is wrong with an operand. -/
def Condition.operandFault (cond : Condition) : Option StoreError :=
  let invalid (reason : String) := some (.invalidOperand cond.attr cond.operator.sql reason)
  match cond.operator, cond.operand with
  | .oneOf, .array _ | .eq, .null | .ne, .null => none
  | .oneOf, _ => invalid "expected a list of values"
  | _, .null => invalid "null only compares with = and !="
  | _, .array _ | _, .object _ => invalid "expected a scalar value"
  | _, _ => none

namespace QueryCompiler

variable (c : QueryCompiler)

/-- What is wrong with an attribute. -/
def attributeFault (attr : String) : Option StoreError :=
  match Attribute.ofText attr with
  | .plain name =>
    if c.schema.contains name then none
    else ((c.filter? name).map (·.fault none)).getD (some (.unknownAttribute attr c.table))
  | .dotted name sub =>
    ((c.filter? name).map (·.fault (some sub))).getD (some (.unknownJoinFilter name attr))
  | .deeper => some (.nestingTooDeep attr)

/-- What is wrong with an item; of a condition, its attribute is looked at first. -/
def fault : SearchItem → Option StoreError
  | .paging p =>
    match p.resolve c.limits with
    | .ok _ => none
    | .error e => some e
  | .attr attr => c.attributeFault attr
  | .condition cond => (c.attributeFault cond.attr).or cond.operandFault

end QueryCompiler

theorem Schema.subFault_eq_none_iff {schema : Schema} (hschema : schema.Made)
    {name place sub : String} : schema.subFault name place sub = none ↔ schema.contains sub = true := by
  unfold subFault
  split
  next => split <;> simp_all
  next hinvalid =>
    simp only [reduceCtorEq, false_iff]
    exact fun hsub => hinvalid (hschema.isValid hsub)

theorem Condition.operandFault_eq_none_iff (cond : Condition) :
    cond.operandFault = none ↔ cond.operator.Takes cond.operand := by
  unfold operandFault
  rcases cond with ⟨attr, operator, operand, block⟩
  cases operator <;> cases operand <;> simp [Operator.Takes, Value.IsScalar]

namespace QueryCompiler

variable {c : QueryCompiler}

theorem attributeFault_eq_none_iff (hc : c.IsMade) (attr : String) :
    c.attributeFault attr = none ↔ c.Knows attr := by
  constructor
  · intro h
    unfold attributeFault at h
    split at h
    next name hattr =>
      rw [Attribute.ofText_eq_plain hattr]
      split at h
      next hproperty => exact .property hproperty
      next =>
        rcases hfilter : c.filter? name with _ | f <;> rw [hfilter] at h
        · cases h
        · obtain ⟨hf, rfl⟩ := filter?_eq_some hfilter
          cases f with
          | embedded => cases h
          | foreign f => exact .joined hf
          | custom => cases hc.built.filters _ hf
    next name sub hattr =>
      rw [Attribute.ofText_eq_dotted hattr]
      rcases hfilter : c.filter? name with _ | f <;> rw [hfilter] at h
      · cases h
      · obtain ⟨hf, rfl⟩ := filter?_eq_some hfilter
        refine .sub hf ?_
        have hmade := hc.filters f hf
        cases f with
        | embedded | foreign => exact (Schema.subFault_eq_none_iff hmade).1 h
        | custom => cases hc.built.filters _ hf
    next => cases h
  · intro h
    unfold attributeFault
    cases h with
    | property hproperty =>
      rw [Attribute.ofText_of_notMem (Identifier.notMem_dot (hc.schema.isValid hproperty))]
      simp [hproperty]
    | @joined f hf =>
      have hname := Identifier.notMem_dot (hc.built.filters _ hf).isValid
      have hfilter : c.filter? f.name = some (.foreign f) :=
        hc.built.filter?_eq_some_iff.2 ⟨hf, rfl⟩
      rw [JoinFilter.name] at hname
      rw [Attribute.ofText_of_notMem hname]
      simp [hfilter, JoinFilter.fault]
    | @sub f sub hf hsub =>
      have hname := Identifier.notMem_dot (hc.built.filters _ hf).isValid
      have hmade := hc.filters f hf
      have hfilter : c.filter? f.name = some f := hc.built.filter?_eq_some_iff.2 ⟨hf, rfl⟩
      rw [Attribute.ofText_dotted hname (Identifier.notMem_dot (hmade.isValid hsub))]
      dsimp only
      rw [hfilter]
      cases f with
      | embedded | foreign => exact (Schema.subFault_eq_none_iff hmade).2 hsub
      | custom => cases hc.built.filters _ hf

theorem fault_eq_none_iff (hc : c.IsMade) (item : SearchItem) :
    c.fault item = none ↔ c.Admits item := by
  cases item with
  | paging p =>
    rw [fault, Admits]
    rcases p.resolve c.limits with e | page <;> simp
  | attr attr => exact attributeFault_eq_none_iff hc attr
  | condition cond =>
    rw [fault, Admits, Option.or_eq_none_iff, attributeFault_eq_none_iff hc,
      cond.operandFault_eq_none_iff]

end QueryCompiler

/-! Whatever is wrong is a mistake of the program. -/

section IsConfiguration

variable {e : StoreError}

theorem Paging.resolve_isConfiguration {limits : SearchLimits} {p : Paging}
    (h : p.resolve limits = .error e) : e.isConfiguration = true := by
  have hcheck : ∀ {page : Page}, (page.check limits).map some = .error e →
      e.isConfiguration = true := by
    intro page h
    unfold Page.check at h
    dsimp only at h
    split at h
    · cases h
      rfl
    · split at h
      · cases h
        rfl
      · cases h
  cases p with
  | default | page => exact hcheck h
  | unlimited => cases h

theorem Schema.subFault_isConfiguration {schema : Schema} {name place sub : String}
    (h : schema.subFault name place sub = some e) : e.isConfiguration = true := by
  unfold subFault at h
  split at h
  · split at h
    · cases h
    · cases h
      rfl
  · cases h
    rfl

theorem JoinFilter.fault_isConfiguration {f : JoinFilter} {sub : Option String}
    (h : f.fault sub = some e) : e.isConfiguration = true := by
  unfold fault at h
  split at h
  · cases h
    rfl
  · exact Schema.subFault_isConfiguration h
  · cases h
  · exact Schema.subFault_isConfiguration h
  · cases h

theorem Condition.operandFault_isConfiguration {cond : Condition}
    (h : cond.operandFault = some e) : e.isConfiguration = true := by
  unfold operandFault at h
  dsimp only at h
  split at h <;> cases h <;> rfl

theorem QueryCompiler.fault_isConfiguration {c : QueryCompiler} {item : SearchItem}
    (h : c.fault item = some e) : e.isConfiguration = true := by
  have hfilter : ∀ {f? : Option JoinFilter} {sub : Option String} {other : StoreError},
      other.isConfiguration = true → (f?.map (·.fault sub)).getD (some other) = some e →
        e.isConfiguration = true := by
    intro f? sub other hother h
    cases f? with
    | none =>
      cases h
      exact hother
    | some f => exact JoinFilter.fault_isConfiguration h
  have hattr : ∀ {attr}, c.attributeFault attr = some e → e.isConfiguration = true := by
    intro attr h
    unfold attributeFault at h
    split at h
    next =>
      split at h
      · cases h
      · exact hfilter rfl h
    next => exact hfilter rfl h
    next =>
      cases h
      rfl
  cases item with
  | paging p =>
    unfold fault at h
    dsimp only at h
    split at h
    · cases h
    next e' herror =>
      cases h
      exact Paging.resolve_isConfiguration herror
  | attr attr => exact hattr h
  | condition cond =>
    rcases Option.or_eq_some_iff.1 h with h | ⟨-, h⟩
    · exact hattr h
    · exact Condition.operandFault_isConfiguration h

end IsConfiguration

/-! ### Faults of actions -/

/-- In every context of the searched table the action fails with this error, or with none, and then
    leaves a context of the searched table. -/
def Act.HasFault (f : Act Compilation α) (fault : Option StoreError) : Prop :=
  ∀ ctx, ctx.tableAlias = searchedAlias →
    match f.perform ctx with
    | (.ok _, ctx') => fault = none ∧ ctx'.tableAlias = searchedAlias
    | (.error e, _) => fault = some e

namespace Act

variable {f : Act Compilation α} {g : α → Act Compilation β} {e e' : Option StoreError}

theorem hasFault_pure (a : α) : (pure a : Act Compilation α).HasFault none :=
  fun _ halias => ⟨rfl, halias⟩

theorem hasFault_fail (e : StoreError) : (fail e : Act Compilation α).HasFault (some e) :=
  fun _ _ => rfl

/-- Of actions in sequence, the second has the fault that it has on results of the first. -/
theorem HasFault.bind (hf : f.HasFault e)
    (hg : ∀ ctx a ctx', f.perform ctx = (.ok a, ctx') → (g a).HasFault e') :
    (f >>= g).HasFault (e.or e') := by
  intro ctx halias
  have hfirst := hf ctx halias
  rw [perform_bind]
  rcases hrun : f.perform ctx with ⟨err | a, ctx'⟩ <;> rw [hrun] at hfirst
  · rw [hfirst]
    rfl
  · obtain ⟨rfl, halias'⟩ := hfirst
    exact hg ctx a ctx' hrun ctx' halias'

/-- What an action without a fault is followed by decides. -/
theorem HasFault.then (hf : f.HasFault none) (hg : ∀ a, (g a).HasFault e) :
    (f >>= g).HasFault e := hf.bind fun _ a _ _ => hg a

/-- A fault stays the fault, whatever was to follow. -/
theorem HasFault.stop {err : StoreError} (hf : f.HasFault (some err)) :
    (f >>= g).HasFault (some err) := by
  intro ctx halias
  have hfirst := hf ctx halias
  rw [perform_bind]
  rcases hrun : f.perform ctx with ⟨err' | a, ctx'⟩ <;> rw [hrun] at hfirst
  · exact hfirst
  · cases hfirst.1

/-- What is read off a context of the searched table is followed by what decides. -/
theorem hasFault_read_bind {k : Compilation → α}
    (h : ∀ ctx, ctx.tableAlias = searchedAlias → (g (k ctx)).HasFault e) :
    (read k >>= g).HasFault e := by
  intro ctx halias
  rw [perform_bind, perform_read]
  exact h ctx halias ctx halias

theorem hasFault_ok_bind {a : α} (h : (g a).HasFault e) : (ofExcept (.ok a) >>= g).HasFault e := h

theorem HasFault.map (hf : f.HasFault e) (k : α → β) :
    (do return k (← f) : Act Compilation β).HasFault e := by
  rw [← Option.or_none (o := e)]
  exact hf.bind fun _ a _ _ => hasFault_pure (k a)

theorem hasFault_mapM {f : β → Act Compilation α} {fault : β → Option StoreError} (bs : List β)
    (h : ∀ b ∈ bs, (f b).HasFault (fault b)) : (bs.mapM f).HasFault (bs.findSome? fault) := by
  induction bs with
  | nil => exact hasFault_pure []
  | cons b bs ih =>
    -- The rest only runs, and only counts, if the first element has no fault.
    obtain ⟨hb, hbs⟩ := List.forall_mem_cons.1 h
    rw [List.mapM_cons, List.findSome?_cons]
    have hrest := fun a => (ih hbs).map (a :: ·)
    rcases hfault : fault b with _ | err <;> rw [hfault] at hb
    · exact hb.then hrest
    · exact hb.stop

end Act

theorem Compilation.bind_hasFault (param : Param) : (bind param).HasFault none :=
  fun _ halias => ⟨rfl, halias⟩

theorem Compilation.addClause_hasFault (name : String) (join : Join) :
    (addClause name join).HasFault none := by
  intro ctx halias
  rw [addClause, Act.perform_change]
  refine ⟨rfl, ?_⟩
  split <;> exact halias

/-! ### Faults of attributes -/

theorem Identifier.check_hasFault (name : String) :
    (Act.ofExcept (check name) : Act Compilation String).HasFault
      (if isValid name then none else some (.invalidIdentifier name)) := by
  rw [check]
  split
  · exact Act.hasFault_pure name
  · exact Act.hasFault_fail _

theorem Expr.ofNames_hasFault {tableAlias name : String}
    (halias : Identifier.isValid tableAlias = true) (hname : Identifier.isValid name = true) :
    (Act.ofExcept (ofNames tableAlias name) : Act Compilation Expr).HasFault none := by
  rw [ofNames_of_isValid halias hname]
  exact Act.hasFault_pure _

/-- The columns of the searched table can be named. -/
theorem Expr.ofAlias_hasFault {name : String} (hname : Identifier.isValid name = true) :
    (do Act.ofExcept (ofNames (← Act.read (·.tableAlias)) name) :
      Act Compilation Expr).HasFault none := by
  refine Act.hasFault_read_bind fun ctx halias => ?_
  rw [halias]
  exact ofNames_hasFault searchedAlias_isValid hname

/-- The name behind a dot is checked, then looked up. -/
theorem Schema.subFault_hasFault {schema : Schema} {name place sub : String}
    {found : Act Compilation α} (h : schema.contains sub = true → found.HasFault none) :
    (do
      let _ ← Act.ofExcept (Identifier.check sub)
      if schema.contains sub then found
      else Act.fail (.unknownAttribute (name ++ "." ++ sub) place)).HasFault
      (schema.subFault name place sub) := by
  have hcheck := Identifier.check_hasFault sub
  rw [subFault]
  split at hcheck
  next hvalid =>
    rw [if_pos hvalid]
    refine hcheck.then fun _ => ?_
    split
    next hsub => exact h hsub
    next => exact Act.hasFault_fail _
  next hinvalid =>
    rw [if_neg hinvalid]
    exact hcheck.stop

theorem EmbeddedFilter.column_hasFault {f : EmbeddedFilter} (hschema : f.schema.Made)
    (hstem : Identifier.isValid f.stem = true) (sub : Option String) :
    (f.column sub).HasFault ((JoinFilter.embedded f).fault sub) := by
  cases sub with
  | none => exact Act.hasFault_fail _
  | some sub =>
    refine Schema.subFault_hasFault fun hsub => Expr.ofAlias_hasFault ?_
    exact Identifier.isValid_append (Identifier.isValid_append hstem (by decide))
      (hschema.isValid hsub)

namespace ForeignFilter

variable {f : ForeignFilter}

theorem ensureJoined_hasFault (h : f.IsNamed) : f.ensureJoined.HasFault none := by
  refine Act.hasFault_read_bind fun ctx halias => ?_
  dsimp only [id]
  split
  · exact Act.hasFault_pure ()
  · rw [halias]
    refine (Expr.ofNames_hasFault h.joinAlias h.targetId).then fun target => ?_
    refine (Expr.ofNames_hasFault searchedAlias_isValid h.entityId).then fun entity => ?_
    rcases hd : f.discriminator with _ | ⟨column, value⟩
    · exact Compilation.addClause_hasFault _ _
    · refine (Compilation.bind_hasFault _).then fun slot => ?_
      refine (Expr.ofNames_hasFault h.joinAlias (h.discriminator _ hd)).then fun e => ?_
      exact Compilation.addClause_hasFault _ _

theorem column_hasFault (h : f.IsNamed) (hschema : f.schema.Made) (sub : Option String) :
    (f.column sub).HasFault ((JoinFilter.foreign f).fault sub) := by
  have hjoined : ∀ name, Identifier.isValid name = true →
      (do f.ensureJoined; Act.ofExcept (Expr.ofNames f.joinAlias name)).HasFault none :=
    fun name hname => (ensureJoined_hasFault h).then fun _ =>
      Expr.ofNames_hasFault h.joinAlias hname
  cases sub with
  | none => exact hjoined f.targetId h.targetId
  | some sub => exact Schema.subFault_hasFault fun hsub => hjoined sub (hschema.isValid hsub)

end ForeignFilter

theorem JoinFilter.IsStandard.column_hasFault {f : JoinFilter} (h : f.IsStandard)
    (hschema : f.schema.Made) (sub : Option String) : (f.column sub).HasFault (f.fault sub) := by
  cases f with
  | embedded => exact EmbeddedFilter.column_hasFault hschema h.stem sub
  | foreign => exact ForeignFilter.column_hasFault h.made.isNamed hschema sub
  | custom => cases h

namespace QueryCompiler

variable {c : QueryCompiler}

theorem resolve_hasFault (hc : c.IsMade) (attr : String) :
    (c.resolve attr).HasFault (c.attributeFault attr) := by
  have hfilter : ∀ name f, c.filter? name = some f → ∀ sub, (f.column sub).HasFault (f.fault sub) := by
    intro name f hf sub
    have hmem := (filter?_eq_some hf).1
    exact (hc.built.filters f hmem).column_hasFault (hc.filters f hmem) sub
  rcases hattr : Attribute.ofText attr with name | ⟨name, sub⟩ | _ <;>
    simp only [resolve, attributeFault, hattr]
  · split
    next hproperty =>
      refine Act.hasFault_read_bind fun ctx halias => ?_
      rw [halias]
      exact (Expr.ofNames_hasFault searchedAlias_isValid (hc.schema.isValid hproperty)).map _
    next =>
      rcases hf : c.filter? name with _ | f
      · exact Act.hasFault_fail _
      · exact (hfilter name f hf none).map _
  · rcases hf : c.filter? name with _ | f
    · exact Act.hasFault_fail _
    · exact (hfilter name f hf (some sub)).map _
  · exact Act.hasFault_fail _

theorem predicate_hasFault (hc : c.IsMade) (cond : Condition) :
    (c.predicate cond).HasFault (c.fault (.condition cond)) := by
  refine (resolve_hasFault hc cond.attr).bind fun _ column _ _ => ?_
  have hcompare : ∀ operator, (do
      let slot ← Compilation.bind (.ofValue cond.operand)
      return Predicate.compare column.expr operator slot).HasFault none :=
    fun operator => (Compilation.bind_hasFault _).map _
  -- Once the attribute is resolved, only whether the operand fits its operator matters.
  rw [Condition.operandFault]
  rcases cond with ⟨attr, operator, operand, block⟩
  cases operator with
  | oneOf =>
    cases operand with
    | array values =>
      cases values with
      | nil => exact Act.hasFault_pure _
      | cons v rest =>
        have hslots := Act.hasFault_mapM (v :: rest) fun v _ =>
          Compilation.bind_hasFault (.ofValue v)
        rw [List.findSome?_eq_none_iff.2 fun _ _ => rfl] at hslots
        exact hslots.map _
    | null | bool | number | string | object => exact Act.hasFault_fail _
  | eq | ne =>
    cases operand with
    | null => exact Act.hasFault_pure _
    | array | object => exact Act.hasFault_fail _
    | bool | number | string => exact hcompare _
  | gt | ge | lt | le | like =>
    cases operand with
    | null | array | object => exact Act.hasFault_fail _
    | bool | number | string => exact hcompare _

/-! ### Faults of searches -/

theorem rowFilter_hasFault (hc : c.IsMade) (s : Search) :
    (c.rowFilter s).HasFault (((s.conditionsIn .and).map SearchItem.condition
      ++ (s.conditionsIn .or).map SearchItem.condition).findSome? c.fault) := by
  have hblock := fun block => Act.hasFault_mapM (s.conditionsIn block)
    fun cond _ => predicate_hasFault hc cond
  rw [List.findSome?_append, List.findSome?_map, List.findSome?_map]
  exact (hblock .and).bind fun _ all _ _ => (hblock .or).map _

/-- The columns of the primary key can be named. -/
theorem keyColumns_eq (hc : c.IsMade) :
    c.keyColumns = .ok (c.schema.keys.map fun key => ⟨.column searchedAlias key, key, true⟩) := by
  have hkeys : ∀ key ∈ c.schema.keys, Identifier.isValid key = true :=
    fun key hkey => hc.schema.isValid (Schema.contains_of_mem_keys hkey)
  rw [keyColumns]
  generalize c.schema.keys = keys at hkeys
  induction keys with
  | nil => rfl
  | cons key rest ih =>
    obtain ⟨hkey, hrest⟩ := List.forall_mem_cons.1 hkeys
    rw [List.mapM_cons, ih hrest, Expr.ofNames_of_isValid searchedAlias_isValid hkey]
    rfl

/-- The primary key consists of properties. -/
theorem contains_keyLabel : ∀ key ∈ c.schema.keys.map fun key =>
    (⟨.column searchedAlias key, key, true⟩ : Column), c.schema.contains key.label = true := by
  intro key hkey
  obtain ⟨name, hname, rfl⟩ := List.mem_map.1 hkey
  exact Schema.contains_of_mem_keys hname

theorem selectList_hasFault (hc : c.IsMade) {keys : List Column}
    (hkeys : ∀ key ∈ keys, c.schema.contains key.label = true) (groups : List Column)
    (selection : Option (List String)) :
    (c.selectList keys groups selection).HasFault
      (((selection.getD []).map .attr).findSome? c.fault) := by
  cases selection with
  | none => exact Act.hasFault_pure _
  | some attrs =>
    -- Keys that are not selected are properties, so nothing is wrong with them.
    have hmissing : ((keys.filter fun key => !attrs.contains key.label).mapM
        (c.resolve ·.label)).HasFault none := by
      have h := Act.hasFault_mapM (keys.filter fun key => !attrs.contains key.label)
        fun key _ => resolve_hasFault hc key.label
      rwa [List.findSome?_eq_none_iff.2] at h
      intro key hkey
      exact (attributeFault_eq_none_iff hc _).2 (.property (hkeys key (List.mem_of_mem_filter hkey)))
    have hselected := Act.hasFault_mapM attrs fun attr _ => resolve_hasFault hc attr
    rw [Option.getD_some, List.findSome?_map]
    exact (hmissing.then fun _ => hselected.map _).map _

theorem selectStatement_hasFault (hc : c.IsMade) (s : Search) :
    (c.selectStatement s).HasFault (s.items.findSome? c.fault) := by
  have hpaging : (Act.ofExcept (s.paging.resolve c.limits) : Act Compilation (Option Page)).HasFault
      (c.fault (.paging s.paging)) := by
    rw [fault]
    rcases s.paging.resolve c.limits with e | page
    · exact Act.hasFault_fail e
    · exact Act.hasFault_pure page
  have hgroups := Act.hasFault_mapM s.groups fun attr _ => resolve_hasFault hc attr
  have horder := Act.hasFault_mapM s.order fun o _ =>
    (resolve_hasFault hc o.attr).map fun column => (column.expr, o.direction)
  have hitems : s.items.findSome? c.fault = (c.fault (.paging s.paging)).or
      ((s.groups.findSome? c.attributeFault).or
        ((((s.selection.getD []).map .attr).findSome? c.fault).or
          ((((s.conditionsIn .and).map SearchItem.condition
            ++ (s.conditionsIn .or).map SearchItem.condition).findSome? c.fault).or
            (s.order.findSome? fun o : SortKey => c.attributeFault o.attr)))) := by
    rw [Search.items, List.findSome?_cons]
    rcases c.fault (.paging s.paging) with _ | e
    · simp only [List.findSome?_append, Option.or_assoc, Option.none_or, List.findSome?_map]
      rfl
    · rfl
  rw [hitems, selectStatement, keyColumns_eq hc]
  refine hpaging.bind fun _ limit _ _ => ?_
  refine Act.hasFault_ok_bind ?_
  refine hgroups.bind fun _ groups _ _ => ?_
  refine (selectList_hasFault hc contains_keyLabel groups s.selection).bind fun _ selected _ _ => ?_
  refine (rowFilter_hasFault hc s).bind fun _ filter _ _ => ?_
  rw [← Option.or_none (o := s.order.findSome? _)]
  exact horder.bind fun _ orderBy _ _ => Act.hasFault_read_bind fun ctx _ => Act.hasFault_pure _

theorem countStatement_hasFault (hc : c.IsMade) (s : Search) :
    (c.countStatement s).HasFault (((s.conditionsIn .and).map SearchItem.condition
      ++ (s.conditionsIn .or).map SearchItem.condition).findSome? c.fault) := by
  rw [countStatement, keyColumns_eq hc]
  refine Act.hasFault_ok_bind ?_
  rw [← Option.or_none (o := List.findSome? _ _)]
  exact (rowFilter_hasFault hc s).bind fun _ filter _ _ =>
    Act.hasFault_read_bind fun ctx _ => Act.hasFault_pure _

/-- A compilation without a fault succeeds, and one with a fault fails with it. -/
theorem finish_of_hasFault {statement : Type} (groups : List String)
    {act : Act Compilation (statement × List Column)} {fault : Option StoreError}
    (h : act.HasFault fault) :
    ((∃ q, finish groups act = .ok q) ↔ fault = none) ∧
      ∀ e, fault = some e → finish groups act = .error e := by
  have hrun := h { tableAlias := searchedAlias } rfl
  rw [finish]
  rcases hact : act.perform { tableAlias := searchedAlias } with ⟨err | ⟨a, keys⟩, ctx⟩ <;>
    rw [hact] at hrun
  · subst hrun
    simp
  · simp [hrun.1]

/-! ### Accepted searches -/

theorem accepts_iff_items {s : Search} : c.Accepts s ↔ ∀ item ∈ s.items, c.Admits item := by
  have hconditions : ∀ P : Condition → Prop, (∀ cond ∈ s.conditions, P cond) ↔
      (∀ cond ∈ s.conditionsIn .and, P cond) ∧ ∀ cond ∈ s.conditionsIn .or, P cond := by
    intro P
    simp only [Search.mem_conditions_iff, or_imp, forall_and]
  have hknown := hconditions fun cond => c.Knows cond.attr
  have htakes := hconditions fun cond => cond.operator.Takes cond.operand
  simp only [Search.items, List.forall_mem_cons, List.forall_mem_append, List.forall_mem_map,
    Admits, forall_and]
  constructor
  · intro h
    have hattr := h.attributes
    simp only [Search.attributes, List.forall_mem_append, List.forall_mem_map] at hattr
    obtain ⟨⟨⟨hgroups, hselection⟩, hcond⟩, horder⟩ := hattr
    obtain ⟨hand, hor⟩ := hknown.1 hcond
    obtain ⟨hand', hor'⟩ := htakes.1 h.operands
    exact ⟨h.paging, ⟨⟨⟨hgroups, hselection⟩, hand, hand'⟩, hor, hor'⟩, horder⟩
  · rintro ⟨hpaging, ⟨⟨⟨hgroups, hselection⟩, hand, hand'⟩, hor, hor'⟩, horder⟩
    refine ⟨hpaging, ?_, htakes.2 ⟨hand', hor'⟩⟩
    simp only [Search.attributes, List.forall_mem_append, List.forall_mem_map]
    exact ⟨⟨⟨hgroups, hselection⟩, hknown.2 ⟨hand, hor⟩⟩, horder⟩

theorem Knows.count_dot_le (hc : c.IsMade) {attr : String} (h : c.Knows attr) :
    attr.toList.count '.' ≤ 1 := by
  have hnone : ∀ {name : String}, Identifier.isValid name = true → name.toList.count '.' = 0 :=
    fun hname => List.count_eq_zero.2 (Identifier.notMem_dot hname)
  cases h with
  | property hproperty => rw [hnone (hc.schema.isValid hproperty)]; exact Nat.zero_le 1
  | @joined f hf =>
    have hname := (hc.built.filters _ hf).isValid
    rw [JoinFilter.name] at hname
    rw [hnone hname]
    exact Nat.zero_le 1
  | @sub f sub hf hsub =>
    have hname := hnone (hc.built.filters _ hf).isValid
    have hsub := hnone ((hc.filters f hf).isValid hsub)
    simp [String.toList_append, hname, hsub]

/-- A search compiles exactly if it is accepted, which none is with an attribute of two dots or
    more. Otherwise compiling fails with what is wrong with the first item that is not admitted. -/
theorem compile_ok_iff_accepts (hc : c.IsMade) (s : Search) :
    ((∃ q, c.compile s = .ok q) ↔ c.Accepts s) ∧
    (¬ c.Accepts s → ∃ admitted item rest e, s.items = admitted ++ item :: rest ∧
      (∀ i ∈ admitted, c.Admits i) ∧ ¬ c.Admits item ∧ c.fault item = some e ∧
        c.compile s = .error e ∧ e.isConfiguration = true) ∧
    ∀ attr ∈ s.attributes, 2 ≤ attr.toList.count '.' → ∀ q, c.compile s ≠ .ok q := by
  obtain ⟨hok, herror⟩ := finish_of_hasFault s.groups (selectStatement_hasFault hc s)
  have haccepts : s.items.findSome? c.fault = none ↔ c.Accepts s := by
    rw [accepts_iff_items, List.findSome?_eq_none_iff]
    exact forall₂_congr fun item _ => fault_eq_none_iff hc item
  have hiff : (∃ q, c.compile s = .ok q) ↔ c.Accepts s := hok.trans haccepts
  refine ⟨hiff, fun hnot => ?_, fun attr hattr hdots q hq => ?_⟩
  · obtain ⟨e, hfault⟩ := Option.ne_none_iff_exists'.1 (haccepts.not.2 hnot)
    obtain ⟨admitted, item, rest, hitems, hitem, hbefore⟩ := List.findSome?_eq_some_iff.1 hfault
    refine ⟨admitted, item, rest, e, hitems, fun i hi => ?_, ?_, hitem, herror e hfault,
      fault_isConfiguration hitem⟩
    · exact (fault_eq_none_iff hc i).1 (hbefore i hi)
    · rw [← fault_eq_none_iff hc, hitem]
      exact Option.some_ne_none e
  · have hknown := (hiff.1 ⟨q, hq⟩).attributes attr hattr
    exact absurd (hdots.trans (hknown.count_dot_le hc)) (by decide)

/-- Blue products at a price, in the order of their vendors. -/
def dearBlue : Search :=
  ((({} : Search).require "price.amount" .gt (.int 100)).allowEq "color.value"
    (.string "blue")).sortBy "vendor.name" .asc

/-- Not a search in the end: alternatives are looked at after what is required, wherever they stand,
    and what to sort by comes last. -/
def muddled : Search :=
  ((({} : Search).allow "status" .like .null).requireEq "vendor.name.first" (.string "A")).sortBy
    "colour" .desc

theorem products_accepts_dearBlue : products.Accepts dearBlue ∧ ¬ products.Accepts muddled ∧
    products.compile muddled = .error (.nestingTooDeep "vendor.name.first") := by
  obtain ⟨haccepts, -, -⟩ := compile_ok_iff_accepts products_isMade dearBlue
  obtain ⟨-, -, hdots⟩ := compile_ok_iff_accepts products_isMade muddled
  have hdeep : "vendor.name.first" ∈ muddled.attributes := by decide +kernel
  refine ⟨haccepts.1 ⟨_, rfl⟩, fun hnot => ?_, rfl⟩
  obtain ⟨q, hq⟩ := (compile_ok_iff_accepts products_isMade muddled).1.2 hnot
  exact hdots _ hdeep (by decide +kernel) q hq

end QueryCompiler

end RecordStore
