import RecordStore.Proofs.Search.Joining
import RecordStore.Proofs.Search.Meaning

/-!
# Searches and their counts

A search that compiles has a count that compiles, and their texts agree (`CountAgrees`,
`QueryCompiler.compileCount_agrees`): with the bound values in the place of their placeholders, they
have the same condition, and the joins of the count are those joins of the search whose filters a
condition means. Without such a join the count counts rows; with one, distinct keys.

The count binds its values in another order, and gives them other numbers. What a predicate or a
join reads like, once its values are in their places, depends on its condition or its filter only
(`Poses.bindTokens_eq`, `ForeignFilter.Joins.bindTokens_eq`).
-/

namespace RecordStore

/-- What the text of a count counts in a row source: its rows, or the distinct values of columns. -/
inductive Counts (source : List (Token Nat)) : Option (List Expr) → List (Token Nat) → Prop
  | rows : Counts source none ([.word "SELECT", .word "count", .mark '(', .word "*", .mark ')',
      .word "AS", .word "total", .word "FROM"] ++ source)
  | column (key : Expr) : Counts source (some [key]) ([.word "SELECT", .word "count", .mark '(',
      .word "DISTINCT", key.token, .mark ')', .word "AS", .word "total", .word "FROM"] ++ source)
  | columns (key key' : Expr) (keys : List Expr) : Counts source (some (key :: key' :: keys))
      ([.word "SELECT", .word "count", .mark '(', .word "*", .mark ')', .word "AS", .word "total",
        .word "FROM", .mark '(', .word "SELECT", .word "DISTINCT"]
      ++ exprTokens (key :: key' :: keys) ++ [.word "FROM"] ++ source ++ [.mark ')'])

/-- The searched table with the joins and the condition of a text. -/
def rowSourceOf (table : String) (ts : List (Token Nat)) : List (Token Nat) :=
  [.word table, .word "AS", .word searchedAlias] ++ (joinsOf ts).flatten
    ++ ((conditionOf ts).map (.word "WHERE" :: ·)).getD []

/-- The join is that of a filter which a condition of the search means. -/
def QueryCompiler.NeedsJoin (c : QueryCompiler) (s : Search) (join : List (Token Nat)) : Prop :=
  ∃ f, .foreign f ∈ c.filters ∧ f.IsJoinedBy join ∧ ∃ cond ∈ s.conditions, f.IsMeantBy cond.attr

/-- The text of the count of a search agrees with that of the search. -/
structure CountAgrees (c : QueryCompiler) (s : Search) (q : Query SelectStatement)
    (q' : Query CountStatement) : Prop where
  condition : (conditionOf (tokensOf q'.statement.sql)).map (bindTokens q'.values) =
    (conditionOf (tokensOf q.statement.sql)).map (bindTokens q.values)
  /-- The joins of the count are those of the search that a condition needs. -/
  joins : ∀ ts, ts ∈ (joinsOf (tokensOf q'.statement.sql)).map (bindTokens q'.values) ↔
    ∃ join ∈ joinsOf (tokensOf q.statement.sql), c.NeedsJoin s join ∧ ts = bindTokens q.values join
  /-- If no join is needed, the rows of the table are counted. -/
  rows : (∀ join ∈ joinsOf (tokensOf q.statement.sql), ¬ c.NeedsJoin s join) →
    Counts (rowSourceOf c.table (tokensOf q'.statement.sql)) none (tokensOf q'.statement.sql)
  /-- Otherwise, distinct primary keys are. -/
  keys : (∃ join ∈ joinsOf (tokensOf q.statement.sql), c.NeedsJoin s join) →
    Counts (rowSourceOf c.table (tokensOf q'.statement.sql))
      (some (c.schema.keys.map (.column searchedAlias))) (tokensOf q'.statement.sql)

variable {α β γ : Type} {c : QueryCompiler} {values values' : List Param}

/-! ### Values in their places -/

theorem map_eq_of_forall₂ {R S : α → β → Prop} {as : List α} {bs bs' : List β}
    (h : List.Forall₂ R as bs) (h' : List.Forall₂ S as bs') {f g : β → γ}
    (hfg : ∀ ⦃a b b'⦄, R a b → S a b' → f b = g b') : bs.map f = bs'.map g := by
  induction h generalizing bs' with
  | nil =>
    cases h'
    rfl
  | cons hab _ ih =>
    cases h' with
    | cons hab' h' => rw [List.map_cons, List.map_cons, hfg hab hab', ih h']

theorem valueAt_eq {slot slot' : Nat} {operand : Value} (h : Holds values slot operand)
    (h' : Holds values' slot' operand) : valueAt values slot = valueAt values' slot' := by
  rw [valueAt_of_holds h, valueAt_of_holds h']

/-- Predicates that compare a column with one operand are the same but for the numbers. -/
theorem Operator.Compares.bindTokens_eq {operator : Operator} {operand : Value} {e : Expr}
    {p p' : Predicate} (h : operator.Compares values e operand p)
    (h' : operator.Compares values' e operand p') :
    bindTokens values p.tokens = bindTokens values' p'.tokens := by
  -- Operator and operand decide what the predicate looks like, so mixed cases cannot be.
  cases h with
  | isNull =>
    cases h' with
    | isNull => simp [bindTokens, Predicate.tokens]
    | compare _ hoperand => exact hoperand.elim
  | isNotNull =>
    cases h' with
    | isNotNull => simp [bindTokens, Predicate.tokens]
    | compare _ hoperand => exact hoperand.elim
  | never =>
    cases h' with
    | never => rfl
    | isIn hoperands => exact absurd rfl hoperands
    | compare _ hoperand => exact hoperand.elim
  | isIn hoperands h =>
    cases h' with
    | never => exact absurd rfl hoperands
    | isIn _ h' =>
      have hslots := map_eq_of_forall₂ h h' fun _ _ _ h h' => congrArg Token.slot (valueAt_eq h h')
      rw [Predicate.bindTokens_isIn, Predicate.bindTokens_isIn, hslots]
    | compare _ hoperand => exact hoperand.elim
  | compare hoperator hoperand h =>
    cases h' with
    | isNull | isNotNull => exact hoperand.elim
    | never | isIn => exact absurd rfl hoperator
    | compare _ _ h' =>
      simp [bindTokens, Predicate.tokens, valueAt_eq h h']

theorem ForeignFilter.Joins.bindTokens_eq {f : ForeignFilter} {join join' : Join}
    (h : f.Joins values join) (h' : f.Joins values' join') :
    bindTokens values join.tokens = bindTokens values' join'.tokens := by
  obtain ⟨placed, rfl, hplaced⟩ := h
  obtain ⟨placed', rfl, hplaced'⟩ := h'
  generalize f.discriminator = d at hplaced hplaced'
  cases hplaced with
  | none =>
    cases hplaced'
    rfl
  | @some p d hp =>
    cases hplaced' with
    | @some p' _ hp' =>
      obtain ⟨e, slot⟩ := p
      obtain ⟨e', slot'⟩ := p'
      obtain ⟨rfl, hvalue⟩ := hp
      obtain ⟨rfl, hvalue'⟩ := hp'
      simp only [bindTokens, Join.tokens, clause, List.map_append, List.map_cons, Token.map_slot,
        valueAt_eq hvalue hvalue']
      rfl

namespace QueryCompiler

theorem Poses.bindTokens_eq {cond : Condition} {p p' : Predicate} (h : c.Poses values cond p)
    (h' : c.Poses values' cond p') :
    bindTokens values p.tokens = bindTokens values' p'.tokens := by
  obtain ⟨e, he, h⟩ := h
  obtain ⟨e', he', h'⟩ := h'
  cases he.symm.trans he'
  exact h.bindTokens_eq h'

theorem bindTokens_block (word : String) {conds : List Condition} {ps ps' : List Predicate}
    (h : List.Forall₂ (c.Poses values) conds ps) (h' : List.Forall₂ (c.Poses values') conds ps') :
    (RowFilter.blockTokens word ps).map (bindTokens values) =
      (RowFilter.blockTokens word ps').map (bindTokens values') := by
  have htokens : ∀ (values : List Param) (ps : List Predicate),
      (RowFilter.blockTokens word ps).map (bindTokens values) =
        if (ps.map fun p => bindTokens values p.tokens).isEmpty then none
        else some ([.mark '('] ++ [.word word].intercalate
          (ps.map fun p => bindTokens values p.tokens) ++ [.mark ')']) := by
    intro values ps
    rw [RowFilter.blockTokens, List.isEmpty_map]
    split
    · rfl
    · rw [Option.map_some, bindTokens, List.map_append, List.map_append, map_intercalate,
        List.map_map]
      rfl
  rw [htokens, htokens, map_eq_of_forall₂ h h' fun _ _ _ => Poses.bindTokens_eq]

/-- The conditions of two statements for one search are the same but for the numbers. -/
theorem Fits.bindTokens_eq {s : Search} {ctx ctx' : Compilation} {joins joins' : List Join}
    {filter filter' : RowFilter} (h : Fits c s ctx joins filter)
    (h' : Fits c s ctx' joins' filter') :
    filter.tokens?.map (bindTokens ctx.binder.params) =
      filter'.tokens?.map (bindTokens ctx'.binder.params) := by
  have htokens : ∀ (values : List Param) (filter : RowFilter),
      filter.tokens?.map (bindTokens values) =
        Option.merge (fun a o => a ++ [.word "OR"] ++ o)
          ((RowFilter.blockTokens "AND" filter.all).map (bindTokens values))
          ((RowFilter.blockTokens "OR" filter.any).map (bindTokens values)) := by
    intro values filter
    rw [RowFilter.tokens?]
    rcases RowFilter.blockTokens "AND" filter.all with _ | a <;>
      rcases RowFilter.blockTokens "OR" filter.any with _ | o <;> simp [Option.merge, bindTokens]
  rw [htokens, htokens, bindTokens_block "AND" h.all h'.all, bindTokens_block "OR" h.any h'.any]

/-! ### Joins of a count -/

/-- Of the filters that a compiler has, only the one that was joined has this join. -/
theorem Built.eq_of_isJoinedBy (hc : c.Built) {f g : ForeignFilter} (hf : .foreign f ∈ c.filters)
    (hg : .foreign g ∈ c.filters) {ts : List (Token Nat)} (hfts : f.IsJoinedBy ts)
    (hgts : g.IsJoinedBy ts) : f = g := by
  obtain ⟨_, rfl, -⟩ := hfts
  obtain ⟨_, hgts, -⟩ := hgts
  simp only [List.cons_append, List.cons.injEq, Token.word.injEq] at hgts
  have hname : f.name = g.name := (String.append_right_inj _).1 hgts.2.2.2.2.1
  cases List.inj_on_of_nodup_map hc.distinct.1 hf hg hname
  rfl

/-- The joins for some attributes are, but for the numbers, those joins for more of them whose
    filters the fewer mean. -/
theorem Fits.mem_boundJoins_iff (hc : c.IsMade) {s : Search} {ctx ctx' : Compilation}
    {joins joins' : List Join} {filter filter' : RowFilter} {es es' : List Expr}
    (h : Fits c s ctx joins filter) (h' : Fits c s ctx' joins' filter')
    (hjoined : JoinedFor c s.attributes { tableAlias := searchedAlias } ctx es)
    (hjoined' : JoinedFor c (s.conditions.map (·.attr)) { tableAlias := searchedAlias } ctx' es')
    (ts : List (Token (Option Param))) :
    ts ∈ joins'.map (fun join => bindTokens ctx'.binder.params join.tokens) ↔
      ∃ join ∈ joins, c.NeedsJoin s join.tokens ∧ ts = bindTokens ctx.binder.params join.tokens := by
  obtain ⟨fs, -, hmeant, hjoins⟩ := h.meant hc hjoined
  obtain ⟨fs', -, hmeant', hjoins'⟩ := h'.meant hc hjoined'
  constructor
  · intro hts
    obtain ⟨join', hjoin', rfl⟩ := List.mem_map.1 hts
    obtain ⟨f, hf, hfj'⟩ := forall₂_exists_of_mem hjoins' join' hjoin'
    obtain ⟨hforeign, attr, hattr, hmeans⟩ := (hmeant' f).1 hf
    obtain ⟨cond, hcond, rfl⟩ := List.mem_map.1 hattr
    have hall : cond.attr ∈ s.attributes := by
      simp only [Search.attributes, List.mem_append]
      exact .inl (.inr hattr)
    obtain ⟨join, hjoin, hfj⟩ :=
      forall₂_exists_of_mem hjoins.flip f ((hmeant f).2 ⟨hforeign, _, hall, hmeans⟩)
    exact ⟨join, hjoin, ⟨f, hforeign, (tokens_of_joins hfj).1, cond, hcond, hmeans⟩,
      hfj'.bindTokens_eq hfj⟩
  · rintro ⟨join, hjoin, ⟨f, hforeign, hfts, cond, hcond, hmeans⟩, rfl⟩
    -- The filter that is meant is the one whose join this is.
    obtain ⟨g, hg, hgj⟩ := forall₂_exists_of_mem hjoins join hjoin
    obtain rfl : f = g := hc.built.eq_of_isJoinedBy hforeign ((hmeant g).1 hg).1 hfts
      (tokens_of_joins hgj).1
    have hf : f ∈ fs' := (hmeant' f).2 ⟨hforeign, _, List.mem_map_of_mem hcond, hmeans⟩
    obtain ⟨join', hjoin', hfj'⟩ := forall₂_exists_of_mem hjoins'.flip f hf
    rw [hgj.bindTokens_eq hfj']
    exact List.mem_map_of_mem hjoin'

/-! ### Counts -/

/-- Rows are counted if there are no joins, and distinct keys otherwise. -/
theorem counts_tokens {statement : CountStatement} (hkeys : statement.keys ≠ []) :
    Counts (sourceTokens statement.table statement.joins statement.filter)
      (if statement.joins = [] then none else some statement.keys) statement.tokens := by
  rw [CountStatement.tokens]
  generalize statement.joins = joins, statement.keys = keys at hkeys ⊢
  rcases joins with _ | ⟨join, joins⟩
  · have hclose : CountStatement.closeTokens [] keys = [] := rfl
    rw [hclose, List.append_nil, if_pos rfl]
    exact .rows
  · rw [if_neg (List.cons_ne_nil _ _)]
    rcases keys with _ | ⟨key, _ | ⟨key', keys⟩⟩
    · exact absurd rfl hkeys
    · have hclose : CountStatement.closeTokens (join :: joins) [key] = [] := rfl
      rw [hclose, List.append_nil]
      exact .column key
    · exact .columns key key' keys

/-- The conditions of a search that compiles are right for its count, too. -/
theorem compileCount_of_compile (hc : c.IsMade) {s : Search} {q : Query SelectStatement}
    (hq : c.compile s = .ok q) : ∃ q', c.compileCount s = .ok q' := by
  have hitems := (finish_of_hasFault s.groups (selectStatement_hasFault hc s)).1.1 ⟨q, hq⟩
  refine (finish_of_hasFault [] (countStatement_hasFault hc s)).1.2 ?_
  rw [List.findSome?_eq_none_iff] at hitems ⊢
  intro item hitem
  refine hitems item ?_
  simp only [Search.items, List.mem_cons, List.mem_append] at hitem ⊢
  tauto

/-- A search that compiles has a count, which agrees with it: on the condition, and on the joins that
    the condition needs. -/
theorem compileCount_agrees (hc : c.IsMade) {s : Search} {q : Query SelectStatement}
    (hq : c.compile s = .ok q) : ∃ q', c.compileCount s = .ok q' ∧ CountAgrees c s q q' := by
  obtain ⟨q', hq'⟩ := compileCount_of_compile hc hq
  obtain ⟨_, ctx, hrun, hvalues⟩ := finish_eq_ok hq
  obtain ⟨_, ctx', hrun', hvalues'⟩ := finish_eq_ok hq'
  obtain ⟨-, hfits⟩ := selectStatement_fits hc.built numbered_start hrun
  obtain ⟨hnamed', hfits'⟩ := countStatement_fits hc.built numbered_start hrun'
  obtain ⟨-, hjoined⟩ := selectStatement_joins hc rfl hrun
  obtain ⟨htable, hkeys, hjoined'⟩ := countStatement_joins hc rfl hrun'
  obtain ⟨hjoins, hcondition⟩ := clauses_of_compile hc.built hq
  obtain ⟨hjoins', hcondition'⟩ := hnamed'.clauses
  rw [← hnamed'.lexes.tokensOf] at hjoins' hcondition'
  have hbound : ∀ ts, ts ∈ (joinsOf (tokensOf q'.statement.sql)).map (bindTokens q'.values) ↔
      ∃ join ∈ joinsOf (tokensOf q.statement.sql), c.NeedsJoin s join ∧
        ts = bindTokens q.values join := by
    intro ts
    have hmem := hfits.mem_boundJoins_iff hc hfits' hjoined hjoined' ts
    rw [← hvalues, ← hvalues'] at hmem
    rw [hjoins, hjoins', List.map_map]
    simpa only [List.mem_map, exists_exists_and_eq_and, Function.comp_apply] using hmem
  have hnonempty : q'.statement.keys ≠ [] := by
    rw [hkeys, ne_eq, List.map_eq_nil_iff]
    exact hc.built.keys_ne_nil
  have hsource : sourceTokens c.table q'.statement.joins q'.statement.filter =
      rowSourceOf c.table (tokensOf q'.statement.sql) := by
    rw [rowSourceOf, hjoins', hcondition', ← List.flatMap_def]
    rfl
  have hcounts := counts_tokens hnonempty
  rw [← hnamed'.lexes.tokensOf, htable, hsource, hkeys] at hcounts
  refine ⟨q', hq', ?_, hbound, fun hnone => ?_, ?_⟩
  · rw [hcondition, hcondition', hvalues, hvalues']
    exact hfits'.bindTokens_eq hfits
  · have hempty : q'.statement.joins = [] := by
      rw [← List.map_eq_nil_iff, ← hjoins', ← List.map_eq_nil_iff, List.eq_nil_iff_forall_not_mem]
      intro ts hts
      obtain ⟨join, hjoin, hneeds, -⟩ := (hbound ts).1 hts
      exact hnone join hjoin hneeds
    rwa [if_pos hempty] at hcounts
  · rintro ⟨join, hjoin, hneeds⟩
    have hmem := (hbound _).2 ⟨join, hjoin, hneeds, rfl⟩
    have hsome : q'.statement.joins ≠ [] := by
      intro hempty
      rw [hjoins', hempty] at hmem
      cases hmem
    rwa [if_neg hsome] at hcounts

/-- Blue products above a price, by color and in the order of their vendors. -/
def blueByColor : Search := dearBlue.groupBy ["color.value"]

theorem products_counts_blueByColor : ∃ q q', products.compile blueByColor = .ok q ∧
    products.compileCount blueByColor = .ok q' ∧ CountAgrees products blueByColor q q' ∧
    conditionOf (tokensOf q.statement.sql) =
      some (tokensOf "(e.price_amount > ?2) OR (j_color.value = ?3)") ∧
    (joinsOf (tokensOf q.statement.sql)).length = 2 ∧
    q'.statement.sql = "SELECT count(*) AS total FROM (SELECT DISTINCT e.shop, e.sku FROM product"
      ++ " AS e INNER JOIN trait AS j_color ON j_color.product_sku = e.sku AND j_color.kind = ?2"
      ++ " WHERE (e.price_amount > ?1) OR (j_color.value = ?3))" := by
  have hcompiles : ∃ q, products.compile blueByColor = .ok q ∧
      q.statement.filter.tokens? = some (tokensOf "(e.price_amount > ?2) OR (j_color.value = ?3)") ∧
      q.statement.joins.length = 2 := ⟨_, rfl, by decide +kernel, by decide +kernel⟩
  obtain ⟨q, hq, hfilter, hlength⟩ := hcompiles
  obtain ⟨q', hq', hagrees⟩ := compileCount_agrees products_isMade hq
  obtain ⟨hjoins, hcondition⟩ := clauses_of_compile products_isMade.built hq
  refine ⟨q, q', hq, hq', hagrees, hcondition.trans hfilter, ?_, ?_⟩
  · rw [hjoins, List.length_map, hlength]
  · cases hq'
    decide +kernel

end QueryCompiler

end RecordStore
