import RecordStore.Proofs.Search.StatementTokens

/-!
# The columns in a statement

The columns among the tokens of a statement are those of its parts, in the order of the text
(`SelectStatement.IsNamed.columnsIn_tokens`, `CountStatement.IsNamed.columnsIn_tokens`): there are no
others, wherever in the statement one looks.
-/

namespace RecordStore

variable {α : Type}

/-! ### Columns among tokens -/

/-- The column that a token is. -/
def Token.expr? : Token α → Option Expr
  | column qualifier name => some (.column qualifier name)
  | _ => none

section NoColumns

variable (text : String) (a : α) (c : Char)

@[simp]
theorem Token.expr?_word : (word text : Token α).expr? = none := rfl

@[simp]
theorem Token.expr?_sign : (sign text : Token α).expr? = none := rfl

@[simp]
theorem Token.expr?_slot : (slot a).expr? = none := rfl

@[simp]
theorem Token.expr?_mark : (mark c : Token α).expr? = none := rfl

end NoColumns

/-- The columns among tokens, in their order. -/
def columnsIn (ts : List (Token α)) : List Expr := ts.filterMap Token.expr?

@[simp]
theorem columnsIn_nil : columnsIn ([] : List (Token α)) = [] := rfl

@[simp]
theorem columnsIn_cons (t : Token α) (ts : List (Token α)) :
    columnsIn (t :: ts) = t.expr?.toList ++ columnsIn ts := by
  rw [columnsIn, List.filterMap_cons, columnsIn]
  cases t.expr? <;> rfl

@[simp]
theorem columnsIn_append (ts us : List (Token α)) :
    columnsIn (ts ++ us) = columnsIn ts ++ columnsIn us := List.filterMap_append

theorem columnsIn_flatMap {β : Type} {tokens : β → List (Token α)} {exprs : β → List Expr}
    {bs : List β} (h : ∀ b ∈ bs, columnsIn (tokens b) = exprs b) :
    columnsIn (bs.flatMap tokens) = bs.flatMap exprs := by
  rw [columnsIn, List.filterMap_flatMap]
  exact List.flatMap_congr h

/-- Commas and connectives are no columns. -/
theorem columnsIn_intercalate {β : Type} {sep : Token α} (hsep : sep.expr? = none)
    {tokens : β → List (Token α)} (exprs : β → List Expr) {bs : List β}
    (h : ∀ b ∈ bs, columnsIn (tokens b) = exprs b) :
    columnsIn ([sep].intercalate (bs.map tokens)) = bs.flatMap exprs := by
  cases bs with
  | nil => rfl
  | cons b bs =>
    obtain ⟨hb, hbs⟩ := List.forall_mem_cons.1 h
    rw [List.map_cons, intercalate_cons, columnsIn_append, hb, List.flatMap_cons, List.flatMap_map]
    congr 1
    refine columnsIn_flatMap fun b hmem => ?_
    rw [columnsIn_append, hbs b hmem, columnsIn_cons, hsep]
    rfl

theorem Expr.IsNamed.token_expr? {e : Expr} (h : e.IsNamed) :
    (e.token : Token α).expr? = some e := by
  obtain ⟨tableAlias, name, rfl, -, -⟩ := h
  rfl

/-! ### Columns of the parts -/

/-- The columns of an item. -/
def SelectItem.exprs : SelectItem → List Expr
  | everything => [.column searchedAlias "*"]
  | column c => [c.expr]

/-- The columns of a join. -/
def Join.exprs : Join → List Expr
  | table j => j.target :: j.entity :: (j.discriminator.map (·.1)).toList
  | text _ => []

/-- The columns of a predicate. -/
def Predicate.exprs : Predicate → List Expr
  | isNull e | isNotNull e | isIn e _ | compare e _ _ => [e]
  | never => []

/-- The columns of a condition. -/
def RowFilter.exprs (f : RowFilter) : List Expr :=
  f.all.flatMap (·.exprs) ++ f.any.flatMap (·.exprs)

theorem SelectItem.IsNamed.columnsIn_tokens {item : SelectItem} (h : item.IsNamed) :
    columnsIn item.tokens = item.exprs := by
  cases item with
  | everything => rfl
  | column c =>
    have hlabel : (c.labelToken : Token Nat).expr? = none := by
      rw [Column.labelToken]
      split <;> rfl
    simp [tokens, exprs, Column.tokens, hlabel, h.expr.token_expr?]

theorem Join.IsNamed.columnsIn_tokens {j : Join} (h : j.IsNamed) : columnsIn j.tokens = j.exprs := by
  cases j with
  | text => exact h.elim
  | table j =>
    obtain ⟨-, -, htarget, hentity, hdiscriminator⟩ := h
    rw [tokens, exprs, columnsIn_append]
    rcases hd : j.discriminator with _ | ⟨column, slot⟩
    · simp [htarget.token_expr?, hentity.token_expr?]
    · have hcolumn : column.IsNamed := hdiscriminator _ hd
      simp [htarget.token_expr?, hentity.token_expr?, hcolumn.token_expr?]

theorem Operator.token_expr? (operator : Operator) : (operator.token : Token α).expr? = none := by
  cases operator <;> rfl

theorem Predicate.IsNamed.columnsIn_tokens {p : Predicate} (h : p.IsNamed) :
    columnsIn p.tokens = p.exprs := by
  cases p with
  | isNull e | isNotNull e =>
    simp [tokens, exprs, Expr.IsNamed.token_expr? h]
  | never => rfl
  | isIn e slots =>
    have hlist : columnsIn ([.mark ','].intercalate (slots.map fun slot => [Token.slot slot])) = [] := by
      rw [columnsIn_intercalate rfl (fun _ => []) fun _ _ => rfl]
      simp
    rw [tokens, columnsIn_append, columnsIn_append, hlist]
    simp [exprs, Expr.IsNamed.token_expr? h]
  | compare e operator slot =>
    simp [tokens, exprs, Expr.IsNamed.token_expr? h, operator.token_expr?]

namespace RowFilter

theorem columnsIn_blockTokens (word : String) {ps : List Predicate} (h : ∀ p ∈ ps, p.IsNamed) :
    ((blockTokens word ps).map columnsIn).getD [] = ps.flatMap (·.exprs) := by
  rw [blockTokens]
  split
  next hempty =>
    rw [List.isEmpty_iff.1 hempty]
    rfl
  next =>
    have hword : (.word word : Token Nat).expr? = none := rfl
    have hrow := columnsIn_intercalate hword _ fun p hp => (h p hp).columnsIn_tokens
    simp [hrow]

theorem IsNamed.columnsIn_clauseTokens {f : RowFilter} (h : f.IsNamed) :
    columnsIn f.clauseTokens = f.exprs := by
  have hall := columnsIn_blockTokens "AND" h.all
  have hany := columnsIn_blockTokens "OR" h.any
  rw [clauseTokens, tokens?, exprs, ← hall, ← hany]
  rcases blockTokens "AND" f.all with _ | a <;> rcases blockTokens "OR" f.any with _ | o <;>
    simp

end RowFilter

theorem columnsIn_sourceTokens (table : String) {joins : List Join} {filter : RowFilter}
    (hjoins : ∀ join ∈ joins, join.IsNamed) (hfilter : filter.IsNamed) :
    columnsIn (sourceTokens table joins filter) = joins.flatMap (·.exprs) ++ filter.exprs := by
  have hjoin := columnsIn_flatMap fun join hjoin => (hjoins join hjoin).columnsIn_tokens
  simp [sourceTokens, hjoin, hfilter.columnsIn_clauseTokens]

theorem columnsIn_exprTokens {es : List Expr} (h : ∀ e ∈ es, e.IsNamed) :
    columnsIn (exprTokens es) = es := by
  rw [exprTokens, columnsIn_intercalate rfl (fun e => [e]), List.flatMap_singleton']
  intro e he
  simp [(h e he).token_expr?]

/-! ### Columns of the statements -/

/-- The columns of a search, in the order of its text. -/
def SelectStatement.exprs (s : SelectStatement) : List Expr :=
  s.items.flatMap (·.exprs) ++ (s.joins.flatMap (·.exprs) ++ s.filter.exprs) ++ s.groupBy
    ++ s.orderBy.map (·.1)

theorem SelectStatement.IsNamed.columnsIn_tokens {s : SelectStatement} (h : s.IsNamed) :
    columnsIn s.tokens = s.exprs := by
  have hcomma : (.mark ',' : Token Nat).expr? = none := rfl
  have hitems := columnsIn_intercalate hcomma _ fun item hitem =>
    (h.items item hitem).columnsIn_tokens
  have hsource := columnsIn_sourceTokens s.table h.joins h.filter
  have horder : columnsIn (orderTokens s.orderBy) = s.orderBy.map (·.1) := by
    rw [orderTokens]
    split
    next hempty =>
      rw [List.isEmpty_iff.1 hempty]
      rfl
    next =>
      rw [columnsIn_append, columnsIn_intercalate hcomma fun o => [o.1]]
      · simp [← List.map_eq_flatMap]
      · intro o ho
        simp [(h.orderBy o ho).token_expr?]
  have hlimit : columnsIn (limitTokens s.limit) = [] := by
    cases s.limit <;> rfl
  simp [tokens, exprs, hitems, hsource, columnsIn_exprTokens h.groupBy, horder, hlimit]

/-- The columns of a count, in the order of its text. The key is only named if there are joins. -/
def CountStatement.exprs (s : CountStatement) : List Expr :=
  (if s.joins.isEmpty then [] else s.keys) ++ (s.joins.flatMap (·.exprs) ++ s.filter.exprs)

theorem CountStatement.IsNamed.columnsIn_tokens {s : CountStatement} (h : s.IsNamed) :
    columnsIn s.tokens = s.exprs := by
  have hsource := columnsIn_sourceTokens s.table h.joins h.filter
  have hclose : columnsIn (closeTokens s.joins s.keys) = [] := by
    rw [closeTokens]
    split <;> rfl
  have hcount : columnsIn (countTokens s.joins s.keys) = if s.joins.isEmpty then [] else s.keys := by
    have hkeys := h.keys
    have hexprs := columnsIn_exprTokens hkeys
    generalize s.joins = joins, s.keys = keys at hkeys hexprs ⊢
    rcases joins with _ | ⟨join, joins⟩
    · rfl
    · rcases keys with _ | ⟨key, _ | ⟨key', keys⟩⟩
      · rfl
      · have hkey : key.IsNamed := List.forall_mem_singleton.1 hkeys
        simp [countTokens, hkey.token_expr?]
      · simp [countTokens, hexprs]
  rw [tokens, exprs, columnsIn_append, columnsIn_append, hcount, hsource, hclose, List.append_nil]

end RecordStore
