import RecordStore.Proofs.Search.StatementTokens

/-!
# The clauses of a statement

The tokens of a statement fall into clauses (`clausesOf`): what stands in front of the joins, each
join, the condition, and what follows it. Where a clause begins is read off the tokens alone. A
keyword does not begin one where a name stands, which is behind `AS`, `FROM` and `JOIN`: names may be
spelled like keywords.

So the joins and the condition can be had from a text (`joinsOf`, `conditionOf`). Those of a statement
of named parts are the parts (`SelectStatement.IsNamed.clauses`, `CountStatement.IsNamed.clauses`):
no other clause begins among the tokens of one part (`Flat`).
-/

namespace RecordStore

/-! ### Where clauses begin -/

namespace Token

/-- The word behind this token is a name. -/
def precedesName : Token Nat → Bool
  | word text => text = "AS" || text = "FROM" || text = "JOIN"
  | _ => false

/-- A clause begins here: a join, the condition, the groups, or what stands behind a closing
    parenthesis that was opened in an earlier clause. -/
def beginsClause (depth : Nat) : Token Nat → Bool
  | word text => text = "LEFT" || text = "INNER" || text = "WHERE" || text = "GROUP"
  | mark c => c = ')' && depth = 0
  | _ => false

/-- How many parentheses are open behind the token. -/
def depthAfter (depth : Nat) : Token Nat → Nat
  | mark c => if c = '(' then depth + 1 else if c = ')' then depth - 1 else depth
  | _ => depth

def isWord : Token Nat → Bool
  | word _ => true
  | _ => false

/-- The token begins no clause, does not stand in front of a name, and is no parenthesis. -/
def isPlain : Token Nat → Bool
  | word text => !beginsClause 0 (word text) && !precedesName (word text)
  | mark c => c = ','
  | _ => true

end Token

/-- The clauses of some tokens, with what was seen of the first one: whether a name comes next, and
    how many parentheses are open in it. -/
def clausesFrom (seen : List (Token Nat)) (isName : Bool) (depth : Nat) :
    List (Token Nat) → List (List (Token Nat))
  | [] => [seen]
  | t :: ts =>
    if isName && t.isWord then clausesFrom (seen ++ [t]) false depth ts
    else if t.beginsClause depth then seen :: clausesFrom [t] false 0 ts
    else clausesFrom (seen ++ [t]) t.precedesName (t.depthAfter depth) ts

/-- The clauses of a statement. -/
def clausesOf (ts : List (Token Nat)) : List (List (Token Nat)) := clausesFrom [] false 0 ts

/-- The tokens of a join and of what follows are told apart by their first word. -/
def Token.beginsJoin (t : Token Nat) : Bool := t = .word "LEFT" || t = .word "INNER"

/-- The joins of a statement. -/
def joinsOf (ts : List (Token Nat)) : List (List (Token Nat)) :=
  (clausesOf ts).filter fun clause => clause.head?.any (·.beginsJoin)

/-- The condition of a statement, if it has one. -/
def conditionOf (ts : List (Token Nat)) : Option (List (Token Nat)) :=
  ((clausesOf ts).find? fun clause => clause.head? = some (.word "WHERE")).map (·.tail)

/-- A column may have the label `WHERE`. -/
example : conditionOf (tokensOf "SELECT e.a AS WHERE FROM LEFT AS e WHERE (e.a = ?1) GROUP BY e.a") =
    some [.mark '(', .column "e" "a", .sign "=", .slot 1, .mark ')'] := by
  decide +kernel

theorem clausesFrom_cons {t : Token Nat} {depth : Nat} (h : t.beginsClause depth = false)
    (seen rest : List (Token Nat)) : clausesFrom seen false depth (t :: rest) =
      clausesFrom (seen ++ [t]) t.precedesName (t.depthAfter depth) rest := by
  rw [clausesFrom, Bool.false_and, if_neg Bool.false_ne_true, h, if_neg Bool.false_ne_true]

/-! ### Tokens without a clause -/

/-- No clause begins among the tokens, and neither a name nor a parenthesis is left open. -/
def Flat (ts : List (Token Nat)) : Prop :=
  ∀ seen depth rest, clausesFrom seen false depth (ts ++ rest) =
    clausesFrom (seen ++ ts) false depth rest

namespace Flat

variable {ts us : List (Token Nat)}

theorem nil : Flat [] := fun seen depth rest => by rw [List.nil_append, List.append_nil]

theorem append (hts : Flat ts) (hus : Flat us) : Flat (ts ++ us) := fun seen depth rest => by
  rw [List.append_assoc, hts, hus, List.append_assoc]

/-- A token that has nothing to do with clauses. -/
theorem token {t : Token Nat} (h : t.isPlain = true) : Flat [t] := fun seen depth rest => by
  obtain ⟨hclause, hname, hdepth⟩ : t.beginsClause depth = false ∧ t.precedesName = false ∧
      t.depthAfter depth = depth := by
    cases t with
    | word text => simpa [Token.isPlain, Token.beginsClause, Token.depthAfter, and_assoc] using h
    | mark c =>
      obtain rfl : c = ',' := by simpa [Token.isPlain] using h
      exact ⟨rfl, rfl, rfl⟩
    | _ => exact ⟨rfl, rfl, rfl⟩
  rw [List.singleton_append, clausesFrom_cons hclause, hname, hdepth]

theorem plain (ts : List (Token Nat)) (h : ts.all (·.isPlain) = true) : Flat ts := by
  induction ts with
  | nil => exact nil
  | cons t ts ih =>
    rw [List.all_cons, Bool.and_eq_true] at h
    exact (token h.1).append (ih h.2)

/-- Any name may stand where a name is expected. -/
theorem named (text name : String)
    (hclause : Token.beginsClause 0 (.word text) = false)
    (hname : Token.precedesName (.word text) = true) :
    Flat [.word text, .word name] := fun seen depth rest => by
  have hword : Token.beginsClause depth (.word text) = false := hclause
  have hskip : clausesFrom (seen ++ [.word text]) true depth (.word name :: rest) =
      clausesFrom (seen ++ [.word text] ++ [.word name]) false depth rest := rfl
  rw [List.cons_append, List.singleton_append, clausesFrom_cons hword, hname]
  rw [List.append_assoc] at hskip
  exact hskip

theorem parentheses (h : Flat ts) : Flat ([.mark '('] ++ ts ++ [.mark ')']) :=
  fun seen depth rest => by
  have hopen : ∀ rest, clausesFrom seen false depth (.mark '(' :: rest) =
      clausesFrom (seen ++ [.mark '(']) false (depth + 1) rest := fun rest => rfl
  have hclose : ∀ seen, clausesFrom seen false (depth + 1) (.mark ')' :: rest) =
      clausesFrom (seen ++ [.mark ')']) false depth rest := fun seen => rfl
  rw [List.append_assoc, List.append_assoc, List.singleton_append, hopen, h,
    List.singleton_append, hclose]
  simp only [List.append_assoc]

theorem flatten {pieces : List (List (Token Nat))} (h : ∀ piece ∈ pieces, Flat piece) :
    Flat pieces.flatten := by
  induction pieces with
  | nil => exact nil
  | cons piece pieces ih =>
    obtain ⟨hpiece, hpieces⟩ := List.forall_mem_cons.1 h
    exact hpiece.append (ih hpieces)

theorem intercalate (hts : Flat ts) {pieces : List (List (Token Nat))}
    (h : ∀ piece ∈ pieces, Flat piece) : Flat (ts.intercalate pieces) := by
  cases pieces with
  | nil => exact nil
  | cons piece pieces =>
    obtain ⟨hpiece, hpieces⟩ := List.forall_mem_cons.1 h
    rw [intercalate_cons, List.flatMap_def]
    refine hpiece.append (flatten ?_)
    rw [List.forall_mem_map]
    exact fun piece hpiece => hts.append (hpieces piece hpiece)

end Flat

/-! ### Clause by clause -/

/-- The tokens begin a clause, and no other one. -/
def IsClause (ts : List (Token Nat)) : Prop :=
  ∃ t us, ts = t :: us ∧ t.beginsClause 0 = true ∧ Flat us

theorem clausesFrom_clause {t : Token Nat} {us : List (Token Nat)} {depth : Nat}
    (ht : t.beginsClause depth = true) (hus : Flat us) (seen rest : List (Token Nat)) :
    clausesFrom seen false depth (t :: us ++ rest) =
      seen :: clausesFrom (t :: us) false 0 rest := by
  rw [List.cons_append, clausesFrom, Bool.false_and, if_neg Bool.false_ne_true, if_pos ht, hus]
  rfl

/-- Behind a clause without open parentheses stand the clauses that begin there. -/
theorem clausesFrom_flatten {clauses : List (List (Token Nat))}
    (h : ∀ clause ∈ clauses, IsClause clause) (seen : List (Token Nat)) :
    clausesFrom seen false 0 clauses.flatten = seen :: clauses := by
  induction clauses generalizing seen with
  | nil => rfl
  | cons clause clauses ih =>
    obtain ⟨⟨t, us, rfl, ht, hus⟩, hclauses⟩ := List.forall_mem_cons.1 h
    rw [List.flatten_cons, clausesFrom_clause ht hus, ih hclauses]

/-- The first clause is what stands in front of the others. -/
theorem clausesOf_append {front : List (Token Nat)} (hfront : Flat front)
    {clauses : List (List (Token Nat))} (h : ∀ clause ∈ clauses, IsClause clause) :
    clausesOf (front ++ clauses.flatten) = front :: clauses := by
  rw [clausesOf, hfront, clausesFrom_flatten h, List.nil_append]

/-! ### The parts of a statement -/

theorem Expr.IsNamed.flat {e : Expr} (h : e.IsNamed) : Flat [e.token] := by
  obtain ⟨tableAlias, name, rfl, -, -⟩ := h
  exact .plain _ rfl

theorem flat_exprTokens {es : List Expr} (h : ∀ e ∈ es, e.IsNamed) : Flat (exprTokens es) :=
  .intercalate (.plain _ rfl) (List.forall_mem_map.2 fun e he => (h e he).flat)

namespace Column

theorem flat_label (c : Column) : Flat [.word "AS", c.labelToken] := by
  rw [labelToken]
  split
  · intro seen depth rest
    have hquoted : clausesFrom seen false depth (.word "AS" :: .quoted c.label :: rest) =
        clausesFrom (seen ++ [.word "AS"] ++ [.quoted c.label]) false depth rest := rfl
    rw [List.append_assoc] at hquoted
    exact hquoted
  · exact .named "AS" c.label rfl rfl

theorem IsNamed.flat {c : Column} (h : c.IsNamed) : Flat c.tokens := h.expr.flat.append c.flat_label

end Column

theorem SelectItem.IsNamed.flat {item : SelectItem} (h : item.IsNamed) : Flat item.tokens := by
  cases item with
  | everything => exact .plain _ rfl
  | column c => exact Column.IsNamed.flat h

namespace Join.IsNamed

variable {j : Join}

/-- A join begins with a word, which begins a clause however many parentheses are open. -/
theorem tokens_eq_cons (h : j.IsNamed) : ∃ kind us, j.tokens = .word kind :: us ∧
    (∀ depth, Token.beginsClause depth (.word kind) = true) ∧ Flat us := by
  cases j with
  | text => exact h.elim
  | table j =>
    obtain ⟨-, -, htarget, hentity, hdiscriminator⟩ := h
    refine ⟨_, _, rfl, fun depth => ?_, ?_⟩
    · split <;> rfl
    · have htables : Flat ([.word "JOIN", .word j.table] ++ [.word "AS", .word j.tableAlias]) :=
        (Flat.named "JOIN" j.table rfl rfl).append (.named "AS" j.tableAlias rfl rfl)
      have hcolumns : Flat ([.word "ON"] ++ [j.target.token] ++ [.sign "="] ++ [j.entity.token]) :=
        (((Flat.plain [.word "ON"] rfl).append htarget.flat).append (.plain _ rfl)).append
          hentity.flat
      refine (htables.append hcolumns).append ?_
      rcases hd : j.discriminator with _ | ⟨column, slot⟩
      · exact .nil
      · have hcolumn : column.IsNamed := hdiscriminator _ hd
        exact ((Flat.plain [.word "AND"] rfl).append hcolumn.flat).append
          (.plain [.sign "=", .slot slot] rfl)

theorem isClause (h : j.IsNamed) : IsClause j.tokens := by
  obtain ⟨kind, us, htokens, hkind, hus⟩ := h.tokens_eq_cons
  exact ⟨_, us, htokens, hkind 0, hus⟩

theorem head?_tokens (h : j.IsNamed) : j.tokens.head?.any (·.beginsJoin) = true := by
  cases j with
  | text => exact h.elim
  | table j => rcases j with ⟨_ | _, _⟩ <;> rfl

end Join.IsNamed

theorem Operator.flat (operator : Operator) : Flat [operator.token] := by
  cases operator <;> exact .plain _ rfl

theorem Predicate.IsNamed.flat {p : Predicate} (h : p.IsNamed) : Flat p.tokens := by
  cases p with
  | isNull e => exact (Expr.IsNamed.flat h).append (.plain _ rfl)
  | isNotNull e => exact (Expr.IsNamed.flat h).append (.plain _ rfl)
  | never => exact .plain _ rfl
  | isIn e slots =>
    have hlist : Flat ([.mark ','].intercalate (slots.map ([.slot ·]))) :=
      .intercalate (.plain _ rfl) (List.forall_mem_map.2 fun slot _ => .plain _ rfl)
    have hall := ((Expr.IsNamed.flat h).append (.plain [.word "IN"] rfl)).append hlist.parentheses
    simpa only [tokens, List.append_assoc, List.cons_append, List.nil_append] using hall
  | compare e operator slot =>
    exact (Expr.IsNamed.flat h).append (operator.flat.append (.plain _ rfl))

namespace RowFilter

theorem flat_block {word : String} (hword : Flat [.word word]) {ps : List Predicate}
    (hps : ∀ p ∈ ps, p.IsNamed) : ∀ ts ∈ blockTokens word ps, Flat ts := by
  rw [blockTokens]
  split
  · simp
  · rintro _ ⟨⟩
    exact (Flat.intercalate hword (List.forall_mem_map.2 fun p hp => (hps p hp).flat)).parentheses

theorem IsNamed.flat {f : RowFilter} (h : f.IsNamed) : ∀ ts ∈ f.tokens?, Flat ts := by
  have hall := flat_block (.plain [.word "AND"] rfl) h.all
  have hany := flat_block (.plain [.word "OR"] rfl) h.any
  rw [tokens?]
  generalize blockTokens "AND" f.all = all at hall
  generalize blockTokens "OR" f.any = any at hany
  rcases all with _ | a <;> rcases any with _ | o <;> rintro _ ⟨⟩
  · exact hany _ rfl
  · exact hall _ rfl
  · exact ((hall _ rfl).append (.plain _ rfl)).append (hany _ rfl)

/-- The condition is one clause, if there is one. -/
theorem IsNamed.isClause {f : RowFilter} (h : f.IsNamed) :
    ∀ clause ∈ (f.tokens?.map (.word "WHERE" :: ·)).toList, IsClause clause := by
  intro clause hclause
  obtain ⟨ts, hts, rfl⟩ := Option.map_eq_some_iff.1 (Option.mem_toList.1 hclause)
  exact ⟨_, _, rfl, rfl, h.flat ts hts⟩

end RowFilter

theorem flat_searched (table : String) :
    Flat [.word "FROM", .word table, .word "AS", .word searchedAlias] :=
  (Flat.named "FROM" table rfl rfl).append (.named "AS" searchedAlias rfl rfl)

theorem flat_number (n : Nat) : Flat [.word (toString n)] := by
  have hdigits : ∀ text : String, text.toList.all Char.isDigit = false →
      toString n ≠ text := by
    rintro _ htext rfl
    rw [Bool.eq_false_iff, ne_eq, List.all_eq_true] at htext
    exact htext fun c hc => isDigit_of_mem_toString hc
  refine .token ?_
  simp only [Token.isPlain, Token.beginsClause, Token.precedesName, Bool.and_eq_true,
    Bool.not_eq_true', Bool.or_eq_false_iff, decide_eq_false_iff_not]
  exact ⟨⟨⟨⟨hdigits _ rfl, hdigits _ rfl⟩, hdigits _ rfl⟩, hdigits _ rfl⟩,
    ⟨hdigits _ rfl, hdigits _ rfl⟩, hdigits _ rfl⟩

/-! ### Joins and conditions -/

section Source

variable {ts front : List (Token Nat)} {joins : List Join} {filter : RowFilter}

/-- The clauses of the joins and of the condition. -/
def sourceClauses (joins : List Join) (filter : RowFilter) : List (List (Token Nat)) :=
  joins.map (·.tokens) ++ (filter.tokens?.map (.word "WHERE" :: ·)).toList

theorem flatten_sourceClauses (joins : List Join) (filter : RowFilter) :
    (sourceClauses joins filter).flatten = joins.flatMap (·.tokens) ++ filter.clauseTokens := by
  rw [sourceClauses, List.flatten_append, List.flatMap_def, RowFilter.clauseTokens]
  rcases filter.tokens? with _ | ts <;> simp

theorem isClause_sourceClauses (hjoins : ∀ join ∈ joins, join.IsNamed)
    (hfilter : filter.IsNamed) : ∀ clause ∈ sourceClauses joins filter, IsClause clause := by
  refine List.forall_mem_append.2 ⟨?_, hfilter.isClause⟩
  exact List.forall_mem_map.2 fun join hjoin => (hjoins join hjoin).isClause

/-- The joins and the condition are found among the clauses, if what stands behind them does not look
    like either. -/
theorem joinsOf_and_conditionOf (hjoins : ∀ join ∈ joins, join.IsNamed)
    (backs : List (List (Token Nat)))
    (hclauses : clausesOf ts = front :: (sourceClauses joins filter ++ backs))
    (hfront : front.head? = some (.word "SELECT"))
    (hbacks : ∀ back ∈ backs, back.head? = some (.word "GROUP") ∨
      back.head? = some (.mark ')')) :
    joinsOf ts = joins.map (·.tokens) ∧ conditionOf ts = filter.tokens? := by
  have hjoin : ∀ clause ∈ joins.map (·.tokens), clause.head?.any (·.beginsJoin) = true :=
    List.forall_mem_map.2 fun join hjoin => (hjoins join hjoin).head?_tokens
  constructor
  · have hback : ∀ back ∈ backs, ¬ back.head?.any (·.beginsJoin) = true := by
      intro back hmem
      rcases hbacks back hmem with h | h <;> rw [h] <;> decide
    have hcondition : (filter.tokens?.map (.word "WHERE" :: ·)).toList.filter
        (fun clause => clause.head?.any (·.beginsJoin)) = [] := by
      rcases filter.tokens? with _ | ts <;> rfl
    rw [joinsOf, hclauses, List.filter_cons, hfront, if_neg (by decide), sourceClauses,
      List.filter_append, List.filter_append, List.filter_eq_self.2 hjoin, hcondition,
      List.filter_eq_nil_iff.2 hback, List.append_nil, List.append_nil]
  · have hnone : (joins.map (·.tokens)).find? (·.head? = some (.word "WHERE")) = none := by
      rw [List.find?_eq_none]
      intro clause hclause hhead
      have hmem := hjoin clause hclause
      rw [of_decide_eq_true hhead] at hmem
      cases hmem
    have hback : backs.find? (·.head? = some (.word "WHERE")) = none := by
      rw [List.find?_eq_none]
      intro back hmem
      rcases hbacks back hmem with h | h <;> rw [h] <;> decide
    rw [conditionOf, hclauses, List.find?_cons_of_neg (by rw [hfront]; decide), sourceClauses,
      List.find?_append, List.find?_append, hnone, hback]
    rcases filter.tokens? with _ | ts <;> rfl

end Source

/-! ### Searches -/

namespace SelectStatement

open Token

theorem flat_orderTokens {order : List (Expr × Direction)} (h : ∀ o ∈ order, o.1.IsNamed) :
    Flat (orderTokens order) := by
  rw [orderTokens]
  split
  · exact .nil
  · refine (Flat.plain [word "ORDER", word "BY"] rfl).append
      (.intercalate (.plain _ rfl) (List.forall_mem_map.2 fun o ho => ?_))
    have hdirection : Flat [word o.2.sql] := by
      cases o.2 <;> exact .plain _ rfl
    exact (h o ho).flat.append hdirection

theorem flat_limitTokens (limit : Option Page) : Flat (limitTokens limit) := by
  cases limit with
  | none => exact .nil
  | some page =>
    exact (Flat.plain [word "LIMIT"] rfl).append ((flat_number page.offset).append
      ((Flat.plain [mark ','] rfl).append (flat_number page.size)))

/-- The joins and the condition of a search can be had from its tokens. -/
theorem IsNamed.clauses {s : SelectStatement} (h : s.IsNamed) :
    joinsOf s.tokens = s.joins.map (·.tokens) ∧ conditionOf s.tokens = s.filter.tokens? := by
  have hitems : Flat ([mark ','].intercalate (s.items.map (·.tokens))) :=
    .intercalate (.plain _ rfl) (List.forall_mem_map.2 fun item hitem => (h.items item hitem).flat)
  have hfront : Flat ([word "SELECT"] ++ [mark ','].intercalate (s.items.map (·.tokens))
      ++ [word "FROM", word s.table, word "AS", word searchedAlias]) :=
    ((Flat.plain [word "SELECT"] rfl).append hitems).append (flat_searched s.table)
  have htail : Flat ([word "BY"] ++ exprTokens s.groupBy ++ orderTokens s.orderBy
      ++ limitTokens s.limit) :=
    (((Flat.plain [word "BY"] rfl).append (flat_exprTokens h.groupBy)).append
      (flat_orderTokens h.orderBy)).append (flat_limitTokens s.limit)
  have hback : IsClause ([word "GROUP", word "BY"] ++ exprTokens s.groupBy
      ++ orderTokens s.orderBy ++ limitTokens s.limit) := ⟨_, _, rfl, rfl, htail⟩
  have hclauses := clausesOf_append hfront (List.forall_mem_append.2
    ⟨isClause_sourceClauses h.joins h.filter, List.forall_mem_singleton.2 hback⟩)
  refine joinsOf_and_conditionOf h.joins _ (Eq.trans (congrArg clausesOf ?_) hclauses) rfl ?_
  · rw [List.flatten_append, flatten_sourceClauses]
    simp [tokens, sourceTokens]
  · simp

end SelectStatement

/-! ### Counts -/

namespace CountStatement

open Token

/-- What a count begins with if it needs no selection of its own, up to the joins. -/
theorem flat_counted {counted : List (Token Nat)} (h : Flat counted) (table : String) :
    Flat ([word "SELECT", word "count"] ++ ([mark '('] ++ counted ++ [mark ')'])
      ++ [word "AS", word "total"]
      ++ [word "FROM", word table, word "AS", word searchedAlias]) := by
  have hselect : Flat [word "SELECT", word "count"] := .plain _ rfl
  have htotal : Flat [word "AS", word "total"] := .named "AS" "total" rfl rfl
  exact ((hselect.append h.parentheses).append htotal).append (flat_searched table)

/-- What a count of several keys begins with: a parenthesis is open in front of its first join. -/
theorem clausesFrom_columns {keys : List Expr} (hkeys : ∀ e ∈ keys, e.IsNamed) (table : String)
    {front : List (Token Nat)} (hfront : front = [word "SELECT", word "count", mark '(',
        word "*", mark ')', word "AS", word "total", word "FROM", mark '(', word "SELECT",
        word "DISTINCT"] ++ exprTokens keys
      ++ [word "FROM", word table, word "AS", word searchedAlias]) (rest : List (Token Nat)) :
    clausesFrom [] false 0 (front ++ rest) = clausesFrom front false 1 rest := by
  have houter : Flat ([word "SELECT", word "count"] ++ ([mark '('] ++ [word "*"] ++ [mark ')'])
      ++ [word "AS", word "total"]) :=
    ((Flat.plain [word "SELECT", word "count"] rfl).append
      (Flat.plain [word "*"] rfl).parentheses).append (.named "AS" "total" rfl rfl)
  have hopen : ∀ seen rest, clausesFrom seen false 0 (word "FROM" :: mark '(' :: rest) =
      clausesFrom (seen ++ [word "FROM"] ++ [mark '(']) false 1 rest := fun seen rest => rfl
  have hinner : Flat ([word "SELECT", word "DISTINCT"] ++ exprTokens keys
      ++ [word "FROM", word table, word "AS", word searchedAlias]) :=
    ((Flat.plain [word "SELECT", word "DISTINCT"] rfl).append (flat_exprTokens hkeys)).append
      (flat_searched table)
  have hall := houter [] 0 (word "FROM" :: mark '(' :: ([word "SELECT", word "DISTINCT"]
    ++ exprTokens keys ++ [word "FROM", word table, word "AS", word searchedAlias] ++ rest))
  rw [hopen, hinner] at hall
  rw [hfront]
  simpa only [List.append_assoc, List.cons_append, List.nil_append] using hall

/-- A join may stand behind parentheses that are open. -/
theorem clausesOf_append_join {front : List (Token Nat)} {depth : Nat}
    (hfront : ∀ rest, clausesFrom [] false 0 (front ++ rest) = clausesFrom front false depth rest)
    {join : Join} (hjoin : join.IsNamed) {clauses behind : List (List (Token Nat))}
    (hclauses : clauses = join.tokens :: behind) (h : ∀ clause ∈ clauses, IsClause clause) :
    clausesOf (front ++ clauses.flatten) = front :: clauses := by
  subst hclauses
  obtain ⟨kind, us, htokens, hkind, hus⟩ := hjoin.tokens_eq_cons
  rw [clausesOf, hfront, htokens, List.flatten_cons, clausesFrom_clause (hkind depth) hus,
    clausesFrom_flatten (List.forall_mem_cons.1 h).2]

/-- The joins and the condition of a count can be had from its tokens. -/
theorem IsNamed.clauses {s : CountStatement} (h : s.IsNamed) :
    joinsOf s.tokens = s.joins.map (·.tokens) ∧ conditionOf s.tokens = s.filter.tokens? := by
  obtain ⟨table, joins, filter, keys⟩ := s
  obtain ⟨-, hjoins, hfilter, hkeys⟩ := h
  dsimp only at hjoins hfilter hkeys ⊢
  have hsource := isClause_sourceClauses hjoins hfilter
  -- Rows and the values of one column are counted without another selection.
  have hplain : ∀ {counted : List (Token Nat)}, Flat counted → ∀ {ts},
      ts = [word "SELECT", word "count"] ++ ([mark '('] ++ counted ++ [mark ')'])
        ++ [word "AS", word "total", word "FROM"] ++ sourceTokens table joins filter →
      joinsOf ts = joins.map (·.tokens) ∧ conditionOf ts = filter.tokens? := by
    rintro counted hcounted _ rfl
    have hclauses := clausesOf_append (flat_counted hcounted table) hsource
    refine joinsOf_and_conditionOf hjoins [] (Eq.trans (congrArg clausesOf ?_)
      (hclauses.trans (by rw [List.append_nil]))) rfl (by simp)
    rw [flatten_sourceClauses]
    simp [sourceTokens]
  rw [tokens]
  rcases joins with _ | ⟨join, joins⟩
  · exact hplain (.plain [word "*"] rfl) (by simp [countTokens, closeTokens])
  obtain ⟨hjoin, -⟩ := List.forall_mem_cons.1 hjoins
  have hclose : IsClause [mark ')'] := ⟨_, _, rfl, rfl, .nil⟩
  have hclauses := List.forall_mem_append.2 ⟨hsource, List.forall_mem_singleton.2 hclose⟩
  have hmany : ∀ {ts}, ts = [word "SELECT", word "count", mark '(', word "*", mark ')',
        word "AS", word "total", word "FROM", mark '(', word "SELECT", word "DISTINCT"]
        ++ exprTokens keys ++ [word "FROM"] ++ sourceTokens table (join :: joins) filter
        ++ [mark ')'] →
      joinsOf ts = (join :: joins).map (·.tokens) ∧ conditionOf ts = filter.tokens? := by
    rintro _ rfl
    have hfirst : sourceClauses (join :: joins) filter ++ [[mark ')']] = join.tokens :: _ := rfl
    have hall := clausesOf_append_join (clausesFrom_columns hkeys table rfl) hjoin hfirst hclauses
    refine joinsOf_and_conditionOf hjoins [[mark ')']] (Eq.trans (congrArg clausesOf ?_) hall)
      rfl (by simp)
    rw [List.flatten_append, flatten_sourceClauses]
    simp [sourceTokens]
  rcases keys with _ | ⟨key, _ | ⟨key', keys⟩⟩
  · exact hmany (by simp [countTokens, closeTokens])
  · have hkey : key.IsNamed := List.forall_mem_singleton.1 hkeys
    exact hplain ((Flat.plain [word "DISTINCT"] rfl).append hkey.flat)
      (by simp [countTokens, closeTokens])
  · exact hmany (by simp [countTokens, closeTokens])

end CountStatement

end RecordStore
