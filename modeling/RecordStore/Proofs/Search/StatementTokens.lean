import RecordStore.Proofs.Search.Tokens

/-!
# The tokens of a statement

What a statement of named parts reads like, token by token: the text of each part lexes to the
tokens of the part (`Join.IsNamed.lexes`, `RowFilter.IsNamed.lexes`), and so do the whole statements
(`SelectStatement.IsNamed.lexes`, `CountStatement.IsNamed.lexes`).
-/

namespace RecordStore

variable {α β : Type}

/-! ### Columns -/

namespace Expr

/-- The token of a column; an arbitrary text is taken for a word. -/
def token : Expr → Token α
  | column tableAlias name => .column tableAlias name
  | text sql => .word sql

@[simp]
theorem map_token (f : α → β) (e : Expr) : (e.token : Token α).map f = e.token := by
  cases e <;> rfl

theorem IsNamed.lexes {e : Expr} (h : e.IsNamed) : Lexes e.sql [e.token] := by
  obtain ⟨tableAlias, name, rfl, halias, hname⟩ := h
  exact .column halias hname

end Expr

namespace Column

/-- The token of the label. -/
def labelToken (c : Column) : Token α :=
  if '.' ∈ c.label.toList then .quoted c.label else .word c.label

def tokens (c : Column) : List (Token Nat) := [c.expr.token, .word "AS", c.labelToken]

theorem IsNamed.lexes {c : Column} (h : c.IsNamed) : Lexes c.itemText c.tokens := by
  rw [itemText, tokens, labelToken]
  split
  next hdot =>
    have hquote : '"' ∉ c.label.toList := by
      rcases h.label with hname | ⟨name, sub, hlabel, hname, hsub⟩
      · exact Identifier.notMem_quote hname
      · rw [hlabel, toList_dotted, List.mem_append, List.mem_cons]
        rintro (hquote | hquote | hquote)
        · exact Identifier.notMem_quote hname hquote
        · cases hquote
        · exact Identifier.notMem_quote hsub hquote
    have htext : c.expr.sql ++ " AS \"" ++ c.label ++ "\"" =
        c.expr.sql ++ " AS " ++ ("\"" ++ c.label ++ "\"") := by
      simp only [String.append_assoc]
      rfl
    rw [htext]
    exact h.expr.lexes.separated .as (.quoted hquote)
  next hdot =>
    refine h.expr.lexes.separated .as ?_
    rcases h.label with hname | ⟨name, sub, hlabel, -, -⟩
    · exact .name hname
    · refine absurd ?_ hdot
      simp [hlabel]

end Column

namespace SelectItem

def tokens : SelectItem → List (Token Nat)
  | everything => [.column searchedAlias "*"]
  | column c => c.tokens

theorem IsNamed.lexes {item : SelectItem} (h : item.IsNamed) : Lexes item.sql item.tokens := by
  cases item with
  | everything => exact .of_after _ rfl
  | column c => exact Column.IsNamed.lexes h

end SelectItem

/-! ### Joins -/

namespace Join

def tokens : Join → List (Token Nat)
  | text clause => tokensOf clause
  | table j =>
    [.word (if j.isOptional then "LEFT" else "INNER"), .word "JOIN", .word j.table, .word "AS",
      .word j.tableAlias, .word "ON", j.target.token, .sign "=", j.entity.token]
    ++ match j.discriminator with
      | some (column, slot) => [.word "AND", column.token, .sign "=", .slot slot]
      | none => []

theorem IsNamed.lexes {j : Join} (h : j.IsNamed) : Lexes j.sql j.tokens := by
  cases j with
  | text => exact h.elim
  | table j =>
    obtain ⟨htable, halias, htarget, hentity, hdiscriminator⟩ := h
    have hkind : LexesFirst (if j.isOptional then "LEFT JOIN " else "INNER JOIN ")
        [.word (if j.isOptional then "LEFT" else "INNER"), .word "JOIN"] := by
      split <;> exact fun _ => rfl
    have hon : Separates " ON " [.word "ON"] := ⟨fun _ => rfl, fun _ => rfl⟩
    have hfront := (((hkind.append (.name htable)).separated .as (.name halias)).separated hon
      htarget.lexes).separated .equals hentity.lexes
    rw [sql, tokens]
    rcases hd : j.discriminator with _ | ⟨column, slot⟩
    · exact hfront.append .empty
    · have hcolumn : column.IsNamed := hdiscriminator _ hd
      have hdiscriminator := (Separates.and.follows hcolumn.lexes).append
        (Separates.equals.follows (.placeholder slot))
      rw [← String.append_assoc] at hdiscriminator
      exact hfront.append hdiscriminator

end Join

/-! ### Conditions -/

/-- The token of an operator. -/
def Operator.token : Operator → Token α
  | like => .word "LIKE"
  | oneOf => .word "IN"
  | operator => .sign operator.sql

@[simp]
theorem Operator.map_token (f : α → β) (operator : Operator) :
    (operator.token : Token α).map f = operator.token := by
  cases operator <;> rfl

namespace Predicate

def tokens : Predicate → List (Token Nat)
  | isNull e => [e.token, .word "IS", .word "NULL"]
  | isNotNull e => [e.token, .word "IS", .word "NOT", .word "NULL"]
  | never => [.word "0", .sign "=", .word "1"]
  | isIn e slots =>
    [e.token, .word "IN", .mark '('] ++ [.mark ','].intercalate (slots.map ([.slot ·]))
      ++ [.mark ')']
  | compare e operator slot => [e.token, operator.token, .slot slot]

theorem IsNamed.lexes {p : Predicate} (h : p.IsNamed) : Lexes p.sql p.tokens := by
  cases p with
  | isNull e | isNotNull e =>
    exact (Expr.IsNamed.lexes h).append ⟨.of_after _ rfl, fun _ _ => rfl⟩
  | never => exact .of_after _ rfl
  | isIn e slots =>
    have hopen : Separates " IN (" [.word "IN", .mark '('] := ⟨fun _ => rfl, fun _ => rfl⟩
    have hlist := Lexes.intercalate_map .comma fun slot (_ : slot ∈ slots) => .placeholder slot
    exact ((Expr.IsNamed.lexes h).separated hopen hlist).append .close
  | compare e operator slot =>
    have hoperator : Lexes operator.sql [operator.token] := by
      cases operator <;> exact .of_after _ rfl
    exact ((Expr.IsNamed.lexes h).separated .blank hoperator).separated .blank (.placeholder slot)

end Predicate

namespace RowFilter

/-- The tokens of predicates in parentheses, joined by a word. -/
def blockTokens (word : String) (ps : List Predicate) : Option (List (Token Nat)) :=
  if ps.isEmpty then none
  else some ([.mark '('] ++ [.word word].intercalate (ps.map (·.tokens)) ++ [.mark ')'])

/-- The tokens of the condition, if there is one. -/
def tokens? (f : RowFilter) : Option (List (Token Nat)) :=
  match blockTokens "AND" f.all, blockTokens "OR" f.any with
  | some a, some o => some (a ++ [.word "OR"] ++ o)
  | some a, none => some a
  | none, some o => some o
  | none, none => none

/-- The tokens of the clause. -/
def clauseTokens (f : RowFilter) : List (Token Nat) := (f.tokens?.map (.word "WHERE" :: ·)).getD []

theorem lexes_block {word : String} {ps : List Predicate} {name : String}
    (hword : Separates word [.word name]) (hps : ∀ p ∈ ps, p.IsNamed) :
    Option.Rel Lexes (block word ps) (blockTokens name ps) := by
  rw [block, blockTokens]
  split
  · exact .none
  · have hrow := Lexes.intercalate_map hword fun p hp => (hps p hp).lexes
    have hopen : LexesFirst "(" [.mark '('] := fun _ => rfl
    exact .some ((hopen.append hrow).append .close)

/-- The condition of a statement has the tokens of its predicates. -/
theorem IsNamed.lexes {f : RowFilter} (h : f.IsNamed) : Option.Rel Lexes f.sql f.tokens? := by
  have hall := lexes_block .and h.all
  have hany := lexes_block .or h.any
  rw [sql, tokens?]
  generalize block " AND " f.all = all, blockTokens "AND" f.all = allTokens at hall
  generalize block " OR " f.any = any, blockTokens "OR" f.any = anyTokens at hany
  cases hall with
  | none => cases hany with
    | none => exact .none
    | some hany => exact .some hany
  | some hall => cases hany with
    | none => exact .some hall
    | some hany => exact .some (hall.separated .or hany)

theorem IsNamed.follows_clause {f : RowFilter} (h : f.IsNamed) : LexesLast f.clause f.clauseTokens := by
  have hlexes := h.lexes
  rw [clause, clauseTokens]
  generalize f.sql = text, f.tokens? = tokens at hlexes
  cases hlexes with
  | none => exact .empty
  | some hlexes =>
    have hwhere : Separates " WHERE " [.word "WHERE"] := ⟨fun _ => rfl, fun _ => rfl⟩
    exact hwhere.follows hlexes

end RowFilter

/-! ### Statements -/

/-- The tokens of the searched table with its joins and its condition. -/
def sourceTokens (table : String) (joins : List Join) (filter : RowFilter) : List (Token Nat) :=
  [.word table, .word "AS", .word searchedAlias] ++ joins.flatMap (·.tokens) ++ filter.clauseTokens

theorem lexes_rowSource {table : String} {joins : List Join} {filter : RowFilter}
    (htable : Identifier.isValid table = true) (hjoins : ∀ join ∈ joins, join.IsNamed)
    (hfilter : filter.IsNamed) :
    Lexes (rowSource table joins filter) (sourceTokens table joins filter) := by
  have hjoin : LexesLast (String.join (joins.map (" " ++ ·.sql))) (joins.flatMap (·.tokens)) :=
    .join fun join hjoin => Separates.blank.follows (hjoins join hjoin).lexes
  have hfront := (Lexes.name htable).separated .as (.name searchedAlias_isValid)
  exact (hfront.append hjoin).append hfilter.follows_clause

/-- The tokens of a join and of what follows are told apart by their first word. -/
def BeginsJoin (ts : List (Token Nat)) : Prop :=
  ts.head? = some (.word "LEFT") ∨ ts.head? = some (.word "INNER")

/-- The joins of a statement stand right behind the searched table, and nothing that looks like one
    follows. -/
def HasSource (ts : List (Token Nat)) (table : String) (joins : List Join) : Prop :=
  ∃ front back, ts = front ++ [.word "FROM", .word table, .word "AS", .word searchedAlias]
    ++ joins.flatMap (·.tokens) ++ back ∧ ¬ BeginsJoin back

theorem hasSource_of_sourceTokens (front : List (Token Nat)) {back : List (Token Nat)}
    (table : String) (joins : List Join) (filter : RowFilter) (hback : ¬ BeginsJoin back) :
    HasSource (front ++ [.word "FROM"] ++ sourceTokens table joins filter ++ back) table joins := by
  refine ⟨front, filter.clauseTokens ++ back, by simp [sourceTokens], ?_⟩
  rw [RowFilter.clauseTokens]
  rcases filter.tokens? with _ | ts
  · exact hback
  · simp [BeginsJoin]

/-- Expressions with commas between them. -/
def exprTokens (es : List Expr) : List (Token Nat) := [.mark ','].intercalate (es.map ([·.token]))

theorem lexes_exprs {es : List Expr} (h : ∀ e ∈ es, e.IsNamed) :
    Lexes (", ".intercalate (es.map (·.sql))) (exprTokens es) :=
  .intercalate_map .comma fun e he => (h e he).lexes

namespace SelectStatement

def orderTokens (order : List (Expr × Direction)) : List (Token Nat) :=
  if order.isEmpty then []
  else [.word "ORDER", .word "BY"]
    ++ [.mark ','].intercalate (order.map fun o => [o.1.token, .word o.2.sql])

def limitTokens : Option Page → List (Token Nat)
  | some page => [.word "LIMIT", .word (toString page.offset), .mark ',', .word (toString page.size)]
  | none => []

def tokens (s : SelectStatement) : List (Token Nat) :=
  [.word "SELECT"] ++ [.mark ','].intercalate (s.items.map (·.tokens)) ++ [.word "FROM"]
    ++ sourceTokens s.table s.joins s.filter ++ [.word "GROUP", .word "BY"] ++ exprTokens s.groupBy
    ++ orderTokens s.orderBy ++ limitTokens s.limit

theorem follows_orderClause {order : List (Expr × Direction)} (h : ∀ o ∈ order, o.1.IsNamed) :
    LexesLast (orderClause order) (orderTokens order) := by
  rw [orderClause, orderTokens]
  split
  · exact .empty
  · have horderBy : Separates " ORDER BY " [.word "ORDER", .word "BY"] :=
      ⟨fun _ => rfl, fun _ => rfl⟩
    refine horderBy.follows (.intercalate_map .comma fun o ho => ?_)
    have hdirection : Lexes o.2.sql [.word o.2.sql] := by
      cases o.2 <;> exact .of_after _ rfl
    exact (h o ho).lexes.separated .blank hdirection

theorem follows_limitClause (limit : Option Page) :
    LexesLast (limitClause limit) (limitTokens limit) := by
  cases limit with
  | none => exact .empty
  | some page =>
    have hword : Separates " LIMIT " [.word "LIMIT"] := ⟨fun _ => rfl, fun _ => rfl⟩
    have hcomma : Separates "," [.mark ','] := ⟨fun _ => rfl, fun _ => rfl⟩
    have hlimit := (hword.follows (.number page.offset)).append
      (hcomma.follows (.number page.size))
    rwa [← String.append_assoc] at hlimit

theorem hasSource (s : SelectStatement) : HasSource s.tokens s.table s.joins := by
  have hback : ¬ BeginsJoin ([.word "GROUP", .word "BY"] ++ exprTokens s.groupBy
      ++ orderTokens s.orderBy ++ limitTokens s.limit) := by
    simp [BeginsJoin]
  have hsource := hasSource_of_sourceTokens
    ([.word "SELECT"] ++ [.mark ','].intercalate (s.items.map (·.tokens)))
    s.table s.joins s.filter hback
  simpa only [tokens, List.append_assoc] using hsource

/-- A search reads like its parts. -/
theorem IsNamed.lexes {s : SelectStatement} (h : s.IsNamed) : Lexes s.sql s.tokens := by
  have hitems := Lexes.intercalate_map .comma fun item hitem => (h.items item hitem).lexes
  have hsource := lexes_rowSource h.table h.joins h.filter
  have hselect : LexesFirst "SELECT " [.word "SELECT"] := fun _ => rfl
  have hgroupBy : Separates " GROUP BY " [.word "GROUP", .word "BY"] :=
    ⟨fun _ => rfl, fun _ => rfl⟩
  have hfront := ((hselect.append hitems).separated .from hsource).separated hgroupBy
    (lexes_exprs h.groupBy)
  exact (hfront.append (follows_orderClause h.orderBy)).append (follows_limitClause s.limit)

end SelectStatement

namespace CountStatement

/-- What a count begins with: rows are counted, or distinct values of one column, or the rows of a
    selection of distinct keys. -/
def countTokens : List Join → List Expr → List (Token Nat)
  | [], _ => [.word "SELECT", .word "count", .mark '(', .word "*", .mark ')', .word "AS",
      .word "total", .word "FROM"]
  | _, [key] => [.word "SELECT", .word "count", .mark '(', .word "DISTINCT", key.token, .mark ')',
      .word "AS", .word "total", .word "FROM"]
  | _, keys => [.word "SELECT", .word "count", .mark '(', .word "*", .mark ')', .word "AS",
      .word "total", .word "FROM", .mark '(', .word "SELECT", .word "DISTINCT"] ++ exprTokens keys
      ++ [.word "FROM"]

/-- What stands behind the row source. -/
def closeTokens (joins : List Join) (keys : List Expr) : List (Token Nat) :=
  if joins.isEmpty || keys.length = 1 then [] else [.mark ')']

def tokens (s : CountStatement) : List (Token Nat) :=
  countTokens s.joins s.keys ++ sourceTokens s.table s.joins s.filter
    ++ closeTokens s.joins s.keys

theorem countTokens_eq (joins : List Join) (keys : List Expr) :
    ∃ front, countTokens joins keys = front ++ [.word "FROM"] := by
  unfold countTokens
  split
  · exact ⟨_, (List.dropLast_concat_getLast (List.cons_ne_nil _ _)).symm⟩
  · exact ⟨_, (List.dropLast_concat_getLast (List.cons_ne_nil _ _)).symm⟩
  · exact ⟨_, rfl⟩

theorem hasSource (s : CountStatement) : HasSource s.tokens s.table s.joins := by
  obtain ⟨front, hfront⟩ := countTokens_eq s.joins s.keys
  rw [tokens, hfront]
  refine hasSource_of_sourceTokens _ _ _ _ ?_
  rw [closeTokens]
  split <;> simp [BeginsJoin]

/-- A count reads like its parts. -/
theorem IsNamed.lexes {s : CountStatement} (h : s.IsNamed) : Lexes s.sql s.tokens := by
  have hsource := lexes_rowSource h.table h.joins h.filter
  have hmany : LexesFirst "SELECT count(*) AS total FROM (SELECT DISTINCT " [.word "SELECT",
      .word "count", .mark '(', .word "*", .mark ')', .word "AS", .word "total", .word "FROM",
      .mark '(', .word "SELECT", .word "DISTINCT"] := fun _ => rfl
  have hdistinct := ((hmany.append (lexes_exprs h.keys)).separated .from hsource).append .close
  have hkeys := h.keys
  rw [sql, tokens]
  generalize s.joins = joins, s.keys = keys at hsource hdistinct hkeys ⊢
  rcases joins with _ | ⟨join, joins⟩
  · have hrows : LexesFirst "SELECT count(*) AS total FROM " (countTokens [] keys) := fun _ => rfl
    simpa only [closeTokens, List.isEmpty_nil, Bool.true_or, if_true, List.append_nil] using
      hrows.append hsource
  · rcases keys with _ | ⟨key, _ | ⟨key', keys⟩⟩
    · exact hdistinct
    · have hkey : key.IsNamed := List.forall_mem_singleton.1 hkeys
      have hone : LexesFirst "SELECT count(DISTINCT " [.word "SELECT", .word "count", .mark '(',
          .word "DISTINCT"] := fun _ => rfl
      have hclose : Separates ") AS total FROM " [.mark ')', .word "AS", .word "total",
          .word "FROM"] := ⟨fun _ => rfl, fun _ => rfl⟩
      simpa [countTokens, closeTokens] using (hone.append hkey.lexes).separated hclose hsource
    · exact hdistinct

end CountStatement

end RecordStore
