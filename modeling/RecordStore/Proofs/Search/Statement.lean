import RecordStore.Proofs.Search.Placeholders

/-!
# The placeholders of a statement

A statement whose names have all passed the guard is *named* (`SelectStatement.IsNamed`,
`CountStatement.IsNamed`). Its text then shows the placeholders of its parts and no others: those of
the discriminators, in the order of the joins, and then those of the condition, the block of what
must all hold before the block of alternatives (`SelectStatement.IsNamed.shows_sql`,
`CountStatement.IsNamed.shows_sql`).
-/

namespace RecordStore

/-! ### Names -/

/-- A column under the alias of its table, both of which have passed the guard. -/
def Expr.IsNamed (e : Expr) : Prop :=
  ∃ tableAlias name, e = .column tableAlias name ∧ Identifier.isValid tableAlias = true ∧
    Identifier.isValid name = true

/-- A label that is a name, or two names with a dot between them. -/
def IsLabel (label : String) : Prop :=
  Identifier.isValid label = true ∨ ∃ name sub, label = name ++ "." ++ sub ∧
    Identifier.isValid name = true ∧ Identifier.isValid sub = true

/-- A column with a name and a label. -/
structure Column.IsNamed (c : Column) : Prop where
  expr : c.expr.IsNamed
  label : IsLabel c.label

namespace SelectItem

def IsNamed : SelectItem → Prop
  | everything => True
  | column c => c.IsNamed

end SelectItem

/-- A join of one other table on named columns. -/
def Join.IsNamed : Join → Prop
  | table j => Identifier.isValid j.table = true ∧ Identifier.isValid j.tableAlias = true ∧
    j.target.IsNamed ∧ j.entity.IsNamed ∧ ∀ d ∈ j.discriminator, d.1.IsNamed
  | text _ => False

/-- A predicate on a named column. -/
def Predicate.IsNamed : Predicate → Prop
  | isNull e | isNotNull e | isIn e _ | compare e _ _ => e.IsNamed
  | never => True

structure RowFilter.IsNamed (f : RowFilter) : Prop where
  all : ∀ p ∈ f.all, p.IsNamed
  any : ∀ p ∈ f.any, p.IsNamed

structure SelectStatement.IsNamed (s : SelectStatement) : Prop where
  items : ∀ item ∈ s.items, item.IsNamed
  table : Identifier.isValid s.table = true
  joins : ∀ join ∈ s.joins, join.IsNamed
  filter : s.filter.IsNamed
  groupBy : ∀ e ∈ s.groupBy, e.IsNamed
  orderBy : ∀ o ∈ s.orderBy, o.1.IsNamed

structure CountStatement.IsNamed (s : CountStatement) : Prop where
  table : Identifier.isValid s.table = true
  joins : ∀ join ∈ s.joins, join.IsNamed
  filter : s.filter.IsNamed
  keys : ∀ e ∈ s.keys, e.IsNamed

theorem Expr.IsNamed.unmarked {e : Expr} (h : e.IsNamed) : Unmarked e.sql := by
  obtain ⟨tableAlias, name, rfl, halias, hname⟩ := h
  rw [sql, unmarked_append, unmarked_append]
  exact ⟨⟨Identifier.unmarked halias, by decide⟩, Identifier.unmarked hname⟩

theorem IsLabel.unmarked {label : String} (h : IsLabel label) : Unmarked label := by
  rcases h with hname | ⟨name, sub, rfl, hname, hsub⟩
  · exact Identifier.unmarked hname
  · rw [unmarked_append, unmarked_append]
    exact ⟨⟨Identifier.unmarked hname, by decide⟩, Identifier.unmarked hsub⟩

theorem Column.IsNamed.unmarked {c : Column} (h : c.IsNamed) : Unmarked c.itemText := by
  have hexpr := h.expr.unmarked
  have hlabel := h.label.unmarked
  rw [itemText]
  split
  · simp only [unmarked_append]
    exact ⟨⟨⟨hexpr, by decide⟩, hlabel⟩, by decide⟩
  · simp only [unmarked_append]
    exact ⟨⟨hexpr, by decide⟩, hlabel⟩

theorem SelectItem.IsNamed.unmarked {item : SelectItem} (h : item.IsNamed) : Unmarked item.sql := by
  cases item with
  | everything => decide
  | column c => exact Column.IsNamed.unmarked h

/-! ### Placeholders -/

namespace Join

/-- The placeholders of a join. -/
def slots : Join → List Nat
  | table j => j.discriminator.toList.map (·.2)
  | text _ => []

theorem IsNamed.shows {j : Join} (h : j.IsNamed) : ShowsSlots j.sql j.slots := by
  cases j with
  | text => exact h.elim
  | table j =>
    obtain ⟨htable, halias, htarget, hentity, hdiscriminator⟩ := h
    have hkind : Unmarked (if j.isOptional then "LEFT JOIN " else "INNER JOIN ") := by
      split <;> decide
    have hfront : Unmarked ((if j.isOptional then "LEFT JOIN " else "INNER JOIN ") ++ j.table
        ++ " AS " ++ j.tableAlias ++ " ON " ++ j.target.sql ++ " = " ++ j.entity.sql) := by
      simp only [unmarked_append]
      exact ⟨⟨⟨⟨⟨⟨⟨hkind, Identifier.unmarked htable⟩, by decide⟩, Identifier.unmarked halias⟩,
        by decide⟩, htarget.unmarked⟩, by decide⟩, hentity.unmarked⟩
    rw [sql, slots]
    refine ShowsSlots.prepend hfront ?_
    rcases hd : j.discriminator with _ | ⟨column, slot⟩
    · exact ShowsSlots.of_unmarked (by decide)
    · have hcolumn : column.IsNamed := hdiscriminator _ hd
      refine ShowsSlots.prepend ?_ (ShowsSlots.placeholder slot)
      simp only [unmarked_append]
      exact ⟨⟨by decide, hcolumn.unmarked⟩, by decide⟩

end Join

namespace Predicate

/-- The placeholders of a predicate. -/
def slots : Predicate → List Nat
  | isIn _ slots => slots
  | compare _ _ slot => [slot]
  | _ => []

theorem IsNamed.shows {p : Predicate} (h : p.IsNamed) : ShowsSlots p.sql p.slots := by
  cases p with
  | isNull e | isNotNull e =>
    refine ShowsSlots.of_unmarked ?_
    rw [sql, unmarked_append]
    exact ⟨Expr.IsNamed.unmarked h, by decide⟩
  | never => exact ShowsSlots.of_unmarked (by decide)
  | isIn e slots =>
    have heach : List.Forall₂ ShowsSlots (slots.map placeholder) (slots.map ([·])) :=
      ShowsSlots.map fun slot _ => ShowsSlots.placeholder slot
    have hcomma : Unmarked ", " := by decide
    have hlist := ShowsSlots.intercalate hcomma (fun _ => rfl) heach
    rw [← List.flatMap_def, List.flatMap_singleton'] at hlist
    rw [sql]
    refine ShowsSlots.followed (ShowsSlots.prepend ?_ hlist) (by decide) rfl
    rw [unmarked_append]
    exact ⟨Expr.IsNamed.unmarked h, by decide⟩
  | compare e operator slot =>
    have hoperator : Unmarked operator.sql := by cases operator <;> decide
    rw [sql]
    refine ShowsSlots.prepend ?_ (ShowsSlots.placeholder slot)
    simp only [unmarked_append]
    exact ⟨⟨⟨Expr.IsNamed.unmarked h, by decide⟩, hoperator⟩, by decide⟩

end Predicate

namespace RowFilter

/-- The placeholders of a condition. -/
def slots (f : RowFilter) : List Nat := f.all.flatMap (·.slots) ++ f.any.flatMap (·.slots)

theorem shows_block {word : String} (hword : Unmarked word)
    (hbegin : ∀ rest, beginsWithDigit (word.toList ++ rest) = false) {ps : List Predicate}
    (hps : ∀ p ∈ ps, p.IsNamed) {text : String} (h : block word ps = some text) :
    ShowsSlots text (ps.flatMap (·.slots)) := by
  have heach : List.Forall₂ ShowsSlots (ps.map (·.sql)) (ps.map (·.slots)) :=
    ShowsSlots.map fun p hp => (hps p hp).shows
  have hrow := ShowsSlots.intercalate hword hbegin heach
  rw [block] at h
  split at h
  · cases h
  · cases h
    rw [List.flatMap_def]
    exact ShowsSlots.followed (ShowsSlots.prepend (by decide) hrow) (by decide) rfl

theorem block_eq_none {word : String} {ps : List Predicate} (h : block word ps = none) :
    ps = [] := by
  rw [block] at h
  split at h
  next hempty => exact List.isEmpty_iff.1 hempty
  next => cases h

theorem IsNamed.shows {f : RowFilter} (h : f.IsNamed) {text : String} (hsql : f.sql = some text) :
    ShowsSlots text f.slots := by
  have hall := fun text => @shows_block " AND " (by decide) (fun _ => rfl) f.all h.all text
  have hany := fun text => @shows_block " OR " (by decide) (fun _ => rfl) f.any h.any text
  rw [sql] at hsql
  rw [slots]
  rcases hand : block " AND " f.all with _ | a <;> rcases hor : block " OR " f.any with _ | o <;>
    rw [hand, hor] at hsql <;> cases hsql
  · rw [block_eq_none hand]
    exact hany text hor
  · rw [block_eq_none hor, List.flatMap_nil, List.append_nil]
    exact hall text hand
  · rw [String.append_assoc]
    refine (hall a hand).append (ShowsSlots.prepend (by decide) (hany o hor)) ?_
    rw [String.toList_append]
    rfl

end RowFilter

namespace SelectStatement

/-- The placeholders of a statement, in the order of its text. -/
def slots (s : SelectStatement) : List Nat := s.joins.flatMap (·.slots) ++ s.filter.slots

end SelectStatement

namespace CountStatement

/-- The placeholders of a statement, in the order of its text. -/
def slots (s : CountStatement) : List Nat := s.joins.flatMap (·.slots) ++ s.filter.slots

end CountStatement

end RecordStore
