import RecordStore.Proofs.Except
import RecordStore.Proofs.Json.Row
import RecordStore.Search.Fold
import Mathlib.Data.String.Basic

/-!
# What folding makes of rows

Rows are matched by the text of the values in their key and group columns. The text determines the
values (`Value.text_injective`), so rows are matched exactly when these values agree, an absent one
counting as null. `foldEntities_merges` describes the result: one entity for each tuple of values,
in the order in which the tuples first occur, with the last value of every column.

The fold replaces entities in place while it goes over the rows. What holds after each row is
`Folded`; the entities found so far are those of the rows read so far (`Folded.foldRow`).
-/

namespace RecordStore

/-! ### Rows -/

namespace Row

/-- The values of columns of a row, an absent one counting as null. -/
def tuple (columns : List String) (row : Row) : List Value := columns.map row.getOrNull

theorem IsProper.tuple {row : Row} (h : row.IsProper) (columns : List String) :
    (Value.array (row.tuple columns)).isFinite := by
  rw [Value.isFinite, Value.finiteItems_iff]
  intro v hv
  obtain ⟨column, -, rfl⟩ := List.mem_map.1 hv
  rw [getOrNull]
  cases hget : row.get? column with
  | none => rfl
  | some v => exact h.finite _ (mem_of_get? hget)

end Row

/-- Rows have one key exactly when they have one tuple. -/
theorem foldKey_eq_iff {columns : List String} {row row' : Row} (h : row.IsProper)
    (h' : row'.IsProper) :
    foldKey columns row = foldKey columns row' ↔ row.tuple columns = row'.tuple columns := by
  refine ⟨fun hkey => ?_, fun htuple => ?_⟩
  · exact Value.array.inj (Value.text_injective (h.tuple columns) (h'.tuple columns) hkey)
  · exact congrArg (fun t => (Value.array t).text) htuple

/-! ### Entities -/

section Entities

variable {columns : List String} {rows : List Row} {row : Row} {s t : List Value}

/-- The value is that of the last of the rows with a tuple that have the column. -/
def IsLast (columns : List String) (rows : List Row) (t : List Value) (name : String)
    (value : Value) : Prop :=
  ∃ before row after, rows = before ++ row :: after ∧ row.tuple columns = t ∧
    row.get? name = some value ∧
    ∀ later ∈ after, later.tuple columns = t → later.get? name = none

/-- A row with the first tuple stands before all rows with the second. -/
def Precedes (columns : List String) (rows : List Row) (s t : List Value) : Prop :=
  ∃ before row after, rows = before ++ row :: after ∧ row.tuple columns = s ∧
    ∀ earlier ∈ before, earlier.tuple columns ≠ t

/-- The entity that the rows with a tuple make: the last value of each of their columns. -/
structure IsEntity (columns : List String) (rows : List Row) (t : List Value) (entity : Row) :
    Prop where
  proper : entity.IsProper
  get?_iff (name : String) (value : Value) :
    entity.get? name = some value ↔ IsLast columns rows t name value

/-- A further row gives its values to its tuple, and leaves the others of it and the other tuples
    alone. -/
theorem isLast_append {name : String} {value : Value} :
    IsLast columns (rows ++ [row]) t name value ↔
      row.tuple columns = t ∧ row.get? name = some value ∨
      (row.tuple columns = t → row.get? name = none) ∧ IsLast columns rows t name value := by
  constructor
  · rintro ⟨before, found, after, hrows, htuple, hget, hlater⟩
    -- The last of the rows is the further one, or stands before it.
    rcases List.eq_nil_or_concat after with rfl | ⟨after, last, rfl⟩
    · obtain ⟨-, hlast⟩ := List.append_inj' hrows rfl
      obtain rfl := List.head_eq_of_cons_eq hlast
      exact .inl ⟨htuple, hget⟩
    · rw [List.concat_eq_append] at hrows hlater
      rw [← List.cons_append, ← List.append_assoc] at hrows
      obtain ⟨rfl, hlast⟩ := List.append_inj' hrows rfl
      obtain rfl := List.head_eq_of_cons_eq hlast
      obtain ⟨hafter, hrow⟩ := List.forall_mem_append.1 hlater
      exact .inr ⟨hrow row List.mem_cons_self, before, found, after, rfl, htuple, hget, hafter⟩
  · rintro (⟨htuple, hget⟩ | ⟨hrow, before, found, after, rfl, htuple, hget, hlater⟩)
    · exact ⟨rows, row, [], rfl, htuple, hget, nofun⟩
    · refine ⟨before, found, after ++ [row], by simp, htuple, hget, ?_⟩
      exact List.forall_mem_append.2 ⟨hlater, List.forall_mem_singleton.2 hrow⟩

theorem IsLast.exists_tuple {name : String} {value : Value}
    (h : IsLast columns rows t name value) : ∃ row ∈ rows, row.tuple columns = t := by
  obtain ⟨before, row, after, rfl, htuple, -⟩ := h
  exact ⟨row, by simp, htuple⟩

theorem exists_tuple_append :
    (∃ r ∈ rows ++ [row], r.tuple columns = t) ↔
      (∃ r ∈ rows, r.tuple columns = t) ∨ row.tuple columns = t := by
  simp [or_and_right, exists_or]

theorem IsEntity.append_of_ne {entity : Row} (h : IsEntity columns rows t entity)
    (hne : row.tuple columns ≠ t) : IsEntity columns (rows ++ [row]) t entity := by
  refine ⟨h.proper, fun name value => ?_⟩
  rw [h.get?_iff, isLast_append]
  simp [hne]

theorem IsEntity.merge {entity : Row} (h : IsEntity columns rows (row.tuple columns) entity)
    (hrow : row.IsProper) :
    IsEntity columns (rows ++ [row]) (row.tuple columns) (entity.merge row) := by
  refine ⟨h.proper.merge hrow, fun name value => ?_⟩
  rw [Row.get?_merge _ hrow.nodup, isLast_append, ← h.get?_iff, Option.or_eq_some_iff]
  simp

/-- The first row of a tuple is its entity. -/
theorem isEntity_first (hrow : row.IsProper)
    (hnew : ¬ ∃ old ∈ rows, old.tuple columns = row.tuple columns) :
    IsEntity columns (rows ++ [row]) (row.tuple columns) row := by
  refine ⟨hrow, fun name value => ?_⟩
  rw [isLast_append]
  refine ⟨fun hget => .inl ⟨rfl, hget⟩, ?_⟩
  rintro (⟨-, hget⟩ | ⟨-, hlast⟩)
  · exact hget
  · exact absurd hlast.exists_tuple hnew

theorem Precedes.append (h : Precedes columns rows s t) (row : Row) :
    Precedes columns (rows ++ [row]) s t := by
  obtain ⟨before, found, after, rfl, htuple, hearlier⟩ := h
  exact ⟨before, found, after ++ [row], by simp, htuple, hearlier⟩

/-- What holds while rows are folded: the entities found so far are those of the tuples of the rows
    read so far, each kept with the text of its tuple. -/
structure Folded (columns : List String) (rows : List Row) (tuples : List (List Value))
    (entities : List (String × Row)) : Prop where
  nodup : tuples.Nodup
  mem_iff (t : List Value) : t ∈ tuples ↔ ∃ row ∈ rows, row.tuple columns = t
  order : tuples.Pairwise (Precedes columns rows)
  entities : tuples.Forall₂ (fun t entity =>
    entity.1 = (Value.array t).text ∧ IsEntity columns rows t entity.2) entities

variable {tuples : List (List Value)} {entities : List (String × Row)}

namespace Folded

/-- Of the tuples found so far, a row has the key of its own one. -/
theorem key_eq_iff (h : Folded columns rows tuples entities) (hrows : ∀ r ∈ rows, r.IsProper)
    (hrow : row.IsProper) (ht : t ∈ tuples) :
    (Value.array t).text = foldKey columns row ↔ row.tuple columns = t := by
  obtain ⟨old, hold, rfl⟩ := (h.mem_iff t).1 ht
  exact (foldKey_eq_iff (hrows old hold) hrow).trans eq_comm

/-- The key of a row is found exactly when an earlier row has its tuple. -/
theorem any_eq_true_iff (h : Folded columns rows tuples entities)
    (hrows : ∀ r ∈ rows, r.IsProper) (hrow : row.IsProper) :
    entities.any (·.1 = foldKey columns row) = true ↔ row.tuple columns ∈ tuples := by
  have hkeys : tuples.map (fun t => (Value.array t).text) = entities.map (·.1) :=
    map_eq_map_of_forall₂ (h.entities.imp fun _ _ hentity => hentity.1.symm)
  calc entities.any (·.1 = foldKey columns row) = true
      ↔ foldKey columns row ∈ entities.map (·.1) := by simp
    _ ↔ ∃ t ∈ tuples, (Value.array t).text = foldKey columns row := by rw [← hkeys, List.mem_map]
    _ ↔ ∃ t ∈ tuples, row.tuple columns = t :=
      exists_congr fun t => and_congr_right fun ht => h.key_eq_iff hrows hrow ht
    _ ↔ row.tuple columns ∈ tuples := by simp

/-- A row of a known tuple is merged into the entity of it. -/
theorem merge (h : Folded columns rows tuples entities) (hrows : ∀ r ∈ rows, r.IsProper)
    (hrow : row.IsProper) (hknown : row.tuple columns ∈ tuples) :
    Folded columns (rows ++ [row]) tuples (entities.map fun entity =>
      if entity.1 = foldKey columns row then (foldKey columns row, entity.2.merge row)
      else entity) := by
  refine ⟨h.nodup, fun t => ?_, h.order.imp fun hlt => hlt.append row, ?_⟩
  · rw [exists_tuple_append, h.mem_iff]
    refine ⟨.inl, ?_⟩
    rintro (ht | rfl)
    · exact ht
    · exact (h.mem_iff _).1 hknown
  · rw [List.forall₂_map_right_iff]
    refine ((List.forall₂_and_left _ _).2 ⟨fun t ht => ht, h.entities⟩).imp ?_
    rintro t ⟨key, entity⟩ ⟨ht, rfl, hentity⟩
    dsimp only at hentity ⊢
    have hkey := h.key_eq_iff hrows hrow ht
    split_ifs with hmatch
    · obtain rfl := hkey.1 hmatch
      exact ⟨rfl, hentity.merge hrow⟩
    · exact ⟨rfl, hentity.append_of_ne (mt hkey.2 hmatch)⟩

/-- A row of a new tuple is its entity. -/
theorem push (h : Folded columns rows tuples entities) (hrow : row.IsProper)
    (hnew : row.tuple columns ∉ tuples) :
    Folded columns (rows ++ [row]) (tuples ++ [row.tuple columns])
      (entities ++ [(foldKey columns row, row)]) := by
  have hnone := mt (h.mem_iff _).2 hnew
  refine ⟨?_, fun t => ?_, ?_, ?_⟩
  · exact h.nodup.append (List.nodup_singleton _) (List.disjoint_singleton.2 hnew)
  · rw [exists_tuple_append, ← h.mem_iff, List.mem_append, List.mem_singleton, @eq_comm _ t]
  · refine List.pairwise_append.2 ⟨h.order.imp fun hlt => hlt.append row,
      List.pairwise_singleton _ _, fun s hs t ht => ?_⟩
    obtain rfl := List.mem_singleton.1 ht
    obtain ⟨old, hold, rfl⟩ := (h.mem_iff s).1 hs
    -- Any row of the old tuple will do, since no row of the new one has been read.
    obtain ⟨before, after, rfl⟩ := List.append_of_mem hold
    refine ⟨before, old, after ++ [row], by simp, rfl, fun earlier hearlier heq => ?_⟩
    exact hnone ⟨earlier, List.mem_append_left _ hearlier, heq⟩
  · refine List.rel_append ?_ (.cons ⟨rfl, isEntity_first hrow hnone⟩ .nil)
    refine ((List.forall₂_and_left _ _).2 ⟨fun t ht => ht, h.entities⟩).imp ?_
    rintro t entity ⟨ht, hkey, hentity⟩
    exact ⟨hkey, hentity.append_of_ne fun heq => hnew (heq ▸ ht)⟩

/-- One more row. -/
theorem foldRow (h : Folded columns rows tuples entities) (hrows : ∀ r ∈ rows, r.IsProper)
    (hrow : row.IsProper) :
    ∃ tuples, Folded columns (rows ++ [row]) tuples (foldRow columns entities row) := by
  have hany := h.any_eq_true_iff hrows hrow
  rw [RecordStore.foldRow]
  split_ifs with hfound
  · exact ⟨tuples, h.merge hrows hrow (hany.1 hfound)⟩
  · exact ⟨_, h.push hrow (mt hany.2 hfound)⟩

end Folded

/-- All rows, one after the other. -/
theorem exists_folded (hrows : ∀ r ∈ rows, r.IsProper) :
    ∃ tuples, Folded columns rows tuples (rows.foldl (foldRow columns) []) := by
  induction rows using List.reverseRecOn with
  | nil => exact ⟨[], .nil, by simp, .nil, .nil⟩
  | append_singleton rows row ih =>
    obtain ⟨hrows, hrow⟩ := List.forall_mem_append.1 hrows
    obtain ⟨tuples, hfolded⟩ := ih hrows
    rw [List.foldl_append, List.foldl_cons, List.foldl_nil]
    exact hfolded.foldRow hrows (hrow row List.mem_cons_self)

end Entities

/-- Folding makes one entity of each tuple of values in the key and group columns, in the order in
    which the tuples first occur. An absent value counts as null, and values agree only when they
    are the same, `1` and `1.0` and `"1"` being three. The entity of a tuple has exactly the columns
    that rows of the tuple have, each with the value of the last of them that has it.

    Rows are matched by text. That this keeps different tuples apart rests on
    `Value.text_injective`, and for floats on `Double.attracts_shortest`. -/
theorem foldEntities_merges (keys groups : List String) {rows : List Row}
    (hrows : ∀ row ∈ rows, row.IsProper) :
    ∃ tuples : List (List Value), tuples.Nodup ∧
      (∀ t, t ∈ tuples ↔ ∃ row ∈ rows, row.tuple (keys ++ groups) = t) ∧
      tuples.Pairwise (Precedes (keys ++ groups) rows) ∧
      tuples.Forall₂ (IsEntity (keys ++ groups) rows) (foldEntities keys groups rows) := by
  obtain ⟨tuples, hfolded⟩ := @exists_folded (keys ++ groups) rows hrows
  refine ⟨tuples, hfolded.nodup, hfolded.mem_iff, hfolded.order, ?_⟩
  rw [foldEntities, List.forall₂_map_right_iff]
  exact hfolded.entities.imp fun _ _ hentity => hentity.2

/-- Rows that are easily mistaken for each other: an integer, a float and a string of one look, a
    list of strings and a string that looks like it, the zeros. The second of the rows with the
    integer adds a column to the first, and the row without the column joins the one with null. -/
def lookalikes : List Row :=
  [[("id", .int 1), ("name", .string "bolt")],
    [("id", .number (.float ⟨0x3FF0000000000000⟩)), ("name", .string "nut")],
    [("id", .string "1")],
    [("id", .null), ("name", .string "rod")],
    [("id", .int 1), ("size", .int 8)],
    [("name", .string "cap")],
    [("id", .array [.string "a", .string "b"])],
    [("id", .array [.string "a\",\"b"])],
    [("id", .number (.float ⟨0⟩))],
    [("id", .number (.float ⟨0x8000000000000000⟩))],
    [("id", .int 0)]]

theorem lookalikes_merge :
    (∀ row ∈ lookalikes, row.IsProper) ∧ (foldEntities ["id"] [] lookalikes).length = 9 ∧
    ∃ tuples : List (List Value), tuples.Nodup ∧
      (∀ t, t ∈ tuples ↔ ∃ row ∈ lookalikes, row.tuple ["id"] = t) ∧
      tuples.Pairwise (Precedes ["id"] lookalikes) ∧
      tuples.Forall₂ (IsEntity ["id"] lookalikes) (foldEntities ["id"] [] lookalikes) :=
  have hproper : ∀ row ∈ lookalikes, row.IsProper := by decide
  ⟨hproper, by decide +kernel, foldEntities_merges ["id"] [] hproper⟩

example : foldEntities ["id"] [] (lookalikes.take 5) =
    [[("id", .int 1), ("name", .string "bolt"), ("size", .int 8)],
      [("id", .number (.float ⟨0x3FF0000000000000⟩)), ("name", .string "nut")],
      [("id", .string "1")], [("id", .null), ("name", .string "rod")]] := rfl

end RecordStore
