import RecordStore.Proofs.Json.Text
import Mathlib.Data.List.Nodup
import Mathlib.Data.String.Basic

/-!
# Rows

A row that is read from JSON text has its names in order, each once (`Row.IsProper`), and stays so
when columns are set. Of rows that are built from fields it is enough that the names of the fields
differ: each is found under its name then, whatever the order (`Row.get?_merge`).
-/

namespace RecordStore.Row

/-! ### Names that differ -/

theorem lookup_eq_get? (row : Row) (name : String) : row.lookup name = row.get? name := by
  induction row with
  | nil => rfl
  | cons field rest ih =>
    obtain ⟨k, v⟩ := field
    rw [List.lookup_cons, get?, ih]
    by_cases h : k = name
    · simp [h]
    · have hne : (name == k) = false := by simpa using Ne.symm h
      rw [hne, if_neg h]

/-- A name that no column has is absent. -/
theorem get?_eq_none {row : Row} {name : String} (h : name ∉ row.map (·.1)) :
    row.get? name = none := by
  cases hget : row.get? name with
  | none => rfl
  | some value => exact absurd (List.mem_map_of_mem (mem_of_get? hget)) h

/-- Fields that are merged into a row replace those of the same name. -/
theorem get?_merge (row : Row) {fields : Row} (h : (fields.map (·.1)).Nodup) (name : String) :
    (row.merge fields).get? name = (fields.get? name).or (row.get? name) := by
  induction fields generalizing row with
  | nil => rfl
  | cons field fields ih =>
    obtain ⟨k, v⟩ := field
    obtain ⟨hk, hrest⟩ := List.nodup_cons.1 h
    rw [merge, List.foldl_cons, ← merge, ih _ hrest, get?]
    split_ifs with hname
    · subst hname
      rw [get?_eq_none hk, get?_insert_self]
      rfl
    · rw [get?_insert_of_ne _ _ (Ne.symm hname)]

theorem lookup_ofList {fields : List (String × Value)} (h : (fields.map (·.1)).Nodup)
    (name : String) : List.lookup name (ofList fields) = fields.lookup name := by
  rw [lookup_eq_get?, ofList, get?_merge _ h, lookup_eq_get?]
  exact Option.or_none

/-! ### Proper rows -/

/-- A row as it is read from JSON text: names in their order, each once, and finite floats. -/
structure IsProper (row : Row) : Prop where
  ordered : (row.map (·.1)).Pairwise (· < ·)
  finite : ∀ field ∈ row, field.2.isFinite = true

instance (row : Row) : Decidable row.IsProper :=
  decidable_of_iff ((row.map (·.1)).Pairwise (· < ·) ∧ ∀ field ∈ row, field.2.isFinite = true)
    ⟨fun h => ⟨h.1, h.2⟩, fun h => ⟨h.1, h.2⟩⟩

theorem IsProper.nodup {row : Row} (h : row.IsProper) : (row.map (·.1)).Nodup :=
  h.ordered.imp ne_of_lt

theorem mem_insert {row : Row} {name : String} {value : Value} {field : String × Value}
    (h : field ∈ row.insert name value) : field = (name, value) ∨ field ∈ row := by
  induction row with
  | nil => exact .inl (List.mem_singleton.1 h)
  | cons first rest ih =>
    obtain ⟨k, v⟩ := first
    rw [insert] at h
    split_ifs at h
    · exact (List.mem_cons.1 h).imp_right (List.mem_cons_of_mem _)
    · exact List.mem_cons.1 h
    · rcases List.mem_cons.1 h with rfl | h
      · exact .inr List.mem_cons_self
      · exact (ih h).imp_right (List.mem_cons_of_mem _)

/-- A column is set at its place in the order. -/
theorem IsProper.insert {row : Row} (h : row.IsProper) (name : String) {value : Value}
    (hvalue : value.isFinite) : (row.insert name value).IsProper := by
  refine ⟨?_, fun field hfield => ?_⟩
  · have hordered := h.ordered
    clear h
    induction row with
    | nil => exact List.pairwise_singleton _ _
    | cons first rest ih =>
      obtain ⟨k, v⟩ := first
      obtain ⟨hfirst, hrest⟩ := List.pairwise_cons.1 hordered
      rw [Row.insert]
      split_ifs with hname hlt
      · exact List.pairwise_cons.2 ⟨hname ▸ hfirst, hrest⟩
      · refine List.pairwise_cons.2 ⟨fun other hother => ?_, hordered⟩
        rcases List.mem_cons.1 hother with rfl | hother
        · exact hlt
        · exact hlt.trans (hfirst other hother)
      · refine List.pairwise_cons.2 ⟨fun other hother => ?_, ih hrest⟩
        obtain ⟨field, hfield, rfl⟩ := List.mem_map.1 hother
        rcases mem_insert hfield with rfl | hfield
        · exact lt_of_le_of_ne (not_lt.1 hlt) hname
        · exact hfirst _ (List.mem_map_of_mem hfield)
  · rcases mem_insert hfield with rfl | hfield
    · exact hvalue
    · exact h.finite field hfield

theorem IsProper.merge {row fields : Row} (h : row.IsProper) (hfields : fields.IsProper) :
    (row.merge fields).IsProper := by
  have hfinite := hfields.finite
  clear hfields
  induction fields generalizing row with
  | nil => exact h
  | cons field fields ih =>
    obtain ⟨hfield, hfinite⟩ := List.forall_mem_cons.1 hfinite
    exact ih (h.insert field.1 hfield) hfinite

end RecordStore.Row
