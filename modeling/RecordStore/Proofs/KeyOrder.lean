import RecordStore.Proofs.RowCalls

/-!
# The order of a key

A model brings its own schema, which may declare the columns of a key in another order than the
schema of the table does. An insertion asks a model for its values by name. An update does not: it
takes the values of the model's key in the model's order, and compares the columns of the table's
key with them in the table's order.

So the update finds the row of the model exactly if the two lists of values are the same
(`TableStore.update_binds_key_by_place`). That is so for one and the same order, and otherwise only
by chance: bolts whose schema declares the key the other way round are not found
(`Rehearsal.Stage.swappedBolts_misplaced`).
-/

namespace RecordStore

variable {σ μ α : Type}

/-! ### What a statement binds -/

/-- What a token has in the place of a placeholder. -/
def Token.slot? : Token α → Option α
  | slot a => some a
  | _ => none

/-- What tokens have in the places of placeholders, in their order. -/
def slotsIn (ts : List (Token α)) : List α := ts.filterMap Token.slot?

theorem slotsIn_append (ts us : List (Token α)) :
    slotsIn (ts ++ us) = slotsIn ts ++ slotsIn us := List.filterMap_append

theorem slotsIn_intercalate {sep : List (Token α)} (hsep : slotsIn sep = [])
    (fields : List (String × α)) :
    slotsIn (sep.intercalate (fields.map fieldTokens)) = fields.map (·.2) := by
  have hfield : ∀ field : String × α, slotsIn (fieldTokens field) = [field.2] := fun _ => rfl
  cases fields with
  | nil => rfl
  | cons field rest =>
    have hrest : slotsIn ((rest.map fieldTokens).flatMap (sep ++ ·)) = rest.map (·.2) := by
      rw [slotsIn, List.filterMap_flatMap, List.flatMap_map, List.map_eq_flatMap]
      refine List.flatMap_congr fun other _ => ?_
      rw [← slotsIn, slotsIn_append, hsep, hfield, List.nil_append]
    rw [List.map_cons, intercalate_cons, slotsIn_append, hfield, hrest]
    rfl

/-- An update binds the values that it assigns, and then those of the key. -/
theorem slotsIn_updateTokens (table : String) (assigned keys : List (String × α)) :
    slotsIn (updateTokens table assigned keys) = assigned.map (·.2) ++ keys.map (·.2) := by
  simp only [updateTokens, slotsIn_append]
  rw [slotsIn_intercalate rfl, slotsIn_intercalate rfl, List.append_assoc, List.append_assoc]
  rfl

namespace TableStore

/-- The update of a model with edits outside its key compares each column of the table's key with
    the value that stands in its place in the model's key. So it compares every column with the
    model's value of that column exactly if the values stand in the same order. -/
theorem update_binds_key_by_place [Model μ] {t : TableStore σ} (ht : t.compiler.IsMade) {m : μ}
    (hschema : (Model.schema m).Made) (hkeys : (Model.schema m).keys.Perm t.schema.keys)
    (hkey : Model.hasKey m = true)
    (hdeclared : ∀ name ∈ Model.edits m, (Model.schema m).contains name = true)
    (hedited : ∃ name ∈ Model.edits m, t.schema.isKey name = false) (s : σ) :
    ∃ statement outcome, t.writeCalls s m = [.execute statement outcome] ∧
      statement.Binds (updateTokens t.table (Model.bound m (updateColumns t.schema m))
        (t.schema.keys.zip (((Model.schema m).keys.map (Model.param m)).map some))) ∧
      (statement.Binds (updateTokens t.table (Model.bound m (updateColumns t.schema m))
          (Model.bound m t.schema.keys)) ↔
        (Model.schema m).keys.map (Model.param m) = t.schema.keys.map (Model.param m)) := by
  have hassigned : AllNamed (updateColumns t.schema m) := fun name hname =>
    hschema.isValid (hdeclared name (List.mem_filter.1 hname).1)
  have hedits : updateColumns t.schema m ≠ [] := by
    obtain ⟨name, hname, hnotKey⟩ := hedited
    exact List.ne_nil_of_mem (List.mem_filter.2 ⟨hname, by simp [hnotKey]⟩)
  obtain ⟨statement, hstatement, hbinds⟩ :=
    statementOf_updates ht hkey hkeys.length_eq hassigned hedits
  obtain ⟨outcome, hcalls⟩ := (t.write_course s m).calls_of_hasKey hkey hstatement
  refine ⟨statement, outcome, hcalls, hbinds, fun hown => ?_, fun hsame => ?_⟩
  · -- A statement reads in one way only, so both readings bind the same values.
    have hslots := congrArg slotsIn (hbinds.reads.symm.trans hown.reads)
    have hlength : (((Model.schema m).keys.map (Model.param m)).map some).length ≤
        t.schema.keys.length := by
      rw [List.length_map, List.length_map, hkeys.length_eq]
    rw [slotsIn_updateTokens, slotsIn_updateTokens, List.append_right_inj,
      List.map_snd_zip hlength, Model.bound, List.map_map, List.map_map] at hslots
    have hsome : Function.Injective (some : Param → Option Param) := fun _ _ => Option.some.inj
    refine List.map_injective_iff.2 hsome ?_
    rw [List.map_map, List.map_map]
    exact hslots
  · rw [hsame, Model.zip_bound] at hbinds
    exact hbinds

end TableStore

namespace Rehearsal.Stage

/-- Bolts that were counted, with the key of the stock declared the other way round. -/
def swappedBolts : Record where
  schema := ⟨[{ name := "sku", isKey := true }, { name := "shop", isKey := true },
    { name := "name" }, { name := "count" }]⟩
  values := countedBolts.values
  edited := countedBolts.edited

theorem swappedBolts_made : swappedBolts.schema.Made :=
  .ofList (by rfl : Schema.ofList swappedBolts.schema.properties = .ok swappedBolts.schema)

/-- Each column is compared with the value of the other one. -/
theorem swappedBolts_bind_by_place :
    swappedBolts.schema.keys.Perm stockSchema.keys ∧ Model.hasKey swappedBolts = true ∧
      (∃ name ∈ swappedBolts.edits, stockSchema.isKey name = false) ∧
      ∃ statement outcome,
        stockStore.writeCalls {} swappedBolts = [.execute statement outcome] ∧
        statement.Binds (updateTokens "stock" (Model.bound swappedBolts ["name", "count"])
          [("shop", some (.text "b-1")), ("sku", some (.integer 4))]) := by
  have hkeys : swappedBolts.schema.keys.Perm stockSchema.keys := by decide
  have hedited : ∃ name ∈ swappedBolts.edits, stockSchema.isKey name = false := by decide
  obtain ⟨statement, outcome, hcalls, hbinds, -⟩ :=
    TableStore.update_binds_key_by_place stockStore_isMade (m := swappedBolts) swappedBolts_made
      hkeys (by decide) (by decide) hedited {}
  exact ⟨hkeys, by decide, hedited, statement, outcome, hcalls, hbinds⟩

/-- The stock of a shop is not looked for in that shop. -/
theorem swappedBolts_misplaced :
    stockStore.compiler.IsMade ∧ swappedBolts.schema.Made ∧
      swappedBolts.schema.keys.Perm stockSchema.keys ∧ Model.hasKey swappedBolts = true ∧
      (∃ name ∈ swappedBolts.edits, stockSchema.isKey name = false) ∧
      ∃ statement, stockStore.writeCalls {} swappedBolts = [.execute statement (.ok 1)] ∧
        statement = ("UPDATE stock SET name = ?1, count = ?2 WHERE shop = ?3 AND sku = ?4",
          [.text "bolt", .integer 90, .text "b-1", .integer 4]) ∧
        ¬ statement.Binds (updateTokens "stock" (Model.bound swappedBolts ["name", "count"])
          (Model.bound swappedBolts ["shop", "sku"])) := by
  refine ⟨stockStore_isMade, swappedBolts_made, by decide, by decide, by decide, _, ?_, rfl, ?_⟩
  · rfl
  · intro hbinds
    exact absurd hbinds.reads (by decide +kernel)

end Rehearsal.Stage

end RecordStore
