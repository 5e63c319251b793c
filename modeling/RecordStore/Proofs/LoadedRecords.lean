import RecordStore.Proofs.Except
import RecordStore.Proofs.Save.Retry

/-!
# Changes to loaded records

A record that is loaded from a row has no edits. Every property whose value is set to another one is
flagged, and stays flagged when it is set back, so what is not flagged has the value that was loaded
(`Record.SetFrom`).

* A record with a key is written by one statement at most, an update that assigns every flagged
  property outside the key its present value (`TableStore.write_assigns_changes`). No change outside
  the key is lost.
* The row is found by the present values of the key, which are those that were loaded unless the key
  itself was set. A record whose key was set is written to the row of its new key, and the new key
  is not assigned (`Rehearsal.Stage.movedItem_written_elsewhere`).
-/

namespace RecordStore

variable {σ μ : Type}

namespace Record

/-- A record some properties of which have been set. -/
structure SetFrom (names : List String) (before after : Record) : Prop where
  schema : after.schema = before.schema
  flags : before.edited ⊆ after.edited
  flagged : after.edited ⊆ before.edited ++ names
  unflagged : ∀ name ∉ after.edited, after.values.get? name = before.values.get? name
  others : ∀ name ∉ names, after.values.get? name = before.values.get? name

theorem SetFrom.refl (r : Record) : SetFrom [] r r :=
  ⟨rfl, fun _ h => h, by simp, fun _ _ => rfl, fun _ _ => rfl⟩

theorem SetFrom.trans {names names' : List String} {r r' r'' : Record}
    (h : SetFrom names r r') (h' : SetFrom names' r' r'') : SetFrom (names ++ names') r r'' where
  schema := h'.schema.trans h.schema
  flags := fun _ hname => h'.flags (h.flags hname)
  flagged := fun name hname => by
    rw [← List.append_assoc, List.mem_append]
    exact (List.mem_append.1 (h'.flagged hname)).imp_left fun hflag => h.flagged hflag
  unflagged name hname :=
    (h'.unflagged name hname).trans (h.unflagged name fun hflag => hname (h'.flags hflag))
  others name hname := by
    rw [List.mem_append, not_or] at hname
    exact (h'.others name hname.2).trans (h.others name hname.1)

/-- A property that is set to another value is flagged. -/
theorem setFrom_set {name : String} {value : Value} {r r' : Record}
    (h : r.set name value = .ok r') : SetFrom [name] r r' := by
  rw [set] at h
  split at h
  next => cases h
  next =>
    split at h <;> cases h
    next =>
      -- It has that value already, so it is not flagged.
      exact ⟨rfl, fun _ h => h, by simp, fun _ _ => rfl, fun _ _ => rfl⟩
    next =>
      have hothers : ∀ name', name' ≠ name →
          (r.values.insert name value).get? name' = r.values.get? name' :=
        fun _ hname => Row.get?_insert_of_ne _ _ hname
      refine ⟨rfl, fun _ hflag => List.mem_insert_of_mem hflag, fun name' hflag => ?_,
        fun name' hname => ?_, ?_⟩
      · rw [List.mem_append, List.mem_singleton]
        exact (List.mem_insert_iff.1 hflag).symm
      · exact hothers name' fun heq => hname (List.mem_insert_iff.2 (.inl heq))
      · exact fun name' hname => hothers name' (List.ne_of_not_mem_cons hname)

theorem setFrom_setAll {fields : List (String × Value)} {r r' : Record}
    (h : r.setAll fields = .ok r') : SetFrom (fields.map (·.1)) r r' := by
  induction fields generalizing r with
  | nil =>
    cases h
    exact .refl _
  | cons field fields ih =>
    rw [setAll, List.foldlM_cons] at h
    obtain ⟨r₁, hset, hrest⟩ := exists_of_bind_eq_ok h
    exact (setFrom_set hset).trans (ih hrest)

theorem mem_edits_iff {r : Record} {name : String} :
    name ∈ r.edits ↔ name ∈ r.schema.columns ∧ name ∈ r.edited := by
  rw [edits, List.mem_filter, List.contains_iff_mem]

/-- A declared property that does not have the value that it had is among the edits. -/
theorem SetFrom.mem_edits {names : List String} {before r : Record} (h : SetFrom names before r)
    {name : String} (hname : before.schema.contains name = true)
    (hvalue : r.values.get? name ≠ before.values.get? name) : name ∈ r.edits := by
  have hflag : name ∈ r.edited := by
    by_contra hnot
    exact hvalue (h.unflagged name hnot)
  exact mem_edits_iff.2 ⟨h.schema ▸ Schema.contains_iff.1 hname, hflag⟩

end Record

namespace TableStore

variable [Model μ] {t : TableStore σ}

theorem eq_of_mapM_check {names checked : List String}
    (h : names.mapM Identifier.check = .ok checked) : checked = names := by
  have hforall := forall₂_of_mapM_eq_ok h
  clear h
  induction hforall with
  | nil => rfl
  | cons hname _ ih => rw [ih, (Identifier.check_eq_ok_iff.1 hname).2]

theorem eq_of_keyColumns {key : List Value} {columns : List String}
    (h : t.keyColumns key = .ok columns) : columns = t.schema.keys := by
  rw [keyColumns] at h
  split at h
  next => exact eq_of_mapM_check h
  next => cases h

/-- The update that is sent for a model with a key, if something outside the key is edited. -/
theorem statementOf_eq_update {m : μ} (hkey : Model.hasKey m = true)
    (hedits : updateColumns t.schema m ≠ []) {statement : Option SentStatement}
    (h : t.statementOf m = .ok statement) :
    statement = some ((UpdateStatement.mk t.table (updateColumns t.schema m) t.schema.keys).sql,
      ((updateColumns t.schema m).map (fun name => (Model.get? m name).getD .null) ++
        (Model.keyValues m).map (·.2)).map .ofValue) := by
  have hnonempty : (updateColumns t.schema m).isEmpty = false := by simpa using hedits
  simp only [statementOf, hkey, if_true, hnonempty, Bool.false_eq_true, if_false] at h
  obtain ⟨assigned, hassigned, h⟩ := exists_of_bind_eq_ok h
  obtain ⟨keys, hkeys, h⟩ := exists_of_bind_eq_ok h
  cases h
  rw [eq_of_mapM_check hassigned, eq_of_keyColumns hkeys]

/-- The insertion that is sent for a model without a key. -/
theorem statementOf_eq_insert {m : μ} (hkey : Model.hasKey m = false)
    {statement : Option SentStatement} (h : t.statementOf m = .ok statement) :
    statement = some ((InsertStatement.mk t.table ((insertFields t.schema m).map (·.1))).sql,
      (insertFields t.schema m).map (.ofValue ·.2)) := by
  simp only [statementOf, hkey, Bool.false_eq_true, if_false] at h
  obtain ⟨columns, hcolumns, h⟩ := exists_of_bind_eq_ok h
  cases h
  have hnames : columns = (insertFields t.schema m).map (·.1) :=
    eq_of_mapM_check ((List.mapM_map ..).trans hcolumns)
  rw [hnames]

variable {a : Account σ} {m m' : μ} {s s' : σ}

/-- What follows on the statement of a model sends none. -/
theorem settle_silent (hcalls : a.Covers t.connection) {affected : Nat}
    (h : (t.settle m affected).perform (s, m) = (.ok (), s', m')) :
    a.sent s' = a.sent s ∧ a.failed s' = a.failed s := by
  rw [settle] at h
  split at h
  · split at h <;> cases h
    exact ⟨rfl, rfl⟩
  · split at h
    next key hkeys =>
      split at h
      next =>
        simp only [Act.perform_bind, Act.perform_zoom, Lens.fst] at h
        rcases hid : t.connection.lastInsertId.perform s with ⟨_ | id, s₁⟩ <;> rw [hid] at h
        · cases h
        · obtain ⟨hsent, hfailed⟩ := hcalls.lastInsertId.of_ok hid
          simp only [setProperty, Act.perform_make] at h
          split at h <;> cases h
          exact ⟨hsent.trans (List.append_nil _), hfailed⟩
      next =>
        cases h
        exact ⟨rfl, rfl⟩
    next =>
      cases h
      exact ⟨rfl, rfl⟩

/-- A write that succeeds has executed its statement, if there is one, and no call has failed. -/
theorem sent_of_perform_write (hcalls : a.Covers t.connection)
    (hwrite : t.write.perform (s, m) = (.ok (), s', m')) :
    ∃ statement, t.statementOf m = .ok statement ∧ a.sent s' = a.sent s ++ statement.toList ∧
      a.failed s' = a.failed s := by
  rw [perform_write, Act.perform_bind, Act.perform_ofExcept] at hwrite
  rcases hstatement : t.statementOf m with err | _ | statement <;> rw [hstatement] at hwrite
  · cases hwrite
  · cases hwrite
    exact ⟨none, rfl, (List.append_nil _).symm, rfl⟩
  · simp only [send, Act.perform_bind, Act.perform_zoom, Lens.fst] at hwrite
    rcases hexecute : (t.connection.execute statement.1 statement.2).perform s with
      ⟨err | affected, s₁⟩ <;> rw [hexecute] at hwrite
    · cases hwrite
    · obtain ⟨hsent, hfailed⟩ := (hcalls.execute _ _).of_ok hexecute
      obtain ⟨hsent', hfailed'⟩ := settle_silent hcalls hwrite
      exact ⟨some statement, rfl, hsent'.trans hsent, hfailed'.trans hfailed⟩

omit [Model μ] in
/-- A record is loaded, some of its properties are set, and it is written.
    If it has a key and something outside the key does not have its loaded value, one statement is
    executed: an update that assigns every such property its present value, assigns nothing else but
    what was set outside the key, and finds the row by the present key; what was not set of the key
    has its loaded value. If nothing was set outside the key, nothing is executed. A record without
    a key is inserted. No call has failed. -/
theorem write_assigns_changes (hcalls : a.Covers t.connection) {row : Row}
    {fields : List (String × Value)} {r r' : Record}
    (hset : (Record.ofRow t.schema row).setAll fields = .ok r)
    (hwrite : t.write.perform (s, r) = (.ok (), s', r')) :
    (Model.hasKey r = true →
      (∃ name, t.schema.contains name = true ∧ t.schema.isKey name = false ∧
        r.values.get? name ≠ row.get? name) →
      ∃ assigned, a.sent s' = a.sent s ++
          [((UpdateStatement.mk t.table assigned t.schema.keys).sql,
            ((assigned ++ t.schema.keys).map r.values.getOrNull).map .ofValue)] ∧
        (∀ name, t.schema.contains name = true → t.schema.isKey name = false →
          r.values.get? name ≠ row.get? name → name ∈ assigned) ∧
        (∀ name ∈ assigned, t.schema.isKey name = false ∧ name ∈ fields.map (·.1)) ∧
        ∀ key ∈ t.schema.keys, key ∉ fields.map (·.1) →
          r.values.getOrNull key = row.getOrNull key) ∧
    (Model.hasKey r = true → (∀ name ∈ fields.map (·.1), t.schema.isKey name = true) →
      a.sent s' = a.sent s) ∧
    (Model.hasKey r = false → a.sent s' = a.sent s ++
      [((InsertStatement.mk t.table ((insertFields t.schema r).map (·.1))).sql,
        (insertFields t.schema r).map (.ofValue ·.2))]) ∧
    a.failed s' = a.failed s := by
  have hfrom := Record.setFrom_setAll hset
  -- A loaded record has no flags of its own.
  have hset : ∀ name ∈ updateColumns t.schema r,
      t.schema.isKey name = false ∧ name ∈ fields.map (·.1) := by
    intro name hname
    obtain ⟨hedit, hnotKey⟩ := List.mem_filter.1 hname
    have hflag := hfrom.flagged (List.contains_iff_mem.1 (List.mem_filter.1 hedit).2)
    exact ⟨by simpa using hnotKey, by simpa [Record.ofRow] using hflag⟩
  obtain ⟨statement, hstatement, hsent, hfailed⟩ := sent_of_perform_write hcalls hwrite
  refine ⟨fun hkey hchanged => ?_, fun hkey honly => ?_, fun hkey => ?_, hfailed⟩
  · have hmem : ∀ name, t.schema.contains name = true → t.schema.isKey name = false →
        r.values.get? name ≠ row.get? name → name ∈ updateColumns t.schema r :=
      fun name hname hnotKey hvalue =>
        List.mem_filter.2 ⟨hfrom.mem_edits hname hvalue, by simp [hnotKey]⟩
    obtain ⟨name, hname, hnotKey, hvalue⟩ := hchanged
    have hedits : updateColumns t.schema r ≠ [] :=
      List.ne_nil_of_mem (hmem name hname hnotKey hvalue)
    have hkeys : (Model.keyValues r).map (·.2) = t.schema.keys.map r.values.getOrNull := by
      have hschema : Model.schema r = t.schema := hfrom.schema
      rw [Model.keyValues, List.map_map, hschema]
      rfl
    rw [statementOf_eq_update hkey hedits hstatement, hkeys] at hsent
    refine ⟨updateColumns t.schema r, ?_, hmem, hset, fun key _ hunset => ?_⟩
    · rw [hsent, List.map_append (f := r.values.getOrNull)]
      rfl
    · rw [Row.getOrNull, hfrom.others key hunset]
      rfl
  · have hnone : updateColumns t.schema r = [] := by
      refine List.eq_nil_iff_forall_not_mem.2 fun name hname => ?_
      obtain ⟨hnotKey, hfield⟩ := hset name hname
      exact Bool.false_ne_true (hnotKey.symm.trans (honly name hfield))
    simp only [statementOf, hkey, hnone, List.isEmpty_nil, if_true] at hstatement
    cases hstatement
    rw [hsent]
    exact List.append_nil _
  · rw [statementOf_eq_insert hkey hstatement] at hsent
    exact hsent

end TableStore

namespace Rehearsal.Stage

/-- The row of an item. -/
def itemRow : Row := [("id", .int 7), ("name", .string "a")]

/-- An item that was loaded and then renamed is written to the row that it was loaded from. -/
theorem renamedItem_assigns_changes :
    ∃ assigned, account.sent (itemStore.write.perform (({} : Stage), renamedItem)).2.1 =
        [((UpdateStatement.mk "item" assigned ["id"]).sql,
          ((assigned ++ ["id"]).map renamedItem.values.getOrNull).map .ofValue)] ∧
      "name" ∈ assigned ∧ renamedItem.values.getOrNull "id" = itemRow.getOrNull "id" := by
  have hname : renamedItem.values.get? "name" ≠ itemRow.get? "name" := by
    simp [renamedItem, itemRow, Row.get?]
  have hset : (Record.ofRow itemStore.schema itemRow).setAll [("name", .string "b")] =
      .ok renamedItem := by
    rfl
  have hok : (itemStore.write.perform (({} : Stage), renamedItem)).1 = .ok () := by
    decide +kernel
  obtain ⟨hupdates, -⟩ := TableStore.write_assigns_changes (connection_accounted default 0) hset
    (Prod.ext hok rfl)
  obtain ⟨assigned, hsent, hchanges, -, hkey⟩ :=
    hupdates (by decide +kernel) ⟨"name", by decide, by decide, hname⟩
  exact ⟨assigned, hsent, hchanges "name" (by decide) (by decide) hname,
    hkey "id" (by decide) (by decide)⟩

/-- An item that was loaded, renamed, and given another key. -/
def movedItem : Record where
  schema := itemSchema
  values := [("id", .int 8), ("name", .string "b")]
  edited := ["name", "id"]

/-- An item that was given another key is written, but to the row of the new key, and the key itself
    is not. -/
theorem movedItem_written_elsewhere :
    (Record.ofRow itemSchema itemRow).setAll [("id", .int 8), ("name", .string "b")] =
        .ok movedItem ∧
      (itemStore.write.perform (({} : Stage), movedItem)).1 = .ok () ∧
      account.sent (itemStore.write.perform (({} : Stage), movedItem)).2.1 =
        [("UPDATE item SET name = ?1 WHERE id = ?2", [.ofValue (.string "b"), .ofValue (.int 8)])] ∧
      itemRow.getOrNull "id" = .int 7 :=
  ⟨by rfl, by decide +kernel, by decide +kernel, rfl⟩

end Rehearsal.Stage

end RecordStore
