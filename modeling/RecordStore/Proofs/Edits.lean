import RecordStore.Proofs.LoadedRecords
import RecordStore.Proofs.Search.Registration

/-!
# Edits of a record

Values and flags of a record are kept apart, and change apart: properties are set, with a flag where
the value changes, and flags are cleared and restored without a look at the values. A *call* is one
of these (`Record.Call`). Whatever the calls,

* flags stand on declared properties only, and all columns that the schema does not declare have
  the values that were loaded (`Record.IsTracked`, kept by every call);
* from any record on, as long as properties are set and nothing else is called, what has another
  value than it had is flagged (`Record.setFrom_after`).

So the edits of a record are some of its columns, in the order of declaration, there are some
exactly if it is edited, and no change since the flags were last cleared or restored is missing
(`Record.edits_tracked`).
-/

namespace RecordStore.Record

/-! ### Calls -/

/-- A call that changes a record. -/
inductive Call where
  | set (name : String) (value : Value)
  /-- Sets a property of a record that is given up if the property is refused. -/
  | build (name : String) (value : Value)
  | clear
  | restore (names : List String)

/-- Whether a call sets a property. -/
def Call.IsSetting : Call → Prop
  | set .. | build .. => True
  | clear | restore _ => False

/-- The record that a call leaves, if it leaves one. -/
def Call.apply : Call → Record → Option Record
  | set name value, r => some ((TableStore.setProperty name value).perform ((), r)).2.2
  | build name value, r => (r.set name value).toOption
  | clear, r => some (Model.clearEdits r)
  | restore names, r => some (Model.restoreEdits names r)

/-- The record that calls leave. -/
def after (r : Record) (calls : List Call) : Option Record :=
  calls.foldlM (fun r call => call.apply r) r

theorem after_append (r : Record) (earlier later : List Call) :
    r.after (earlier ++ later) = (r.after earlier).bind (·.after later) :=
  List.foldlM_append

variable {r r' : Record} {name : String} {value : Value}

theorem set_eq_error (h : name ∉ r.schema.columns) :
    r.set name value = .error (.unknownProperty name) := by
  have hunknown : r.schema.contains name = false := by
    rw [Bool.eq_false_iff, ne_eq, Schema.contains_iff]
    exact h
  rw [set, hunknown]
  rfl

theorem exists_set_eq_ok (value : Value) (h : name ∈ r.schema.columns) :
    ∃ r', r.set name value = .ok r' := by
  rw [set, Schema.contains_iff.2 h]
  split
  next hunknown => cases hunknown
  next => split <;> exact ⟨_, rfl⟩

theorem mem_columns_of_set (h : r.set name value = .ok r') : name ∈ r.schema.columns := by
  by_contra hname
  rw [set_eq_error hname] at h
  cases h

theorem perform_setProperty_of_ok {σ : Type} (h : r.set name value = .ok r') (s : σ) :
    (TableStore.setProperty name value).perform (s, r) = (.ok (), s, r') := by
  have hset : Model.set name value r = .ok r' := h
  simp only [TableStore.setProperty, Act.perform_make, hset]

theorem perform_setProperty_of_error {σ : Type} {e : StoreError} (h : r.set name value = .error e)
    (s : σ) : (TableStore.setProperty name value).perform (s, r) = (.error e, s, r) := by
  have hset : Model.set name value r = .error e := h
  simp only [TableStore.setProperty, Act.perform_make, hset]

/-! ### What a call changes -/

/-- A call that sets a property sets it, or leaves the record as it was. -/
theorem apply_setting {call : Call} (h : call.apply r = some r') (hcall : call.IsSetting) :
    r' = r ∨ ∃ name value, r.set name value = .ok r' := by
  cases call with
  | clear | restore => exact hcall.elim
  | build name value =>
    rw [Call.apply] at h
    cases hset : r.set name value <;> rw [hset] at h <;> cases h
    exact .inr ⟨name, value, hset⟩
  | set name value =>
    rw [Call.apply] at h
    cases hset : r.set name value with
    | error =>
      rw [perform_setProperty_of_error hset] at h
      cases h
      exact .inl rfl
    | ok =>
      rw [perform_setProperty_of_ok hset] at h
      cases h
      exact .inr ⟨name, value, hset⟩

/-- What is true of a loaded record whatever is called on it. -/
structure IsTracked (schema : Schema) (row : Row) (r : Record) : Prop where
  declared : ∀ name ∈ r.edited, name ∈ schema.columns
  undeclared : ∀ name ∉ schema.columns, r.values.get? name = row.get? name
  schema : r.schema = schema

variable {schema : Schema} {row : Row}

theorem isTracked_ofRow : (ofRow schema row).IsTracked schema row :=
  ⟨fun _ h => absurd h List.not_mem_nil, fun _ _ => rfl, rfl⟩

theorem IsTracked.set (h : r.IsTracked schema row) (hset : r.set name value = .ok r') :
    r'.IsTracked schema row := by
  have hname : name ∈ schema.columns := h.schema ▸ mem_columns_of_set hset
  have hfrom := setFrom_set hset
  refine ⟨fun name' hflag => ?_, fun name' hname' => ?_, hfrom.schema.trans h.schema⟩
  · rcases List.mem_append.1 (hfrom.flagged hflag) with hold | hnew
    · exact h.declared name' hold
    · exact List.mem_singleton.1 hnew ▸ hname
  · have hother : name' ∉ [name] := fun hmem => hname' (List.mem_singleton.1 hmem ▸ hname)
    exact (hfrom.others name' hother).trans (h.undeclared name' hname')

theorem IsTracked.apply {call : Call} (h : r.IsTracked schema row)
    (hcall : call.apply r = some r') : r'.IsTracked schema row := by
  cases call with
  | set | build =>
    rcases apply_setting hcall trivial with rfl | ⟨name, value, hset⟩
    · exact h
    · exact h.set hset
  | clear =>
    cases hcall
    exact ⟨fun _ hflag => absurd hflag List.not_mem_nil, h.undeclared, h.schema⟩
  | restore names =>
    -- Any names can be given, but those that are not declared are dropped.
    cases hcall
    refine ⟨fun name hflag => ?_, h.undeclared, h.schema⟩
    rw [← h.schema]
    exact Schema.contains_iff.1 (List.mem_filter.1 hflag).2

/-! ### Runs -/

theorem IsTracked.after {calls : List Call} (h : r.IsTracked schema row)
    (hcalls : r.after calls = some r') : r'.IsTracked schema row := by
  induction calls generalizing r with
  | nil =>
    cases hcalls
    exact h
  | cons call calls ih =>
    rw [Record.after, List.foldlM_cons] at hcalls
    obtain ⟨r₁, hcall, hrest⟩ := Option.bind_eq_some_iff.1 hcalls
    exact ih (h.apply hcall) hrest

/-- As long as properties are set, flags are kept, and what is not flagged keeps its value. -/
theorem setFrom_after {calls : List Call} (hsettings : ∀ call ∈ calls, call.IsSetting)
    (hcalls : r.after calls = some r') : ∃ names, SetFrom names r r' := by
  induction calls generalizing r with
  | nil =>
    cases hcalls
    exact ⟨[], .refl _⟩
  | cons call calls ih =>
    obtain ⟨hsetting, hothers⟩ := List.forall_mem_cons.1 hsettings
    rw [after, List.foldlM_cons] at hcalls
    obtain ⟨r₁, hcall, hrest⟩ := Option.bind_eq_some_iff.1 hcalls
    obtain ⟨names, hfrom⟩ := ih hothers hrest
    rcases apply_setting hcall hsetting with rfl | ⟨name, value, hset⟩
    · -- The property was refused, and the record goes on as it was.
      exact ⟨names, hfrom⟩
    · exact ⟨[name] ++ names, (setFrom_set hset).trans hfrom⟩

/-- No flag is without its property, so whether there are flags can be read off the edits. -/
theorem IsTracked.isEdited_iff (h : r.IsTracked schema row) :
    Model.isEdited r = true ↔ Model.edits r ≠ [] := by
  have hflags : Model.isEdited r = !r.edited.isEmpty := rfl
  have hedits : ∀ name, name ∈ Model.edits r ↔ name ∈ r.edited := by
    intro name
    exact mem_edits_iff.trans (and_iff_right_of_imp fun hflag => h.schema ▸ h.declared name hflag)
  rw [hflags, Bool.not_eq_true', List.isEmpty_eq_false_iff, ne_eq, ne_eq,
    List.eq_nil_iff_forall_not_mem, List.eq_nil_iff_forall_not_mem]
  simp only [hedits]

/-- A record is made of a row, which is empty if the record is new, and calls are made on it.
    * Its edits are some of its columns, each once and in the order of declaration, and it is edited
      exactly if there are any.
    * Let only settings be called after some point, such as the last time that flags were cleared or
      restored, or the start. Then each declared property that has another value than it had at that
      point is among the edits.
    * A column that is not declared has the value that it had in the row, and is not among the
      edits.
    * A property can be set exactly if it is declared; otherwise nothing is changed. -/
theorem edits_tracked (hschema : schema.Made) {calls : List Call}
    (h : (ofRow schema row).after calls = some r) :
    ((Model.edits r).Sublist schema.columns ∧ (Model.edits r).Nodup) ∧
    (Model.isEdited r = true ↔ Model.edits r ≠ []) ∧
    (∀ earlier later, calls = earlier ++ later → (∀ call ∈ later, call.IsSetting) →
      ∃ base, (ofRow schema row).after earlier = some base ∧ ∀ name ∈ schema.columns,
        r.values.get? name ≠ base.values.get? name → name ∈ Model.edits r) ∧
    (∀ name ∉ schema.columns, r.values.get? name = row.get? name ∧ name ∉ Model.edits r) ∧
    ∀ name value,
      (name ∈ schema.columns → ∃ r',
        (TableStore.setProperty name value).perform ((), r) = (.ok (), (), r')) ∧
      (name ∉ schema.columns →
        (TableStore.setProperty name value).perform ((), r) =
          (.error (.unknownProperty name), (), r)) := by
  have htracked := isTracked_ofRow.after h
  have hsublist : (Model.edits r).Sublist schema.columns := htracked.schema ▸ List.filter_sublist
  refine ⟨⟨hsublist, hschema.nodup_columns.sublist hsublist⟩, htracked.isEdited_iff,
    fun earlier later hcalls hsettings => ?_, fun name hname => ?_, fun name value => ?_⟩
  · rw [hcalls, after_append] at h
    obtain ⟨base, hbase, hlater⟩ := Option.bind_eq_some_iff.1 h
    obtain ⟨names, hfrom⟩ := setFrom_after hsettings hlater
    refine ⟨base, hbase, fun name hname hvalue => hfrom.mem_edits ?_ hvalue⟩
    rw [(isTracked_ofRow.after hbase).schema]
    exact Schema.contains_iff.2 hname
  · exact ⟨htracked.undeclared name hname, fun hedit => hname (hsublist.mem hedit)⟩
  · rw [← htracked.schema]
    constructor
    · intro hname
      obtain ⟨r', hset⟩ := exists_set_eq_ok value hname
      exact ⟨r', perform_setProperty_of_ok hset ()⟩
    · exact fun hname => perform_setProperty_of_error (set_eq_error hname) ()

/-- An item that was loaded with the name of its vendor. -/
def boughtItem : Record :=
  ofRow Rehearsal.Stage.itemSchema (Rehearsal.Stage.itemRow ++ [("vendor.name", .string "v")])

/-- The item is renamed, its key is flagged instead, and it is renamed again, while the name of its
    vendor cannot be set. -/
theorem boughtItem_tracked :
    ∃ r, boughtItem.after [.set "name" (.string "b"), .restore ["color", "id"],
        .set "vendor.name" (.string "w"), .build "name" (.string "c")] = some r ∧
      Rehearsal.Stage.itemSchema.Made ∧ r.values.get? "name" = some (.string "c") ∧
      "name" ∈ Model.edits r ∧ Model.isEdited r = true ∧
      r.values.get? "vendor.name" = some (.string "v") := by
  have hschema : Rehearsal.Stage.itemSchema.Made := by
    have hlist : Schema.ofList Rehearsal.Stage.itemSchema.properties =
        .ok Rehearsal.Stage.itemSchema := rfl
    exact .ofList hlist
  have hcalls : ∃ r, boughtItem.after [.set "name" (.string "b"), .restore ["color", "id"],
      .set "vendor.name" (.string "w"), .build "name" (.string "c")] = some r ∧
      r.values.get? "name" = some (.string "c") := ⟨_, rfl, rfl⟩
  obtain ⟨r, hr, hname⟩ := hcalls
  obtain ⟨-, hedited, hchanges, hothers, -⟩ := edits_tracked hschema hr
  obtain ⟨base, hbase, hflagged⟩ := hchanges
    [.set "name" (.string "b"), .restore ["color", "id"]] _ rfl (by simp [Call.IsSetting])
  have hbefore : base.values.get? "name" = some (.string "b") := by
    cases hbase
    rfl
  have hedit : "name" ∈ Model.edits r := by
    refine hflagged "name" (by decide) ?_
    rw [hname, hbefore]
    simp
  exact ⟨r, hr, hschema, hname, hedit, hedited.2 (List.ne_nil_of_mem hedit),
    (hothers "vendor.name" (by decide)).1⟩

end RecordStore.Record
