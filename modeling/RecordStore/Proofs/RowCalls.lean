import RecordStore.Proofs.RowStatements
import RecordStore.Proofs.Save.Retry

/-!
# What is asked of a connection for a row

A store asks its connection for little when it writes a row: for one statement at most, and then,
if that was an insertion that leaves a single key open, for the key that was generated. All calls of
a connection can be noted, each with its outcome (`Connection.noted`), and there are a few ways that
a write can take, each with its own calls (`TableStore.WriteCourse`).

* The statements bind what they say: each column of the record is put beside the value that the
  record has for it, and each column of a key beside its own value (`TableStore.rowCalls_bind`).
* An insertion lists the columns that have a value (`Record.filled`), and an update the edited ones
  outside the key (`Record.changed`), both in the order of declaration.
-/

namespace RecordStore

variable {σ κ μ α : Type}

/-! ### Noted calls -/

/-- A call of a connection, with its outcome. -/
inductive RowCall where
  | execute (statement : SentStatement) (outcome : Except StoreError Nat)
  | select (statement : SentStatement) (outcome : Except StoreError (List Row))
  | lastInsertId (outcome : Except StoreError Int)
  /-- A call about a transaction or a lock. -/
  | control (outcome : Except StoreError Unit)

/-- An action whose outcome is noted behind what was noted before. -/
def Act.noting (note : Except StoreError α → κ) (f : Act σ α) : Act (σ × List κ) α :=
  Act.make fun (s, notes) =>
    let (r, s') := f.perform s
    (r, s', notes ++ [note r])

theorem Act.perform_noting (note : Except StoreError α → κ) (f : Act σ α) (s : σ)
    (notes : List κ) :
    (f.noting note).perform (s, notes) =
      ((f.perform s).1, (f.perform s).2, notes ++ [note (f.perform s).1]) := rfl

/-- The connection with all of its calls noted. -/
def Connection.noted (c : Connection σ) : Connection (σ × List RowCall) where
  id := c.id
  inTransaction p := c.inTransaction p.1
  begin := c.begin.noting .control
  commit := c.commit.noting .control
  rollback := c.rollback.noting .control
  execute sql params := (c.execute sql params).noting (.execute (sql, params))
  select sql params := (c.select sql params).noting (.select (sql, params))
  lastInsertId := c.lastInsertId.noting .lastInsertId
  takeLock name := (c.takeLock name).noting .control
  freeLock name := (c.freeLock name).noting .control
  lockTables names := (c.lockTables names).noting .control
  unlockTables := c.unlockTables.noting .control

namespace TableStore

/-- The store on such a connection. -/
def noted (t : TableStore σ) : TableStore (σ × List RowCall) where
  connection := t.connection.noted
  compiler := t.compiler

section Noted

variable (t : TableStore σ)

theorem table_noted : t.noted.table = t.table := rfl

theorem execute_noted (sql : String) (params : List Param) :
    t.noted.connection.execute sql params =
      (t.connection.execute sql params).noting (.execute (sql, params)) := rfl

theorem select_noted (sql : String) (params : List Param) :
    t.noted.connection.select sql params =
      (t.connection.select sql params).noting (.select (sql, params)) := rfl

theorem lastInsertId_noted : t.noted.connection.lastInsertId =
    t.connection.lastInsertId.noting .lastInsertId := rfl

theorem keyColumns_noted (key : List Value) : t.noted.keyColumns key = t.keyColumns key := rfl

theorem statementOf_noted [Model μ] (m : μ) : t.noted.statementOf m = t.statementOf m := rfl

end Noted

/-- The calls that are made when a row is looked up. -/
def lookupCalls (t : TableStore σ) (key : List Value) (s : σ) : List RowCall :=
  ((t.noted.lookup key).perform (s, [])).2.2

section Write

variable [Model μ]

/-- The calls that are made when a model is written. -/
def writeCalls (t : TableStore σ) (s : σ) (m : μ) : List RowCall :=
  (t.noted.write.perform ((s, []), m)).2.1.2

/-- The one key that was left open, so that its value is generated. -/
def OpenKey (t : TableStore σ) (m : μ) (key : String) : Prop :=
  t.schema.keys = [key] ∧ ((Model.get? m key).getD .null).isNull = true

/-- The ways of a write: its result, the world and the model that it leaves, and its calls. -/
inductive WriteCourse (t : TableStore σ) (s : σ) (m : μ) :
    Except StoreError Unit × σ × μ → List RowCall → Prop
  /-- There can be no statement for the model. -/
  | refused {e : StoreError} : t.statementOf m = .error e → WriteCourse t s m (.error e, s, m) []
  /-- Nothing is to be changed. -/
  | idle : t.statementOf m = .ok none → WriteCourse t s m (.ok (), s, m) []
  | failed {statement : SentStatement} {e : StoreError} {s' : σ} :
    t.statementOf m = .ok (some statement) →
    (t.connection.execute statement.1 statement.2).perform s = (.error e, s') →
    WriteCourse t s m (.error e, s', m) [.execute statement (.error e)]
  /-- There is no row with the key of the model. -/
  | missing {statement : SentStatement} {s' : σ} :
    t.statementOf m = .ok (some statement) → Model.hasKey m = true →
    (t.connection.execute statement.1 statement.2).perform s = (.ok 0, s') →
    WriteCourse t s m
      (.error (.notFound t.table
        (",".intercalate (((Model.keyValues m).map (·.2)).map (·.plainText)))), s', m)
      [.execute statement (.ok 0)]
  | updated {statement : SentStatement} {affected : Nat} {s' : σ} :
    t.statementOf m = .ok (some statement) → Model.hasKey m = true → affected ≠ 0 →
    (t.connection.execute statement.1 statement.2).perform s = (.ok affected, s') →
    WriteCourse t s m (.ok (), s', m) [.execute statement (.ok affected)]
  | inserted {statement : SentStatement} {affected : Nat} {s' : σ} :
    t.statementOf m = .ok (some statement) → Model.hasKey m = false → (∀ key, ¬ t.OpenKey m key) →
    (t.connection.execute statement.1 statement.2).perform s = (.ok affected, s') →
    WriteCourse t s m (.ok (), s', m) [.execute statement (.ok affected)]
  /-- The generated key could not be read. -/
  | unnumbered {statement : SentStatement} {affected : Nat} {key : String} {e : StoreError}
      {s₁ s' : σ} :
    t.statementOf m = .ok (some statement) → Model.hasKey m = false → t.OpenKey m key →
    (t.connection.execute statement.1 statement.2).perform s = (.ok affected, s₁) →
    t.connection.lastInsertId.perform s₁ = (.error e, s') →
    WriteCourse t s m (.error e, s', m)
      [.execute statement (.ok affected), .lastInsertId (.error e)]
  /-- The model refused the generated key. -/
  | unset {statement : SentStatement} {affected : Nat} {key : String} {id : Int} {e : StoreError}
      {s₁ s' : σ} :
    t.statementOf m = .ok (some statement) → Model.hasKey m = false → t.OpenKey m key →
    (t.connection.execute statement.1 statement.2).perform s = (.ok affected, s₁) →
    t.connection.lastInsertId.perform s₁ = (.ok id, s') → Model.set key (.int id) m = .error e →
    WriteCourse t s m (.error e, s', m)
      [.execute statement (.ok affected), .lastInsertId (.ok id)]
  /-- The generated key was put into the model. -/
  | numbered {statement : SentStatement} {affected : Nat} {key : String} {id : Int} {m' : μ}
      {s₁ s' : σ} :
    t.statementOf m = .ok (some statement) → Model.hasKey m = false → t.OpenKey m key →
    (t.connection.execute statement.1 statement.2).perform s = (.ok affected, s₁) →
    t.connection.lastInsertId.perform s₁ = (.ok id, s') → Model.set key (.int id) m = .ok m' →
    WriteCourse t s m (.ok (), s', m')
      [.execute statement (.ok affected), .lastInsertId (.ok id)]

theorem settle_of_hasKey (t : TableStore σ) {m : μ} (hkey : Model.hasKey m = true)
    {affected : Nat} (hrow : affected ≠ 0) : t.settle m affected = pure () := by
  rw [settle, if_pos hkey, if_neg hrow]

theorem settle_missing (t : TableStore σ) {m : μ} (hkey : Model.hasKey m = true) :
    t.settle m 0 = Act.fail (.notFound t.table
      (",".intercalate (((Model.keyValues m).map (·.2)).map (·.plainText)))) := by
  rw [settle, if_pos hkey, if_pos rfl]

theorem settle_of_openKey (t : TableStore σ) {m : μ} {key : String}
    (hkey : Model.hasKey m = false) (hopen : t.OpenKey m key) (affected : Nat) :
    t.settle m affected =
      t.connection.lastInsertId.zoom .fst >>= fun id => setProperty key (.int id) := by
  rw [settle, if_neg (Bool.eq_false_iff.1 hkey), hopen.1]
  exact if_pos hopen.2

theorem settle_of_not_openKey (t : TableStore σ) {m : μ} (hkey : Model.hasKey m = false)
    (hclosed : ∀ key, ¬ t.OpenKey m key) (affected : Nat) : t.settle m affected = pure () := by
  rw [settle, if_neg (Bool.eq_false_iff.1 hkey)]
  split
  next key hkeys => exact if_neg fun hnull => hclosed key ⟨hkeys, hnull⟩
  next => rfl

/-- A write takes one of these ways, and it takes the same one if its calls are noted. -/
theorem exists_course (t : TableStore σ) (s : σ) (m : μ) :
    ∃ r s' m' calls, t.write.perform (s, m) = (r, s', m') ∧
      t.noted.write.perform ((s, []), m) = (r, (s', calls), m') ∧
      WriteCourse t s m (r, s', m') calls := by
  rw [perform_write, perform_write, Act.perform_bind, Act.perform_bind, Act.perform_ofExcept,
    Act.perform_ofExcept, statementOf_noted]
  rcases hstatement : t.statementOf m with e | _ | statement
  · exact ⟨_, _, _, _, rfl, rfl, .refused hstatement⟩
  · exact ⟨_, _, _, _, rfl, rfl, .idle hstatement⟩
  -- The connection is asked for the statement, and what follows depends on its answer.
  simp only [send, Act.perform_bind, Act.perform_zoom, Lens.fst, execute_noted, Act.perform_noting,
    List.nil_append]
  rcases hexecute : (t.connection.execute statement.1 statement.2).perform s with
    ⟨e | affected, s₁⟩
  · exact ⟨_, _, _, _, rfl, rfl, .failed hstatement hexecute⟩
  dsimp only
  cases hkey : Model.hasKey m with
  | true =>
    by_cases hrow : affected = 0
    · subst hrow
      rw [t.settle_missing hkey, t.noted.settle_missing hkey]
      exact ⟨_, _, _, _, rfl, rfl, .missing hstatement hkey hexecute⟩
    · rw [t.settle_of_hasKey hkey hrow, t.noted.settle_of_hasKey hkey hrow]
      exact ⟨_, _, _, _, rfl, rfl, .updated hstatement hkey hrow hexecute⟩
  | false =>
    by_cases hopen : ∃ key, t.OpenKey m key
    · obtain ⟨key, hopen⟩ := hopen
      rw [t.settle_of_openKey hkey hopen, t.noted.settle_of_openKey hkey hopen]
      simp only [Act.perform_bind, Act.perform_zoom, Lens.fst, lastInsertId_noted,
        Act.perform_noting]
      rcases hid : t.connection.lastInsertId.perform s₁ with ⟨e | id, s'⟩
      · exact ⟨_, _, _, _, rfl, rfl, .unnumbered hstatement hkey hopen hexecute hid⟩
      · simp only [setProperty, Act.perform_make]
        rcases hset : Model.set key (.int id) m with e | m'
        · exact ⟨_, _, _, _, rfl, rfl, .unset hstatement hkey hopen hexecute hid hset⟩
        · exact ⟨_, _, _, _, rfl, rfl, .numbered hstatement hkey hopen hexecute hid hset⟩
    · have hclosed := not_exists.1 hopen
      rw [t.settle_of_not_openKey hkey hclosed, t.noted.settle_of_not_openKey hkey hclosed]
      exact ⟨_, _, _, _, rfl, rfl, .inserted hstatement hkey hclosed hexecute⟩

theorem write_course (t : TableStore σ) (s : σ) (m : μ) :
    WriteCourse t s m (t.write.perform (s, m)) (t.writeCalls s m) := by
  obtain ⟨r, s', m', calls, hwrite, hnoted, hcourse⟩ := t.exists_course s m
  rw [writeCalls, hwrite, hnoted]
  exact hcourse

namespace WriteCourse

variable {t : TableStore σ} {s : σ} {m : μ} {out : Except StoreError Unit × σ × μ}
  {calls : List RowCall} {statement : SentStatement}

/-- Nothing is asked where nothing is to be changed. -/
theorem calls_of_none (h : WriteCourse t s m out calls) (hnone : t.statementOf m = .ok none) :
    calls = [] := by
  cases h with
  | refused | idle => rfl
  | failed hstatement | missing hstatement | updated hstatement | inserted hstatement
  | unnumbered hstatement | unset hstatement | numbered hstatement =>
    cases hnone.symm.trans hstatement

/-- A model with a key is written by one call. -/
theorem calls_of_hasKey (h : WriteCourse t s m out calls) (hkey : Model.hasKey m = true)
    (hsome : t.statementOf m = .ok (some statement)) :
    ∃ outcome, calls = [.execute statement outcome] := by
  cases h with
  | refused hstatement | idle hstatement => cases hsome.symm.trans hstatement
  | failed hstatement | missing hstatement | updated hstatement | inserted hstatement =>
    cases hsome.symm.trans hstatement
    exact ⟨_, rfl⟩
  | unnumbered _ hnew | unset _ hnew | numbered _ hnew => cases hkey.symm.trans hnew

/-- A model without a key is written by one call, and the generated key is read if that has
    succeeded and a single key was left open. -/
theorem calls_of_new (h : WriteCourse t s m out calls) (hnew : Model.hasKey m = false)
    (hsome : t.statementOf m = .ok (some statement)) :
    ∃ outcome after, calls = .execute statement outcome :: after ∧
      (after ≠ [] → ∃ id, after = [.lastInsertId id]) ∧
      (after ≠ [] ↔ (∃ affected, outcome = .ok affected) ∧ ∃ key, t.OpenKey m key) := by
  cases h with
  | refused hstatement | idle hstatement => cases hsome.symm.trans hstatement
  | missing _ hkey | updated _ hkey => cases hkey.symm.trans hnew
  | failed hstatement =>
    cases hsome.symm.trans hstatement
    exact ⟨_, [], rfl, by simp, by simp⟩
  | inserted hstatement _ hclosed =>
    cases hsome.symm.trans hstatement
    exact ⟨_, [], rfl, by simp, by simp [hclosed]⟩
  | unnumbered hstatement _ hopen | unset hstatement _ hopen | numbered hstatement _ hopen =>
    cases hsome.symm.trans hstatement
    exact ⟨_, _, rfl, fun _ => ⟨_, rfl⟩, by simpa using ⟨_, hopen⟩⟩

end WriteCourse

end Write

end TableStore

/-! ### Columns with their values -/

namespace Model

variable [Model μ]

/-- The value of a property as it is bound, null if there is none. -/
def param (m : μ) (name : String) : Param := .ofValue ((get? m name).getD .null)

/-- Some columns, each with the value that the model has for it. -/
def bound (m : μ) (columns : List String) : List (String × Option Param) :=
  columns.map fun name => (name, some (param m name))

theorem zip_bound (m : μ) (columns : List String) :
    columns.zip ((columns.map (param m)).map some) = bound m columns := by
  rw [bound, List.map_map, ← List.zip_map', List.map_id']
  rfl

end Model

namespace Record

/-- The columns that have a value to be inserted; a null key is left out. -/
def filled (r : Record) : List String :=
  r.schema.columns.filter fun name =>
    (r.values.get? name).any fun v => !(r.schema.isKey name && v.isNull)

/-- The edited columns outside the key. -/
def changed (r : Record) : List String :=
  r.schema.columns.filter fun name => r.edited.contains name && !r.schema.isKey name

theorem insertFields_eq {r : Record} (hcolumns : r.schema.columns.Nodup) :
    TableStore.insertFields r.schema r =
      r.filled.map fun name => (name, (Model.get? r name).getD .null) := by
  rw [filled, Schema.columns, List.filter_map, List.map_map, ← List.filterMap_eq_map,
    List.filterMap_filter, TableStore.insertFields]
  refine List.filterMap_congr fun p hp => ?_
  have hget : Model.get? r p.name = r.values.get? p.name := rfl
  -- An insertion asks the property whether it is a key, which is the same as asking for its name.
  simp only [hget, Function.comp_apply, Schema.isKey_name hcolumns hp]
  cases r.values.get? p.name with
  | none => rfl
  | some v => cases p.isKey <;> cases hnull : v.isNull <;> simp [hnull]

theorem updateColumns_eq (r : Record) : TableStore.updateColumns r.schema r = r.changed := by
  have hedits : Model.edits r = r.edits := rfl
  rw [TableStore.updateColumns, hedits, edits, List.filter_filter, changed]
  simp only [Bool.and_comm]

end Record

namespace TableStore

/-! ### Statements for a model -/

theorem mapM_check_of_allNamed {names : List String} (h : AllNamed names) :
    names.mapM Identifier.check = .ok names := by
  induction names with
  | nil => rfl
  | cons name rest ih =>
    obtain ⟨hname, hrest⟩ := List.forall_mem_cons.1 h
    rw [List.mapM_cons, Identifier.check_of_isValid hname, ih hrest]
    rfl

theorem allNamed_columns {schema : Schema} (h : schema.Made) : AllNamed schema.columns := by
  intro name hname
  obtain ⟨p, hp, rfl⟩ := List.mem_map.1 hname
  exact h.isValid_name p hp

theorem allNamed_keys {schema : Schema} (h : schema.Made) : AllNamed schema.keys :=
  fun _ hname => h.isValid (Schema.contains_of_mem_keys hname)

section Statements

variable {t : TableStore σ} (ht : t.compiler.IsMade)

include ht

theorem keyColumns_of_length {key : List Value} (hlength : t.schema.keys.length = key.length) :
    t.keyColumns key = .ok t.schema.keys := by
  have hnames : AllNamed t.schema.keys := allNamed_keys ht.schema
  rw [keyColumns, if_pos hlength, mapM_check_of_allNamed hnames]

/-- A model with a key is updated in the columns that were edited. The columns of the table's key
    are compared with the values of the model's own key, one after the other. -/
theorem statementOf_updates [Model μ] {m : μ} (hkey : Model.hasKey m = true)
    (hlength : (Model.schema m).keys.length = t.schema.keys.length)
    (hassigned : AllNamed (updateColumns t.schema m)) (hedits : updateColumns t.schema m ≠ []) :
    ∃ statement : SentStatement, t.statementOf m = .ok (some statement) ∧
      statement.Binds (updateTokens t.table (Model.bound m (updateColumns t.schema m))
        (t.schema.keys.zip (((Model.schema m).keys.map (Model.param m)).map some))) := by
  have hkeyLength : t.schema.keys.length = ((Model.keyValues m).map (·.2)).length := by
    rw [List.length_map, Model.keyValues, List.length_map, hlength]
  have hbinds := UpdateStatement.binds (s := ⟨t.table, updateColumns t.schema m, t.schema.keys⟩)
    ht.built.table hassigned (allNamed_keys ht.schema) (List.length_map (Model.param m))
    ((List.length_map (Model.param m)).trans hlength)
  rw [Model.zip_bound] at hbinds
  refine ⟨_, ?_, hbinds⟩
  have hnonempty : (updateColumns t.schema m).isEmpty = false := by simpa using hedits
  -- The values are bound as they are numbered, those of the key behind the assigned ones.
  have hvalues : ((updateColumns t.schema m).map (fun name => (Model.get? m name).getD .null) ++
        (Model.keyValues m).map (·.2)).map Param.ofValue =
      (updateColumns t.schema m).map (Model.param m) ++
        (Model.schema m).keys.map (Model.param m) := by
    rw [List.map_append, Model.keyValues, List.map_map, List.map_map, List.map_map]
    rfl
  simp only [statementOf, hkey, hnonempty, mapM_check_of_allNamed hassigned,
    keyColumns_of_length ht hkeyLength, hvalues]
  rfl

variable {r : Record} (hr : r.schema = t.schema)

include hr

/-- A record without a key is inserted with the columns that have a value. -/
theorem statementOf_inserts_record (hkey : Model.hasKey r = false) :
    ∃ statement : SentStatement, t.statementOf r = .ok (some statement) ∧
      statement.Binds (insertTokens t.table (Model.bound r r.filled)) := by
  have hschema : r.schema.Made := hr ▸ ht.schema
  have hnames : AllNamed r.filled := fun name hname =>
    allNamed_columns hschema name (List.mem_filter.1 hname).1
  have hfields := Record.insertFields_eq hschema.nodup_columns
  rw [hr] at hfields
  have hcolumns : (insertFields t.schema r).mapM (Identifier.check ·.1) = .ok r.filled := by
    rw [hfields, List.mapM_map]
    exact mapM_check_of_allNamed hnames
  have hvalues : (insertFields t.schema r).map (fun field => Param.ofValue field.2) =
      r.filled.map (Model.param r) := by
    rw [hfields, List.map_map]
    rfl
  have hbinds := InsertStatement.binds (s := ⟨t.table, r.filled⟩) ht.built.table hnames
    (List.length_map (Model.param r))
  rw [Model.zip_bound] at hbinds
  refine ⟨_, ?_, hbinds⟩
  simp only [statementOf, hkey, hcolumns, hvalues]
  rfl

/-- A record has the key of its table, so each column of it is compared with its own value. -/
theorem statementOf_updates_record (hkey : Model.hasKey r = true) (hchanged : r.changed ≠ []) :
    ∃ statement : SentStatement, t.statementOf r = .ok (some statement) ∧
      statement.Binds (updateTokens t.table (Model.bound r r.changed)
        (Model.bound r t.schema.keys)) := by
  have hedited : updateColumns t.schema r = r.changed := hr ▸ r.updateColumns_eq
  have hown : Model.schema r = t.schema := hr
  have hassigned : AllNamed r.changed := fun name hname =>
    allNamed_columns (hr ▸ ht.schema) name (List.mem_filter.1 hname).1
  have h := statementOf_updates ht hkey (by rw [hown]) (hedited ▸ hassigned) (hedited ▸ hchanged)
  rwa [hedited, hown, Model.zip_bound] at h

omit ht in
/-- Nothing is sent for a record with a key that has no edits outside the key. -/
theorem statementOf_unchanged (hkey : Model.hasKey r = true) (hchanged : r.changed = []) :
    t.statementOf r = .ok none := by
  rw [statementOf, if_pos hkey, ← hr, Record.updateColumns_eq, hchanged]
  rfl

end Statements

/-! ### What is sent -/

theorem lookupCalls_eq {t : TableStore σ} {key : List Value} {columns : List String}
    (hcolumns : t.keyColumns key = .ok columns) (s : σ) :
    ∃ outcome, t.lookupCalls key s =
      [.select ((LookupStatement.mk t.table columns).sql, key.map .ofValue) outcome] := by
  simp only [lookupCalls, lookup, Act.perform_bind, Act.perform_ofExcept, keyColumns_noted,
    hcolumns, select_noted, Act.perform_noting, List.nil_append, table_noted]
  rcases hselect : (t.connection.select (LookupStatement.mk t.table columns).sql
      (key.map .ofValue)).perform s with ⟨e | rows, s'⟩
  · exact ⟨_, rfl⟩
  · exact ⟨_, rfl⟩

/-- The calls of a lookup with a value for each column of the key. -/
theorem lookup_binds {t : TableStore σ} (ht : t.compiler.IsMade) {key : List Value}
    (hlength : key.length = t.schema.keys.length) (s : σ) :
    ∃ statement outcome, t.lookupCalls key s = [.select statement outcome] ∧
      statement.Binds (lookupTokens t.table
        (t.schema.keys.zip (key.map fun v => some (.ofValue v)))) := by
  have hbinds := LookupStatement.binds (s := ⟨t.table, t.schema.keys⟩) ht.built.table
    (allNamed_keys ht.schema) ((List.length_map Param.ofValue).trans hlength)
  rw [List.map_map] at hbinds
  obtain ⟨outcome, hcalls⟩ := lookupCalls_eq (keyColumns_of_length ht hlength.symm) s
  exact ⟨_, outcome, hcalls, hbinds⟩

/-- Every statement that is sent for a record, or for a key, binds what it says.

    *Writing.* A record without a key is inserted: the statement puts the columns that have a value,
    null keys excepted, beside these values. If it was executed and a single key was left open, the
    generated key is read, and otherwise nothing more is asked. A record with a key is updated, if
    anything outside the key was edited: the statement assigns the edited columns their values, and
    finds the row by the values of all columns of the key.

    *Reading.* A key with a value for each column is looked up by one statement, which compares each
    column with its own value. -/
theorem rowCalls_bind {t : TableStore σ} (ht : t.compiler.IsMade) {r : Record}
    (hr : r.schema = t.schema) (s : σ) :
    r.schema.columns.Nodup ∧
    (Model.hasKey r = false → ∃ statement outcome after,
      t.writeCalls s r = .execute statement outcome :: after ∧
      statement.Binds (insertTokens t.table (Model.bound r r.filled)) ∧
      (after ≠ [] → ∃ id, after = [.lastInsertId id]) ∧
      (after ≠ [] ↔ (∃ affected, outcome = .ok affected) ∧
        ∃ key, t.schema.keys = [key] ∧ (r.values.getOrNull key).isNull = true)) ∧
    (Model.hasKey r = true → r.changed = [] → t.writeCalls s r = []) ∧
    (Model.hasKey r = true → r.changed ≠ [] → ∃ statement outcome,
      t.writeCalls s r = [.execute statement outcome] ∧
      statement.Binds (updateTokens t.table (Model.bound r r.changed)
        (Model.bound r t.schema.keys))) ∧
    ∀ key : List Value, key.length = t.schema.keys.length → ∃ statement outcome,
      t.lookupCalls key s = [.select statement outcome] ∧
      statement.Binds (lookupTokens t.table
        (t.schema.keys.zip (key.map fun v => some (.ofValue v)))) := by
  have hcourse := t.write_course s r
  refine ⟨hr ▸ ht.schema.nodup_columns, fun hnew => ?_, fun hkey hchanged => ?_,
    fun hkey hchanged => ?_, fun key hlength => lookup_binds ht hlength s⟩
  · obtain ⟨statement, hstatement, hbinds⟩ := statementOf_inserts_record ht hr hnew
    obtain ⟨outcome, after, hcalls, hid, hread⟩ := hcourse.calls_of_new hnew hstatement
    exact ⟨statement, outcome, after, hcalls, hbinds, hid, hread⟩
  · exact hcourse.calls_of_none (statementOf_unchanged hr hkey hchanged)
  · obtain ⟨statement, hstatement, hbinds⟩ := statementOf_updates_record ht hr hkey hchanged
    obtain ⟨outcome, hcalls⟩ := hcourse.calls_of_hasKey hkey hstatement
    exact ⟨statement, outcome, hcalls, hbinds⟩

end TableStore

/-! ### On a stage -/

namespace Rehearsal.Stage

/-- What is in stock at each shop. -/
def stockSchema : Schema :=
  ⟨[{ name := "shop", isKey := true }, { name := "sku", isKey := true }, { name := "name" },
    { name := "count" }]⟩

/-- The table of what is in stock, on line 0. -/
def stockStore : TableStore Stage where
  connection := connection default 0
  compiler := { table := "stock", schema := stockSchema }

theorem stockStore_isMade : stockStore.compiler.IsMade where
  built := .make (by rfl : QueryCompiler.make "stock" stockSchema = .ok stockStore.compiler)
  schema := .ofList (by rfl : Schema.ofList stockSchema.properties = .ok stockSchema)
  filters _ hf := absurd hf List.not_mem_nil

/-- Bolts that were counted, and then given another name. -/
def countedBolts : Record where
  schema := stockSchema
  values := [("name", .string "bolt"), ("sku", .string "b-1"), ("shop", .int 4), ("count", .int 90)]
  edited := ["count", "name"]

/-- Bolts are updated in the order in which the columns were declared, and not in the one in which
    they were set. -/
theorem countedBolts_bind :
    stockStore.compiler.IsMade ∧ countedBolts.schema = stockStore.schema ∧
      ∃ statement outcome,
        stockStore.writeCalls {} countedBolts = [.execute statement outcome] ∧
        statement.Binds [.word "UPDATE", .word "stock", .word "SET",
          .word "name", .sign "=", .slot (some (.text "bolt")), .mark ',',
          .word "count", .sign "=", .slot (some (.integer 90)), .word "WHERE",
          .word "shop", .sign "=", .slot (some (.integer 4)), .word "AND",
          .word "sku", .sign "=", .slot (some (.text "b-1"))] := by
  obtain ⟨-, -, -, hupdate, -⟩ :=
    TableStore.rowCalls_bind stockStore_isMade (r := countedBolts) rfl {}
  exact ⟨stockStore_isMade, rfl, hupdate (by decide) (by decide)⟩

end Rehearsal.Stage

end RecordStore
