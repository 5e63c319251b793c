import RecordStore.TableStore
import Mathlib.Data.List.Forall2
import Mathlib.Data.List.Nodup

/-!
# What a table store sends

A write comes to one statement at most, and the model alone decides which (`TableStore.statementOf`).
Only after the statement has been executed is the model touched: a single key that had no value takes
the generated one.

* `Record.Written`: what a write makes of a record, whether or not it fails;
* `Record.KeyLike`: records that differ at most in whether null stands for a key that is absent are
  written by the same statement;
* `Account`: what a world keeps of the calls of a connection, and so of what a store has sent
  (`Account.Covers.write`).
-/

namespace RecordStore

variable {σ τ μ α β : Type}

/-- The text of a statement and its parameters. -/
abbrev SentStatement := String × List Param

namespace Act

theorem ofExcept_bind (r : Except StoreError α) (f : α → Except StoreError β) :
    (ofExcept (r >>= f) : Act σ β) = ofExcept r >>= fun a => ofExcept (f a) := by
  cases r <;> rfl

theorem ofExcept_pure_bind (a : α) (f : α → Act σ β) : (ofExcept (pure a) >>= f : Act σ β) = f a :=
  rfl

end Act

namespace TableStore

section Write

variable [Model μ] (t : TableStore σ)

/-- The statement that writes a model; there is none if nothing is to be changed. -/
def statementOf (m : μ) : Except StoreError (Option SentStatement) :=
  if Model.hasKey m then
    let edited := updateColumns t.schema m
    if edited.isEmpty then .ok none
    else do
      let assigned ← edited.mapM Identifier.check
      let key := (Model.keyValues m).map (·.2)
      let keys ← t.keyColumns key
      let values := edited.map fun name => (Model.get? m name).getD .null
      return some ((UpdateStatement.mk t.table assigned keys).sql, (values ++ key).map .ofValue)
  else do
    let fields := insertFields t.schema m
    let columns ← fields.mapM (Identifier.check ·.1)
    return some ((InsertStatement.mk t.table columns).sql, fields.map (.ofValue ·.2))

/-- The statements that write models one after the other, up to the first for which there can be
    none. -/
def statementsOf : List μ → List SentStatement
  | [] => []
  | m :: rest =>
    match t.statementOf m with
    | .error _ => []
    | .ok statement => statement.toList ++ statementsOf rest

/-- What follows on the statement that has written a model. -/
def settle (m : μ) (affected : Nat) : Act (σ × μ) Unit :=
  if Model.hasKey m then
    if affected = 0 then
      Act.fail (.notFound t.table
        (",".intercalate (((Model.keyValues m).map (·.2)).map (·.plainText))))
    else pure ()
  else
    match t.schema.keys with
    | [key] =>
      if ((Model.get? m key).getD .null).isNull then do
        let id ← t.connection.lastInsertId.zoom .fst
        setProperty key (.int id)
      else pure ()
    | _ => pure ()

/-- Executes the statement of a model, if there is one. -/
def send (m : μ) : Option SentStatement → Act (σ × μ) Unit
  | none => pure ()
  | some statement => do
    let affected ← (t.connection.execute statement.1 statement.2).zoom .fst
    t.settle m affected

/-- A write finds its statement and sends it. -/
theorem perform_write (s : σ) (m : μ) :
    t.write.perform (s, m) =
      (do t.send m (← Act.ofExcept (t.statementOf m)) : Act (σ × μ) Unit).perform (s, m) := by
  rw [write, Act.perform_bind, Act.perform_read, statementOf]
  dsimp only
  split
  next hkey =>
    rw [update, Act.perform_bind, Act.perform_read]
    dsimp only
    split
    next => rfl
    next =>
      simp only [Act.ofExcept_bind, bind_assoc, Act.ofExcept_pure_bind, send, settle, hkey, if_true]
  next hkey =>
    rw [insert, Act.perform_bind, Act.perform_read]
    simp only [Act.ofExcept_bind, bind_assoc, Act.ofExcept_pure_bind, send, settle, hkey]
    rfl

end Write

end TableStore

/-! ### Records -/

theorem Schema.isKey_name {schema : Schema} (hcolumns : schema.columns.Nodup) {p : Property}
    (hp : p ∈ schema.properties) : schema.isKey p.name = p.isKey := by
  obtain ⟨q, hq⟩ : ∃ q, schema.find? p.name = some q :=
    Option.isSome_iff_exists.1 (List.find?_isSome.2 ⟨p, hp, decide_eq_true rfl⟩)
  rw [find?] at hq
  have hname : decide (q.name = p.name) = true := by simpa using List.find?_some hq
  have hsame : q = p :=
    List.inj_on_of_nodup_map hcolumns (List.mem_of_find?_eq_some hq) hp (of_decide_eq_true hname)
  rw [isKey, find?, hq, hsame, Option.any_some]

theorem Schema.contains_of_mem_keys {schema : Schema} {name : String} (h : name ∈ schema.keys) :
    schema.contains name = true :=
  contains_iff.2 ((List.filter_sublist.map _).mem h)

namespace Record

/-- A record as a write may leave it: a key that had no value may have one, and nothing else has
    changed but flags. -/
structure Written (before after : Record) : Prop where
  schema : after.schema = before.schema
  values : ∀ name, after.values.get? name = before.values.get? name ∨
    name ∈ before.schema.keys ∧ (before.values.getOrNull name).isNull = true

/-- A record that is the same but for keys where null stands for no value. -/
structure KeyLike (before after : Record) : Prop where
  schema : after.schema = before.schema
  edits : after.edits = before.edits
  values : ∀ name, after.values.get? name = before.values.get? name ∨
    before.schema.isKey name = true ∧ before.values.get? name = none ∧
      after.values.get? name = some .null

theorem Written.refl (r : Record) : r.Written r := ⟨rfl, fun _ => .inl rfl⟩

theorem KeyLike.refl (r : Record) : r.KeyLike r := ⟨rfl, rfl, fun _ => .inl rfl⟩

namespace KeyLike

variable {before after : Record} (h : before.KeyLike after)

include h

theorem getOrNull (name : String) :
    (after.values.get? name).getD .null = (before.values.get? name).getD .null := by
  rcases h.values name with heq | ⟨-, hnone, hnull⟩
  · rw [heq]
  · rw [hnone, hnull]
    rfl

theorem validate : Model.validate after = Model.validate before := by
  change Record.validate after = Record.validate before
  simp only [Record.validate, Row.getOrNull, h.getOrNull, h.schema]

theorem keyValues : Model.keyValues after = Model.keyValues before := by
  change (after.schema.keys.map fun key => (key, (after.values.get? key).getD .null)) =
    before.schema.keys.map fun key => (key, (before.values.get? key).getD .null)
  simp only [h.getOrNull, h.schema]

theorem insertFields (hcolumns : before.schema.columns.Nodup) :
    TableStore.insertFields before.schema after = TableStore.insertFields before.schema before := by
  refine List.filterMap_congr fun p hp => ?_
  have hget : ∀ r : Record, Model.get? r p.name = r.values.get? p.name := fun _ => rfl
  simp only [hget]
  rcases h.values p.name with heq | ⟨hkey, hnone, hnull⟩
  · rw [heq]
  · rw [Schema.isKey_name hcolumns hp] at hkey
    rw [hnone, hnull]
    simp [hkey, Value.isNull]

/-- The statement that writes a record does not tell null from no value in its key. -/
theorem statementOf {t : TableStore σ} (hschema : before.schema = t.schema)
    (hcolumns : t.schema.columns.Nodup) : t.statementOf after = t.statementOf before := by
  have hedits : TableStore.updateColumns t.schema after =
      TableStore.updateColumns t.schema before := congrArg (List.filter _) h.edits
  have hfields := h.insertFields (hschema ▸ hcolumns)
  rw [hschema] at hfields
  have hget : ∀ name, (Model.get? after name).getD .null = (Model.get? before name).getD .null :=
    h.getOrNull
  simp only [TableStore.statementOf, Model.hasKey, h.keyValues, hedits, hfields, hget]

end KeyLike

theorem schemas_keyLike {schema : Schema} {models models' : List Record}
    (h : List.Forall₂ KeyLike models models') (hmodels : ∀ m ∈ models, m.schema = schema) :
    ∀ m ∈ models', m.schema = schema := by
  induction h with
  | nil => exact fun _ hm => absurd hm List.not_mem_nil
  | cons hfirst _ ih =>
    obtain ⟨hschema, hrest⟩ := List.forall_mem_cons.1 hmodels
    exact List.forall_mem_cons.2 ⟨hfirst.schema.trans hschema, ih hrest⟩

/-- Lists of such records are written by the same statements. -/
theorem statementsOf_keyLike {t : TableStore σ} (hcolumns : t.schema.columns.Nodup)
    {models models' : List Record} (hmodels : ∀ m ∈ models, m.schema = t.schema)
    (h : List.Forall₂ KeyLike models models') : t.statementsOf models' = t.statementsOf models := by
  induction h with
  | nil => rfl
  | cons hfirst _ ih =>
    obtain ⟨hschema, hrest⟩ := List.forall_mem_cons.1 hmodels
    simp only [TableStore.statementsOf, hfirst.statementOf hschema hcolumns, ih hrest]

end Record

namespace TableStore

/-- Setting a key leaves the other properties alone. -/
theorem perform_setProperty {r : Record} {key : String} (hkey : key ∈ r.schema.keys) (value : Value)
    (s : σ) :
    ∃ r', (setProperty key value).perform (s, r) = (.ok (), s, r') ∧ r'.schema = r.schema ∧
      ∀ name, name ≠ key → r'.values.get? name = r.values.get? name := by
  have hset : Model.set key value r = r.set key value := rfl
  simp only [setProperty, Act.perform_make, hset, Record.set, Schema.contains_of_mem_keys hkey,
    Bool.not_true, Bool.false_eq_true, if_false]
  split
  next r' heq =>
    refine ⟨r', rfl, ?_⟩
    split at heq <;> cases heq
    · exact ⟨rfl, fun _ _ => rfl⟩
    · exact ⟨rfl, fun _ hname => Row.get?_insert_of_ne _ _ hname⟩
  next heq => split at heq <;> cases heq

/-- Whatever a write comes to, it leaves a written record. -/
theorem write_written (t : TableStore σ) (s : σ) {r : Record}
    (hschema : r.schema = t.schema) : r.Written (t.write.perform (s, r)).2.2 := by
  have hsettle : ∀ s affected, r.Written ((t.settle r affected).perform (s, r)).2.2 := by
    intro s affected
    rw [settle]
    split
    · split <;> exact .refl r
    · split
      next key hkeys =>
        split
        next hnull =>
          rw [Act.perform_bind, Act.perform_zoom]
          rcases t.connection.lastInsertId.perform (Lens.fst.get (s, r)) with ⟨_ | id, s'⟩
          · exact .refl r
          · have hkey : key ∈ r.schema.keys := by rw [hschema, hkeys, List.mem_singleton]
            obtain ⟨r', hset, hsame, hothers⟩ := perform_setProperty hkey (.int id) s'
            simp only [Lens.fst, hset]
            refine ⟨hsame, fun name => ?_⟩
            by_cases hname : name = key
            · exact .inr (hname ▸ ⟨hkey, hnull⟩)
            · exact .inl (hothers name hname)
        next => exact .refl r
      next => exact .refl r
  rw [perform_write, Act.perform_bind, Act.perform_ofExcept]
  rcases t.statementOf r with err | _ | statement
  · exact .refl r
  · exact .refl r
  · simp only [send, Act.perform_bind, Act.perform_zoom]
    rcases (t.connection.execute statement.1 statement.2).perform (Lens.fst.get (s, r)) with
      ⟨_ | affected, s'⟩
    · exact .refl r
    · exact hsettle _ affected

end TableStore

/-! ### Accounts -/

/-- What a world keeps of the calls of a connection: the statements that were executed, in their
    order, and how many calls have failed. -/
structure Account (σ : Type) where
  sent : σ → List SentStatement
  failed : σ → Nat

namespace Account

/-- A call that succeeds enters what it sends, one that fails is counted. -/
structure Enters (a : Account σ) (f : Act σ α) (statements : List SentStatement) : Prop where
  sent : ∀ s, a.sent (f.perform s).2 =
    a.sent s ++ if (f.perform s).1.isOk then statements else []
  failed : ∀ s, a.failed (f.perform s).2 = a.failed s + if (f.perform s).1.isOk then 0 else 1

/-- The account covers the calls of a connection. -/
structure Covers (a : Account σ) (c : Connection σ) : Prop where
  begin : a.Enters c.begin []
  commit : a.Enters c.commit []
  rollback : a.Enters c.rollback []
  execute : ∀ sql params, a.Enters (c.execute sql params) [(sql, params)]
  lastInsertId : a.Enters c.lastInsertId []

/-- A run comes to this result and sends these statements, unless one of its calls fails or a row of
    the table is missing. -/
structure Foresees (a : Account σ) (table : String) (s : σ) (out : Except StoreError Unit × σ)
    (r : Except StoreError Unit) (statements : List SentStatement) : Prop where
  grows : a.failed s ≤ a.failed out.2
  comes : a.failed out.2 = a.failed s → (∀ key, out.1 ≠ .error (.notFound table key)) →
    out.1 = r ∧ a.sent out.2 = a.sent s ++ statements

variable {a : Account σ}

section Enters

variable {f : Act σ α} {statements : List SentStatement} (h : a.Enters f statements) {s s' : σ}

include h

theorem Enters.of_ok {x : α} (hf : f.perform s = (.ok x, s')) :
    a.sent s' = a.sent s ++ statements ∧ a.failed s' = a.failed s := by
  have hsent := h.sent s
  have hfailed := h.failed s
  rw [hf] at hsent hfailed
  exact ⟨hsent, hfailed⟩

theorem Enters.of_error {err : StoreError} (hf : f.perform s = (.error err, s')) :
    a.sent s' = a.sent s ∧ a.failed s' = a.failed s + 1 := by
  have hsent := h.sent s
  have hfailed := h.failed s
  rw [hf] at hsent hfailed
  exact ⟨hsent.trans (List.append_nil _), hfailed⟩

omit h in
/-- A call that sends nothing leaves what was sent as it is. -/
theorem Enters.silent (h : a.Enters f []) (s : σ) :
    a.sent (f.perform s).2 = a.sent s ∧ a.failed s ≤ a.failed (f.perform s).2 := by
  rcases hf : f.perform s with ⟨err | x, s'⟩
  · obtain ⟨hsent, hfailed⟩ := h.of_error hf
    exact ⟨hsent, hfailed ▸ Nat.le_succ _⟩
  · obtain ⟨hsent, hfailed⟩ := h.of_ok hf
    exact ⟨hsent.trans (List.append_nil _), hfailed ▸ Nat.le_refl _⟩

end Enters

section Foresees

variable {table : String} {s s' : σ}

theorem Foresees.pure (r : Except StoreError Unit) : a.Foresees table s (r, s) r [] :=
  ⟨Nat.le_refl _, fun _ _ => ⟨rfl, (List.append_nil _).symm⟩⟩

/-- Nothing is foreseen of what follows on a call that has failed. -/
theorem Foresees.of_failed {out r statements} (h : a.failed s < a.failed out.2) :
    a.Foresees table s out r statements := 
  ⟨Nat.le_of_lt h, fun heq => absurd heq (Nat.ne_of_gt h)⟩

/-- What a run sends that goes on after a first part. -/
theorem Foresees.after {out r first rest} (hfailed : a.failed s' = a.failed s)
    (hsent : a.sent s' = a.sent s ++ first) (h : a.Foresees table s' out r rest) :
    a.Foresees table s out r (first ++ rest) := by
  refine ⟨hfailed ▸ h.grows, fun hkept hrows => ?_⟩
  obtain ⟨hr, hrest⟩ := h.comes (hkept.trans hfailed.symm) hrows
  exact ⟨hr, by rw [hrest, hsent, List.append_assoc]⟩

end Foresees

/-- A write sends the statement of its model. -/
theorem Covers.write {t : TableStore σ} (h : a.Covers t.connection) {r : Record}
    (hschema : r.schema = t.schema) (s : σ) :
    a.Foresees t.table s ((t.write.perform (s, r)).1, (t.write.perform (s, r)).2.1)
      ((t.statementOf r).map fun _ => ()) (t.statementsOf [r]) := by
  have hsettle : ∀ s affected, a.Foresees t.table s
      (((t.settle r affected).perform (s, r)).1, ((t.settle r affected).perform (s, r)).2.1)
      (.ok ()) [] := by
    intro s affected
    rw [TableStore.settle]
    split
    next =>
      split
      next =>
        exact ⟨Nat.le_refl _, fun _ hrows => absurd rfl (hrows _)⟩
      next => exact .pure _
    next => 
      split
      next key hkeys =>
        split
        next hnull =>
          rw [Act.perform_bind, Act.perform_zoom]
          simp only [Lens.fst]
          rcases hid : t.connection.lastInsertId.perform s with ⟨err | id, s'⟩
          · exact .of_failed (by rw [(h.lastInsertId.of_error hid).2]; exact Nat.lt_succ_self _)
          · obtain ⟨hsent, hfailed⟩ := h.lastInsertId.of_ok hid
            have hkey : key ∈ r.schema.keys := by rw [hschema, hkeys, List.mem_singleton]
            obtain ⟨r', hset, -, -⟩ := TableStore.perform_setProperty hkey (.int id) s'
            dsimp only
            rw [hset]
            exact (Foresees.pure (.ok ())).after hfailed hsent
        next => exact .pure _
      next => exact .pure _
  rw [TableStore.perform_write, Act.perform_bind, Act.perform_ofExcept]
  rcases hstatement : t.statementOf r with err | _ | statement <;>
    simp only [TableStore.statementsOf, hstatement]
  · exact .pure _
  · exact .pure _
  · simp only [TableStore.send, Act.perform_bind, Act.perform_zoom, Lens.fst]
    rcases hexecute : (t.connection.execute statement.1 statement.2).perform s with
      ⟨err | affected, s'⟩
    · exact .of_failed (by rw [((h.execute _ _).of_error hexecute).2]; exact Nat.lt_succ_self _)
    · obtain ⟨hsent, hfailed⟩ := (h.execute _ _).of_ok hexecute
      exact (hsettle s' affected).after hfailed hsent

end Account

end RecordStore
