import RecordStore.Save.Engine

/-!
# Giving a record back

When a batch fails, a record that was about to be written is put back with what was noted before:
its key takes its old value, and the flags of what was edited before, or differs now, are set. Here
is said property by property what that makes of the record (`Record.get?_restore`,
`Record.mem_edited_restore`), and what it is worth to someone who saves the record again
(`Record.GivenBack`).
-/

namespace RecordStore

/-- The value that a key takes back, null for none. -/
abbrev PriorState.orNull (before : Option Value) : Value := before.getD .null

namespace Value

theorem eq_null_of_beq {v : Value} (h : (v == .null) = true) : v = .null := by
  change v.same .null = true at h
  cases v with
  | null => rfl
  | _ => simp [same] at h

end Value

namespace Record

/-- Whether a property of a record has another value than before. -/
def differs (r : Record) (before : String → Option Value) (name : String) : Bool :=
  !PriorState.sameValue (r.values.get? name) (before name)

/-- A record is given back: its key is as before, save that null may stand for no value, and
    everything that has to be written is flagged. -/
structure GivenBack (before after : Record) : Prop where
  schema : after.schema = before.schema
  keys : ∀ name ∈ before.schema.columns, before.schema.isKey name = true →
    after.differs before.values.get? name = false ∨
      after.values.get? name = some (PriorState.orNull (before.values.get? name))
  edits : ∀ name ∈ before.edits, name ∈ after.edits
  differing : ∀ name ∈ before.schema.columns, before.schema.isKey name = false →
    after.differs before.values.get? name = true → name ∈ after.edits

theorem schema_set {name : String} {value : Value} {r r' : Record}
    (h : r.set name value = .ok r') : r'.schema = r.schema := by
  simp only [set] at h
  split at h
  · cases h
  · split at h <;> cases h <;> rfl

/-- Putting a record back leaves its schema alone, whatever was noted. -/
theorem schema_restore (p : PriorState) (r : Record) : (p.restore r).schema = r.schema := by
  have hone : ∀ (sofar : Record × List String) entry,
      (PriorState.restoreOne sofar entry).1.schema = sofar.1.schema := by
    intro sofar entry
    simp only [PriorState.restoreOne]
    split
    · rfl
    · split
      · split
        next hset => exact schema_set hset
        next => rfl
      · split <;> rfl
  have hfold : ∀ (entries : List (String × Option Value)) (sofar : Record × List String),
      (entries.foldl PriorState.restoreOne sofar).1.schema = sofar.1.schema := by
    intro entries
    induction entries with
    | nil => exact fun _ => rfl
    | cons entry rest ih => exact fun sofar => (ih _).trans (hone sofar entry)
  exact hfold p.values (r, p.edited)

section Restore

variable (before : String → Option Value)

/-- Setting a property that has another value than before to its old value. -/
theorem set_orNull {r : Record} {name : String} (hname : r.schema.contains name = true)
    (hdiffers : r.differs before name = true) :
    ∃ r', r.set name (PriorState.orNull (before name)) = .ok r' ∧ r'.schema = r.schema ∧
      (∀ other, r'.values.get? other =
        if other = name then some (PriorState.orNull (before name)) else r.values.get? other) := by
  simp only [set, hname, Bool.not_true, Bool.false_eq_true, if_false]
  split
  next hsame =>
    -- The value differs and is the old one nevertheless: null stands where there was none.
    obtain ⟨v, hv, heq⟩ := (Option.any_eq_true ..).1 hsame
    have hnull : v = PriorState.orNull (before name) := by
      rcases hbefore : before name with _ | w
      · rw [hbefore] at heq
        exact Value.eq_null_of_beq heq
      · simp only [differs, PriorState.sameValue, hv, hbefore] at hdiffers
        simp only [hbefore, PriorState.orNull, Option.getD_some] at heq
        simp [heq] at hdiffers
    refine ⟨r, rfl, rfl, fun other => ?_⟩
    split
    next hother => rw [hother, hv, hnull]
    next => rfl
  next =>
    refine ⟨_, rfl, rfl, fun other => ?_⟩
    split
    next hother => rw [hother, Row.get?_insert_self]
    next hother => exact Row.get?_insert_of_ne _ _ hother

/-- What putting one property back makes of a record. -/
theorem restoreOne_spec (r : Record) (edited : List String) {name : String}
    (hname : r.schema.contains name = true) :
    (PriorState.restoreOne (r, edited) (name, before name)).1.schema = r.schema ∧
      (∀ other, (PriorState.restoreOne (r, edited) (name, before name)).1.values.get? other =
        if other = name ∧ r.schema.isKey name = true ∧ r.differs before name = true then
          some (PriorState.orNull (before name))
        else r.values.get? other) ∧
      ∀ other, other ∈ (PriorState.restoreOne (r, edited) (name, before name)).2 ↔
        other ∈ edited ∨ other = name ∧ r.schema.isKey name = false ∧
          r.differs before name = true := by
  have hget : Model.get? r name = r.values.get? name := rfl
  have hset : ∀ v, Model.set name v r = r.set name v := fun _ => rfl
  have hschema : Model.schema r = r.schema := rfl
  simp only [PriorState.restoreOne, hget, hset, hschema]
  split
  next hsame => simp [differs, hsame]
  next hsame =>
    have hdiffers : r.differs before name = true := by simpa [differs] using hsame
    split
    next hkey =>
      obtain ⟨r', hr', hschema', hvalues⟩ := set_orNull before hname hdiffers
      simp only [hr', hkey, hdiffers, hschema', and_true]
      exact ⟨trivial, hvalues, by simp⟩
    next hkey =>
      split
      next hmem =>
        refine ⟨rfl, by simp [hkey], fun other => ⟨.inl, ?_⟩⟩
        rintro (h | ⟨rfl, -⟩)
        · exact h
        · simpa using hmem
      next => simp [hkey, hdiffers]

theorem foldl_restoreOne_spec (names : List String) (r : Record) (edited : List String)
    (hnames : ∀ name ∈ names, r.schema.contains name = true) :
    let out := (names.map fun name => (name, before name)).foldl PriorState.restoreOne (r, edited)
    out.1.schema = r.schema ∧
      (∀ name, out.1.values.get? name =
        if name ∈ names ∧ r.schema.isKey name = true ∧ r.differs before name = true then
          some (PriorState.orNull (before name))
        else r.values.get? name) ∧
      ∀ name, name ∈ out.2 ↔
        name ∈ edited ∨ name ∈ names ∧ r.schema.isKey name = false ∧
          r.differs before name = true := by
  induction names generalizing r edited with
  | nil => simp
  | cons first rest ih =>
    obtain ⟨hfirst, hrest⟩ := List.forall_mem_cons.1 hnames
    obtain ⟨hschema, hvalues, hedited⟩ := restoreOne_spec before r edited hfirst
    rcases hone : PriorState.restoreOne (r, edited) (first, before first) with ⟨r', edited'⟩
    rw [hone] at hschema hvalues hedited
    dsimp only at hschema hvalues hedited
    obtain ⟨hschema', hvalues', hedited'⟩ := ih r' edited' (hschema ▸ hrest)
    simp only [List.map_cons, List.foldl_cons, hone]
    rw [hschema] at hvalues' hedited'
    have hkept : ∀ name, r'.values.get? name = r.values.get? name →
        r'.differs before name = r.differs before name := fun name h => by rw [differs, differs, h]
    refine ⟨hschema'.trans hschema, fun name => ?_, fun name => ?_⟩
    · rw [hvalues']
      by_cases hput : name = first ∧ r.schema.isKey first = true ∧ r.differs before first = true
      · have hvalue := (hvalues name).trans (if_pos hput)
        obtain ⟨rfl, hput⟩ := hput
        rw [hvalue, ite_self, if_pos ⟨List.mem_cons_self, hput⟩]
      · have hvalue := (hvalues name).trans (if_neg hput)
        rw [hkept name hvalue, hvalue]
        have hmem : (name ∈ rest ∧ r.schema.isKey name = true ∧ r.differs before name = true) ↔
            (name ∈ first :: rest ∧ r.schema.isKey name = true ∧ r.differs before name = true) :=
          ⟨fun h => ⟨List.mem_cons_of_mem _ h.1, h.2⟩, fun h =>
            ⟨(List.mem_cons.1 h.1).resolve_left fun hname => hput ⟨hname, hname ▸ h.2⟩, h.2⟩⟩
        simp only [hmem]
    · have hplain : r.schema.isKey name = false →
          r'.differs before name = r.differs before name := by
        intro hkey
        refine hkept name ((hvalues name).trans (if_neg ?_))
        rintro ⟨rfl, h, -⟩
        rw [hkey] at h
        cases h
      have hfirst : (name = first ∧ r.schema.isKey first = false ∧ r.differs before first = true) ↔
          (name = first ∧ r.schema.isKey name = false ∧ r.differs before name = true) :=
        and_congr_right fun h => by rw [h]
      have hrest : (name ∈ rest ∧ r.schema.isKey name = false ∧ r'.differs before name = true) ↔
          (name ∈ rest ∧ r.schema.isKey name = false ∧ r.differs before name = true) :=
        and_congr_right fun _ => and_congr_right fun hkey => by rw [hplain hkey]
      rw [hedited', hedited, hfirst, hrest, or_assoc, List.mem_cons, or_and_right]

end Restore

variable {before after : Record} (hschema : after.schema = before.schema)

include hschema

/-- What a record is when it was put back as another one was. -/
theorem restore_spec :
    ((PriorState.ofModel before).restore after).schema = after.schema ∧
      (∀ name, ((PriorState.ofModel before).restore after).values.get? name =
        if name ∈ before.schema.columns ∧ before.schema.isKey name = true ∧
            after.differs before.values.get? name = true then
          some (PriorState.orNull (before.values.get? name))
        else after.values.get? name) ∧
      ∀ name, name ∈ ((PriorState.ofModel before).restore after).edits ↔
        name ∈ before.edits ∨ name ∈ before.schema.columns ∧ before.schema.isKey name = false ∧
          after.differs before.values.get? name = true := by
  have hcontains : ∀ name ∈ before.schema.columns, before.schema.contains name = true :=
    fun _ hname => Schema.contains_iff.2 hname
  have hfold := foldl_restoreOne_spec before.values.get? before.schema.columns after before.edits
    (hschema ▸ hcontains)
  have hrestore : (PriorState.ofModel before).restore after =
      let out := (before.schema.columns.map fun name => (name, before.values.get? name)).foldl
        PriorState.restoreOne (after, before.edits)
      restoreEdits out.2 out.1 := rfl
  generalize (before.schema.columns.map fun name => (name, before.values.get? name)).foldl
    PriorState.restoreOne (after, before.edits) = out at hfold hrestore
  rw [hschema] at hfold ⊢
  rw [hrestore]
  obtain ⟨hschema', hvalues, hedited⟩ := hfold
  refine ⟨hschema', hvalues, fun name => ?_⟩
  rw [← hedited]
  simp only [edits, restoreEdits, hschema', List.mem_filter, List.contains_iff_mem]
  refine ⟨fun h => h.2.1, fun h => ?_⟩
  have hname : name ∈ before.schema.columns := by
    rcases (hedited name).1 h with h | h
    · exact (List.mem_filter.1 h).1
    · exact h.1
  exact ⟨hname, h, hcontains name hname⟩

/-- Putting a record back gives it back. -/
theorem restore_givenBack : before.GivenBack ((PriorState.ofModel before).restore after) := by
  obtain ⟨hschema', hvalues, hedited⟩ := restore_spec hschema
  refine ⟨hschema'.trans hschema, fun name hname hkey => ?_, fun name h => (hedited name).2 (.inl h),
    fun name hname hkey hdiffers => (hedited name).2 (.inr ⟨hname, hkey, ?_⟩)⟩
  · have hvalue := hvalues name
    split at hvalue
    next => exact .inr hvalue
    next hsame =>
      refine .inl ?_
      rw [differs, hvalue, ← differs]
      exact Bool.eq_false_iff.2 fun h => hsame ⟨hname, hkey, h⟩
  · have hvalue := (hvalues name).trans (if_neg fun h => by simp [hkey] at h)
    rwa [differs, hvalue, ← differs] at hdiffers

end Record

end RecordStore
