import RecordStore.Search.Compiler
import RecordStore.Search.Stored
import RecordStore.Proofs.Json.Row

/-!
# Stored searches read back

A search is stored as a JSON object and read from one. What is stored field by field is found field
by field, as the names of the fields differ (`Row.lookup_ofList`); each word of an operator, a block
or a direction stands for one of them; and a list is read item by item. So every part of a search
reads back, and with them the search (`Search.ofStored_toStored`). An operand is stored as it is and
taken as it is, however deep it goes.

Only numbers can be out of range: those of a page have 32 bits, and a float that is not finite has no
JSON form. A search within these bounds (`Search.IsStorable`) reads back as itself, and compiles as
before (`Search.stored_reads_back`).
-/

namespace RecordStore

/-! ### Readers -/

namespace Reader

variable {α : Type}

/-- A structure that was stored field by field is read field by field. -/
theorem Fields.required_ofList {fields : List (String × Value)} (h : (fields.map (·.1)).Nodup)
    (name : String) (read : Reader α) :
    (Fields.mk true (Row.ofList fields)).required name read = (fields.lookup name).bind read := by
  rw [required, Row.lookup_ofList h]

theorem Fields.optional_ofList {fields : List (String × Value)} (h : (fields.map (·.1)).Nodup)
    (name : String) (read : Reader α) :
    (Fields.mk true (Row.ofList fields)).optional name read =
      match fields.lookup name with
      | some v => nullable read v
      | none => some none := by
  rw [optional, Row.lookup_ofList h]
  rfl

theorem Fields.withDefault_ofList {fields : List (String × Value)} (h : (fields.map (·.1)).Nodup)
    (name : String) (default : α) (read : Reader α) :
    (Fields.mk true (Row.ofList fields)).withDefault name default read =
      (fields.lookup name).elim (some default) read := by
  rw [withDefault, Row.lookup_ofList h]
  cases fields.lookup name <;> rfl

theorem listOf_map {item : Reader α} {store : α → Value} {as : List α}
    (h : ∀ a ∈ as, item (store a) = some a) : listOf item (.array (as.map store)) = some as := by
  rw [listOf]
  induction as with
  | nil => rfl
  | cons a rest ih =>
    obtain ⟨ha, hrest⟩ := List.forall_mem_cons.1 h
    rw [List.map_cons, List.mapM_cons, ha, ih hrest]
    rfl

theorem nat32_nat {n : Nat} (h : n < 0x100000000) : nat32 (.nat n) = some n := by
  simp [nat32, natBelow, Value.nat, h]

end Reader

theorem Operator.choice_storedName (operator : Operator) :
    Reader.choice names (.string operator.storedName) = some operator := by
  cases operator <;> rfl

theorem Block.choice_storedName (block : Block) :
    Reader.choice names (.string block.storedName) = some block := by
  cases block <;> rfl

theorem Direction.choice_storedName (direction : Direction) :
    Reader.choice names (.string direction.storedName) = some direction := by
  cases direction <;> rfl

/-! ### Equality of values -/

namespace Value

theorem sameItems_self {items : List Value} (h : ∀ v ∈ items, v.same v = true) :
    sameItems items items = true := by
  induction items with
  | nil => rfl
  | cons v rest ih =>
    obtain ⟨hv, hrest⟩ := List.forall_mem_cons.1 h
    rw [sameItems, hv, ih hrest]
    rfl

theorem sameFields_self {fields : List (String × Value)}
    (h : ∀ field ∈ fields, field.2.same field.2 = true) : sameFields fields fields = true := by
  induction fields with
  | nil => rfl
  | cons field rest ih =>
    obtain ⟨hfield, hrest⟩ := List.forall_mem_cons.1 h
    obtain ⟨name, v⟩ := field
    simp [sameFields, hfield, ih hrest]

/-- A value equals itself unless there is a NaN in it. -/
theorem same_self {v : Value} (h : v.isFinite) : v.same v = true := by
  induction v using Value.induction with
  | null => rfl
  | bool b => simp [same]
  | number n =>
    cases n with
    | int i => simp [same, Number.same]
    | float x =>
      have hx : x.isFinite = true := h
      simp [same, Number.same, Double.equals, Double.isNaN, hx]
  | string s => simp [same]
  | array items ih =>
    rw [isFinite, finiteItems_iff] at h
    rw [same]
    exact sameItems_self fun v hv => ih v hv (h v hv)
  | object fields ih =>
    rw [isFinite, finiteFields_iff] at h
    rw [same]
    exact sameFields_self fun field hfield => ih field hfield (h field hfield)

end Value

/-! ### Searches -/

theorem Condition.ofStored_toStored (c : Condition) : ofStored c.toStored = some c := by
  simp only [toStored, ofStored, Reader.fields, Value.ofFields, Option.bind_eq_bind,
    Option.bind_some]
  simp (disch := simp) only [Reader.Fields.required_ofList]
  simp [List.lookup_cons, Reader.text, Operator.choice_storedName, Reader.any,
    Block.choice_storedName]

theorem SortKey.ofStored_toStored (key : SortKey) : ofStored key.toStored = some key := by
  simp only [toStored, ofStored, Reader.fields, Value.ofFields, Option.bind_eq_bind,
    Option.bind_some]
  simp (disch := simp) only [Reader.Fields.required_ofList]
  simp [List.lookup_cons, Reader.text, Direction.choice_storedName]

/-- Whether the numbers of a page have 32 bits. -/
def Paging.Fits : Paging → Prop
  | .page p => p.number < 0x100000000 ∧ p.size < 0x100000000
  | _ => True

theorem Page.ofStored_toStored {page : Page} (h : (Paging.page page).Fits) :
    ofStored page.toStored = some page := by
  simp only [toStored, ofStored, Reader.fields, Value.ofFields, Option.bind_eq_bind,
    Option.bind_some]
  simp (disch := simp) only [Reader.Fields.required_ofList]
  simp [List.lookup_cons, Reader.nat32_nat, h.1, h.2]

theorem Paging.ofStored_toStored {paging : Paging} (h : paging.Fits) :
    ofStored paging.toStored = some paging := by
  cases paging with
  | default => rfl
  | unlimited => rfl
  | page page => exact congrArg (·.map Paging.page) (Page.ofStored_toStored h)

namespace Search

theorem ofStored_toStored {s : Search} (h : s.paging.Fits) : ofStored s.toStored = some s := by
  have htexts : ∀ names : List String, Reader.listOf .text (Value.strings names) = some names :=
    fun names => Reader.listOf_map fun _ _ => rfl
  have hselection : Reader.nullable (.listOf .text) ((s.selection.map Value.strings).getD .null) =
      some s.selection := by
    cases s.selection with
    | none => rfl
    | some names => exact congrArg (·.map some) (htexts names)
  have hconditions := Reader.listOf_map fun c (_ : c ∈ s.conditions) => c.ofStored_toStored
  have horder := Reader.listOf_map fun key (_ : key ∈ s.order) => key.ofStored_toStored
  simp only [toStored, ofStored, Reader.fields, Value.ofFields, Option.bind_eq_bind,
    Option.bind_some]
  simp (disch := simp) only [Reader.Fields.optional_ofList, Reader.Fields.required_ofList]
  simp [List.lookup_cons, hselection, hconditions, Paging.ofStored_toStored h, horder, htexts]

/-- Whether a search has numbers only that can be stored. -/
structure IsStorable (s : Search) : Prop where
  paging : s.paging.Fits
  finite : ∀ c ∈ s.conditions, c.operand.isFinite = true

theorem all_zip_same {cs : List Condition} (h : ∀ c ∈ cs, c.operand.isFinite = true) :
    ((cs.zip cs).all fun p => p.1.same p.2) = true := by
  induction cs with
  | nil => rfl
  | cons c rest ih =>
    obtain ⟨hc, hrest⟩ := List.forall_mem_cons.1 h
    have hoperand : (c.operand == c.operand) = true := Value.same_self hc
    rw [List.zip_cons_cons, List.all_cons, ih hrest]
    simp [Condition.same, hoperand]

theorem IsStorable.same_self {s : Search} (h : s.IsStorable) : s.same s = true := by
  simp [same, all_zip_same h.finite]

/-- A search that was stored reads back as the search that it was, whatever it selects, requires and
    allows, and in whatever order. So it compiles to the same query and to the same count, or is
    refused with the same errors. -/
theorem stored_reads_back {s : Search} (h : s.IsStorable) :
    ∃ t, ofStored s.toStored = some t ∧ t = s ∧ s.same t = true ∧
      ∀ compiler : QueryCompiler, compiler.compile t = compiler.compile s ∧
        compiler.compileCount t = compiler.compileCount s :=
  ⟨s, ofStored_toStored h.paging, rfl, h.same_self, fun _ => ⟨rfl, rfl⟩⟩

/-- The second page of what has one of two tags, one of which is an object, or is dear; no attribute
    of it is selected. -/
def nestedTags : Search where
  selection := some []
  conditions := [
    ⟨"tags", .oneOf, .array [.string "new", .object [("since", .array [.null, .int 2019])]], .and⟩,
    ⟨"price.amount", .ge, .number (.float ⟨0x4024CCCCCCCCCCCD⟩), .or⟩]
  paging := .page ⟨2, 10⟩
  order := [⟨"price.amount", .desc⟩, ⟨"name", .asc⟩]
  groups := ["color"]

theorem nestedTags_reads_back :
    nestedTags.IsStorable ∧ ∃ t, ofStored nestedTags.toStored = some t ∧ t = nestedTags ∧
      nestedTags.same t = true ∧ ∀ compiler : QueryCompiler,
        compiler.compile t = compiler.compile nestedTags ∧
          compiler.compileCount t = compiler.compileCount nestedTags := by
  have hstorable : nestedTags.IsStorable := ⟨⟨by decide, by decide⟩, by decide⟩
  exact ⟨hstorable, stored_reads_back hstorable⟩

end Search

end RecordStore
