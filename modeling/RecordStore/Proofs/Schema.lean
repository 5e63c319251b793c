import RecordStore.Proofs.Search.Registration
import RecordStore.Proofs.Search.Stored

/-!
# Schemas and their names

Names of columns come from declarations, from stems put in front of the names of an embedded model,
and from stored schemas. All of them are added by one function, which adds a column if its name is
new and made of letters, digits and underscores (`Identifier.IsName`). So the schemas that can be
built are those with such names, each once, and no others (`Schema.made_iff`).

* Embedding models appends their columns, named by stem and name; what was required of them stays
  required, and the primary key stays what it was (`Schema.embedAll_adds`).
* A list of definitions is a schema, unchanged and in its order, if its names are such names and
  differ; otherwise it is none (`Schema.ofList_eq_ok_iff`). The definitions of a schema read back
  from its stored form as they were (`Schema.ofStored_toStored`).
-/

namespace RecordStore

/-! ### Names -/

/-- ASCII letters, digits and the underscore. -/
def IsNameChar (c : Char) : Prop :=
  'A' ≤ c ∧ c ≤ 'Z' ∨ 'a' ≤ c ∧ c ≤ 'z' ∨ '0' ≤ c ∧ c ≤ '9' ∨ c = '_'

/-- One such character or more. -/
structure Identifier.IsName (name : String) : Prop where
  ne_empty : name ≠ ""
  chars : ∀ c ∈ name.toList, IsNameChar c

theorem Identifier.isPlain_iff {c : Char} : isPlain c = true ↔ IsNameChar c := by
  have hupper : c.isUpper = true ↔ 'A' ≤ c ∧ c ≤ 'Z' := decide_eq_true_iff
  have hlower : c.isLower = true ↔ 'a' ≤ c ∧ c ≤ 'z' :=
    Bool.and_eq_true_iff.trans (and_congr decide_eq_true_iff decide_eq_true_iff)
  have hdigit : c.isDigit = true ↔ '0' ≤ c ∧ c ≤ '9' :=
    Bool.and_eq_true_iff.trans (and_congr decide_eq_true_iff decide_eq_true_iff)
  have hclasses : isPlain c = (((c.isUpper || c.isLower) || c.isDigit) || decide (c = '_')) := rfl
  simp only [hclasses, Bool.or_eq_true, hupper, hlower, hdigit, decide_eq_true_eq, or_assoc,
    IsNameChar]

theorem Identifier.isValid_iff {name : String} : isValid name = true ↔ IsName name := by
  rw [isValid, Bool.and_eq_true, List.all_eq_true]
  simp only [isPlain_iff]
  refine ⟨fun h => ⟨?_, h.2⟩, fun h => ⟨?_, h.chars⟩⟩
  · rintro rfl
    exact absurd h.1 (by decide)
  · simpa using h.ne_empty

/-! ### Stored definitions -/

theorem Property.ofStored_toStored (p : Property) : ofStored p.toStored = some p := by
  obtain ⟨name, isKey, isRequired, embeddedIn⟩ := p
  cases embeddedIn <;>
    simp only [toStored, ofStored, Reader.fields, Value.ofFields, Option.bind_eq_bind,
      Option.bind_some] <;>
    simp (disch := simp) only [Reader.Fields.required_ofList, Reader.Fields.withDefault_ofList] <;>
    simp [List.lookup_cons, Reader.text, Reader.flag, Reader.nullable]

namespace Schema

theorem ofStored_toStored (schema : Schema) : ofStored schema.toStored = some schema.properties :=
  Reader.listOf_map fun p _ => p.ofStored_toStored

/-! ### Lists of definitions -/

theorem ofList_eq_ok_iff {ps : List Property} {schema : Schema} :
    ofList ps = .ok schema ↔
      ((∀ p ∈ ps, Identifier.IsName p.name) ∧ (ps.map (·.name)).Nodup) ∧
        schema.properties = ps := by
  -- There is no column before the list whose name could come again.
  have hfresh : (∀ p ∈ ps, p.name ∉ ({} : Schema).columns) ↔ True :=
    iff_true_intro fun _ _ => List.not_mem_nil
  have hsame : schema = ⟨[] ++ ps⟩ ↔ schema.properties = ps := by
    cases schema
    exact Schema.mk.injEq _ _ ▸ Iff.rfl
  simp only [ofList, pushAll_eq_ok_iff, Identifier.isValid_iff, hfresh, hsame, true_and,
    and_assoc]

/-- The schemas that can be built are those whose names are made of the right characters and
    differ. -/
theorem made_iff {schema : Schema} :
    schema.Made ↔ (∀ name ∈ schema.columns, Identifier.IsName name) ∧ schema.columns.Nodup := by
  constructor
  · intro h
    refine ⟨fun name hname => ?_, h.nodup_columns⟩
    exact Identifier.isValid_iff.1 (h.isValid (contains_iff.2 hname))
  · rintro ⟨hnames, hnodup⟩
    have hall := List.forall_mem_map.1 hnames
    exact .ofList (ofList_eq_ok_iff.2 ⟨⟨hall, hnodup⟩, rfl⟩)

end Schema

/-! ### Embedded models -/

/-- The column that a definition becomes under a stem. -/
structure Property.IsEmbeddedAs (stem : String) (p column : Property) : Prop where
  name : column.name = stem ++ "_" ++ p.name
  isKey : column.isKey = false
  isRequired : column.isRequired = p.isRequired
  embeddedIn : column.embeddedIn = some stem

namespace Schema

variable {schema schema' : Schema}

/-- Adds the columns of several models, each under its stem. -/
def embedAll (schema : Schema) (groups : List (String × List Property)) :
    Except StoreError Schema :=
  groups.foldlM (fun schema group => schema.embed group.1 group.2) schema

theorem embed_adds {stem : String} {ps : List Property} (h : schema.embed stem ps = .ok schema') :
    ∃ added, schema'.properties = schema.properties ++ added ∧
      List.Forall₂ (Property.IsEmbeddedAs stem) ps added ∧ schema'.keys = schema.keys := by
  obtain ⟨-, -, -, rfl⟩ := pushAll_eq_ok_iff.1 (embed_eq_ok_iff.1 h).2
  have hcolumns : ∀ p ∈ ps, Property.IsEmbeddedAs stem p (p.embedded stem) :=
    fun _ _ => ⟨rfl, rfl, rfl, rfl⟩
  have hkeys : (ps.map (·.embedded stem)).filter (·.isKey) = [] := by
    rw [List.filter_eq_nil_iff, List.forall_mem_map]
    exact fun p hp => by simp [(hcolumns p hp).isKey]
  refine ⟨_, rfl, List.forall₂_map_right_iff.2 (List.forall₂_same.2 hcolumns), ?_⟩
  rw [keys, List.filter_append, hkeys, List.append_nil, keys]

theorem embedAll_adds {groups : List (String × List Property)}
    (h : schema.embedAll groups = .ok schema') :
    ∃ added : List (List Property), schema'.properties = schema.properties ++ added.flatten ∧
      List.Forall₂ (fun group columns =>
        List.Forall₂ (Property.IsEmbeddedAs group.1) group.2 columns) groups added ∧
      schema'.keys = schema.keys := by
  -- Each model is added to a schema that has those before it already.
  induction groups generalizing schema with
  | nil =>
    cases h
    exact ⟨[], (List.append_nil _).symm, .nil, rfl⟩
  | cons group groups ih =>
    rw [embedAll, List.foldlM_cons] at h
    obtain ⟨schema₁, hfirst, hrest⟩ := exists_of_bind_eq_ok h
    obtain ⟨columns, hproperties, hcolumns, hkeys⟩ := embed_adds hfirst
    obtain ⟨added, hproperties', hadded, hkeys'⟩ := ih hrest
    refine ⟨columns :: added, ?_, .cons hcolumns hadded, hkeys'.trans hkeys⟩
    rw [hproperties', hproperties, List.append_assoc, List.flatten_cons]

theorem Made.embedAll {groups : List (String × List Property)} (hschema : schema.Made)
    (h : schema.embedAll groups = .ok schema') : schema'.Made := by
  induction groups generalizing schema with
  | nil =>
    cases h
    exact hschema
  | cons group groups ih =>
    rw [Schema.embedAll, List.foldlM_cons] at h
    obtain ⟨schema₁, hfirst, hrest⟩ := exists_of_bind_eq_ok h
    exact ih (.embed hschema hfirst) hrest

/-- The schema that a stored list of definitions stands for. -/
def read : Reader Schema := fun v => do
  (ofList (← ofStored v)).toOption

theorem read_eq_some_iff {v : Value} {ps : List Property} (h : ofStored v = some ps)
    {schema : Schema} : read v = some schema ↔ ofList ps = .ok schema := by
  rw [read, h, Option.bind_eq_bind, Option.bind_some]
  cases ofList ps <;> simp [Except.toOption]

/-- A schema that can be built has names of letters, digits and underscores only, each once.
    * Models that are embedded in it add their columns at its end, under their stems, with the flags
      that say what is required; no column is added to the primary key.
    * Its stored form reads back as the schema that it was.
    * Any stored list of definitions, whichever flags are left out of it, is read as the schema with
      these definitions in this order if their names are such names and differ. Otherwise it is not
      read at all. -/
theorem Made.keeps_names {schema : Schema} (h : schema.Made) :
    ((∀ name ∈ schema.columns, Identifier.IsName name) ∧ schema.columns.Nodup) ∧
    (∀ groups schema', schema.embedAll groups = .ok schema' → schema'.Made ∧
      schema'.keys = schema.keys ∧
      ∃ added : List (List Property), schema'.properties = schema.properties ++ added.flatten ∧
        List.Forall₂ (fun group columns =>
          List.Forall₂ (Property.IsEmbeddedAs group.1) group.2 columns) groups added) ∧
    read schema.toStored = some schema ∧
    ∀ v ps, ofStored v = some ps → ∀ schema', read v = some schema' ↔
      ((∀ p ∈ ps, Identifier.IsName p.name) ∧ (ps.map (·.name)).Nodup) ∧
        schema'.properties = ps := by
  have hnames := made_iff.1 h
  refine ⟨hnames, fun groups schema' hgroups => ?_, ?_, fun v ps hps schema' => ?_⟩
  · obtain ⟨added, hproperties, hadded, hkeys⟩ := embedAll_adds hgroups
    exact ⟨h.embedAll hgroups, hkeys, added, hproperties, hadded⟩
  · have hall : ∀ p ∈ schema.properties, Identifier.IsName p.name :=
      List.forall_mem_map.1 hnames.1
    exact (read_eq_some_iff schema.ofStored_toStored).2 (ofList_eq_ok_iff.2 ⟨⟨hall, hnames.2⟩, rfl⟩)
  · exact (read_eq_some_iff hps).trans ofList_eq_ok_iff

/-- Two models that are embedded in the table of products: what it measures and who made it. -/
def productParts : List (String × List Property) := [
  ("size", [{ name := "width", isKey := true, isRequired := true }, { name := "height" }]),
  ("maker", [{ name := "name", isRequired := true }])]

/-- A stored list of definitions that leaves out what it can. -/
def briefForm : Value :=
  .array [.object [("name", .string "sku"), ("primary_key", .bool true)],
    .object [("name", .string "size_width"), ("embedded_in", .string "size")]]

/-- Products with their parts have new columns and the old key, and read back; so does a list that
    leaves flags out. -/
theorem products_keep_names : QueryCompiler.products.schema.Made ∧
    (∃ schema', QueryCompiler.products.schema.embedAll productParts = .ok schema' ∧
      schema'.keys = ["shop", "sku"] ∧
      schema'.columns.drop 6 = ["size_width", "size_height", "maker_name"] ∧
      read schema'.toStored = some schema') ∧
    read briefForm = some ⟨[{ name := "sku", isKey := true },
      { name := "size_width", embeddedIn := some "size" }]⟩ := by
  have hmade := QueryCompiler.products_isMade.schema
  obtain ⟨-, hembed, -, himport⟩ := Made.keeps_names hmade
  have hparts : ∃ schema', QueryCompiler.products.schema.embedAll productParts = .ok schema' ∧
      schema'.columns.drop 6 = ["size_width", "size_height", "maker_name"] := ⟨_, rfl, rfl⟩
  obtain ⟨schema', hschema', hcolumns⟩ := hparts
  obtain ⟨hmade', hkeys, -⟩ := hembed _ _ hschema'
  obtain ⟨-, -, hread, -⟩ := Made.keeps_names hmade'
  have hvalid : ∀ name ∈ ["sku", "size_width"], Identifier.isValid name = true := by decide
  have hnames : ∀ name ∈ ["sku", "size_width"], Identifier.IsName name :=
    fun name hname => Identifier.isValid_iff.1 (hvalid name hname)
  exact ⟨hmade, ⟨schema', hschema', hkeys, hcolumns, hread⟩,
    (himport briefForm _ rfl _).2 ⟨⟨List.forall_mem_map.1 hnames, by decide⟩, rfl⟩⟩

end Schema

end RecordStore
