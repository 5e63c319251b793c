import RecordStore.Proofs.TableStore
import RecordStore.Proofs.Search.Tokens

/-!
# What the statements on rows say

A statement that writes a row, or looks one up, puts columns beside placeholders, and its parameters
are bound to these by number. Read with the parameters in the place of the placeholders, the text
puts columns beside values (`insertTokens`, `updateTokens`, `lookupTokens`).

The statements are made of columns alone, which are numbered in the order in which they stand. So
each statement says of its columns and its parameters, taken in order, which belong together
(`InsertStatement.binds`, `UpdateStatement.binds`, `LookupStatement.binds`), if all names in it have
passed the guard.
-/

namespace RecordStore

variable {α β : Type}

/-! ### Columns beside values -/

/-- A column that is assigned a value, or compared with one. -/
def fieldTokens (field : String × α) : List (Token α) :=
  [.word field.1, .sign "=", .slot field.2]

/-- The insertion of a row with these fields; a row without any takes the defaults. -/
def insertTokens (table : String) (fields : List (String × α)) : List (Token α) :=
  if fields.isEmpty then
    [.word "INSERT", .word "INTO", .word table, .word "DEFAULT", .word "VALUES"]
  else
    [.word "INSERT", .word "INTO", .word table, .mark '(']
      ++ [.mark ','].intercalate (fields.map ([.word ·.1])) ++ [.mark ')', .word "VALUES", .mark '(']
      ++ [.mark ','].intercalate (fields.map ([.slot ·.2])) ++ [.mark ')']

/-- The assignment of some fields in the row that has all of the others. -/
def updateTokens (table : String) (assigned keys : List (String × α)) : List (Token α) :=
  [.word "UPDATE", .word table, .word "SET"] ++ [.mark ','].intercalate (assigned.map fieldTokens)
    ++ [.word "WHERE"] ++ [.word "AND"].intercalate (keys.map fieldTokens)

/-- The row that has these fields. -/
def lookupTokens (table : String) (keys : List (String × α)) : List (Token α) :=
  [.word "SELECT", .word "*", .word "FROM", .word table, .word "WHERE"]
    ++ [.word "AND"].intercalate (keys.map fieldTokens) ++ [.word "LIMIT", .word "1"]

section Map

variable (f : α → β) (table : String)

theorem map_fieldTokens (field : String × α) :
    (fieldTokens field).map (Token.map f) = fieldTokens (field.map id f) := rfl

theorem map_intercalate_fieldTokens (sep : List (Token α)) (fields : List (String × α)) :
    (sep.intercalate (fields.map fieldTokens)).map (Token.map f) =
      (sep.map (Token.map f)).intercalate ((fields.map (Prod.map id f)).map fieldTokens) := by
  simp only [map_intercalate, List.map_map, Function.comp_def, map_fieldTokens]

theorem map_insertTokens (fields : List (String × α)) :
    (insertTokens table fields).map (Token.map f) =
      insertTokens table (fields.map (Prod.map id f)) := by
  simp only [insertTokens, List.isEmpty_map]
  split
  · rfl
  · simp only [List.map_append, map_intercalate, List.map_map, Function.comp_def]
    rfl

theorem map_updateTokens (assigned keys : List (String × α)) :
    (updateTokens table assigned keys).map (Token.map f) =
      updateTokens table (assigned.map (Prod.map id f)) (keys.map (Prod.map id f)) := by
  simp only [updateTokens, List.map_append, map_intercalate_fieldTokens]
  rfl

theorem map_lookupTokens (keys : List (String × α)) :
    (lookupTokens table keys).map (Token.map f) =
      lookupTokens table (keys.map (Prod.map id f)) := by
  simp only [lookupTokens, List.map_append, map_intercalate_fieldTokens]
  rfl

end Map

/-! ### Columns beside placeholders -/

theorem bindColumns_eq (first : Nat) (columns : List String) :
    bindColumns first columns =
      (columns.zipIdx first).map fun c => c.1 ++ " = " ++ placeholder c.2 := by
  induction columns generalizing first with
  | nil => rfl
  | cons column rest ih => rw [bindColumns, ih, List.zipIdx_cons, List.map_cons]

/-- Columns that are numbered where some values end have the values behind these. -/
theorem valueAt_zipIdx (columns : List String) (front back : List Param) {values : List Param}
    (hlength : values.length = columns.length) :
    (columns.zipIdx (front.length + 1)).map (Prod.map id (valueAt (front ++ values ++ back))) =
      columns.zip (values.map some) := by
  induction columns generalizing front values with
  | nil => rfl
  | cons column rest ih =>
    obtain ⟨value, values, rfl⟩ := List.exists_cons_of_length_eq_add_one hlength
    have hfirst : valueAt (front ++ value :: values ++ back) (front.length + 1) = some value := by
      simp [valueAt]
    -- For the columns behind the first one, its value belongs to the front.
    have hrest := ih (front ++ [value]) (Nat.succ.inj hlength)
    rw [List.length_append, List.length_singleton] at hrest
    simp only [List.append_assoc, List.cons_append, List.nil_append] at hfirst hrest
    rw [List.zipIdx_cons, List.map_cons, List.map_cons, List.zip_cons_cons, List.append_assoc,
      List.cons_append, hrest, Prod.map_apply, hfirst]
    rfl

/-- All of these columns have passed the guard. -/
def AllNamed (columns : List String) : Prop := ∀ column ∈ columns, Identifier.isValid column = true

section Columns

variable {columns : List String} (hcolumns : AllNamed columns) (first : Nat)

include hcolumns

/-- Columns beside placeholders, with something in between, read like that. -/
theorem lexes_bindColumns {separator : String} {sep : List (Token Nat)}
    (hseparator : Separates separator sep) :
    Lexes (separator.intercalate (bindColumns first columns))
      (sep.intercalate ((columns.zipIdx first).map fieldTokens)) := by
  rw [bindColumns_eq]
  refine .intercalate_map hseparator fun c hc => ?_
  exact (Lexes.name (hcolumns c.1 (List.fst_mem_of_mem_zipIdx hc))).separated .equals
    (.placeholder c.2)

theorem showsSlots_bindColumns {separator : String} (hseparator : Unmarked separator)
    (hbegin : ∀ rest, beginsWithDigit (separator.toList ++ rest) = false) :
    ShowsSlots (separator.intercalate (bindColumns first columns))
      (List.range' first columns.length) := by
  have hslots : ((columns.zipIdx first).map ([·.2])).flatten = List.range' first columns.length := by
    rw [← List.zipIdx_map_snd first columns, ← List.flatMap_def, List.map_eq_flatMap]
  rw [bindColumns_eq, ← hslots]
  refine .intercalate hseparator hbegin (ShowsSlots.map fun c hc => ?_)
  have hname := Identifier.unmarked (hcolumns c.1 (List.fst_mem_of_mem_zipIdx hc))
  exact .prepend (unmarked_append.2 ⟨hname, by decide⟩) (.placeholder c.2)

end Columns

/-! ### Statements -/

namespace SentStatement

/-- The statement has one placeholder for each parameter, numbered from one in the order in which
    they stand, and reads so with the parameters in their places. -/
structure Binds (statement : SentStatement) (ts : List (Token (Option Param))) : Prop where
  order : placeholdersOf statement.1 = (List.range' 1 statement.2.length).map placeholder
  reads : boundTokens statement.2 statement.1 = ts

theorem Binds.of_shows {sql : String} {values : List Param} {ts : List (Token Nat)}
    (hlexes : Lexes sql ts) (hshows : ShowsSlots sql (List.range' 1 values.length)) :
    Binds (sql, values) (bindTokens values ts) where
  order := hshows.placeholdersOf
  reads := by rw [boundTokens, hlexes.tokensOf]

end SentStatement

namespace InsertStatement

variable {s : InsertStatement} (htable : Identifier.isValid s.table = true)
  (hcolumns : AllNamed s.columns)

/-- The placeholders of an insertion, numbered with its columns. -/
theorem slots_eq (s : InsertStatement) :
    ((List.range s.columns.length).map fun i => placeholder (i + 1)) =
      (s.columns.zipIdx 1).map fun c => placeholder c.2 := by
  have hnumbers : (List.range s.columns.length).map (· + 1) = (s.columns.zipIdx 1).map (·.2) := by
    rw [List.zipIdx_map_snd, List.range'_eq_map_range]
    simp only [Nat.add_comm 1]
  have hslots := congrArg (List.map placeholder) hnumbers
  rwa [List.map_map, List.map_map] at hslots

include htable hcolumns

theorem lexes : Lexes s.sql (insertTokens s.table (s.columns.zipIdx 1)) := by
  have hhead : LexesFirst "INSERT INTO " [.word "INSERT", .word "INTO"] := fun _ => rfl
  have hinto := hhead.append (.name htable)
  have hempty : (s.columns.zipIdx 1).isEmpty = s.columns.isEmpty := by cases s.columns <;> rfl
  rw [sql, insertTokens, hempty]
  split
  next =>
    have hdefault : Separates " DEFAULT " [.word "DEFAULT"] := ⟨fun _ => rfl, fun _ => rfl⟩
    have hend : LexesLast " DEFAULT VALUES" [.word "DEFAULT", .word "VALUES"] :=
      hdefault.follows (@Lexes.name "VALUES" (by decide))
    exact hinto.append hend
  next =>
    have hnames : Lexes (", ".intercalate ((s.columns.zipIdx 1).map (·.1)))
        ([.mark ','].intercalate ((s.columns.zipIdx 1).map ([.word ·.1]))) :=
      .intercalate_map .comma fun c hc => .name (hcolumns c.1 (List.fst_mem_of_mem_zipIdx hc))
    rw [List.zipIdx_map_fst] at hnames
    have hslots : Lexes (", ".intercalate ((s.columns.zipIdx 1).map fun c => placeholder c.2))
        ([.mark ','].intercalate ((s.columns.zipIdx 1).map ([.slot ·.2]))) :=
      .intercalate_map .comma fun c _ => Lexes.placeholder c.2
    rw [← slots_eq] at hslots
    have hopen : Separates " (" [.mark '('] := ⟨fun _ => rfl, fun _ => rfl⟩
    have hvalues : Separates ") VALUES (" [.mark ')', .word "VALUES", .mark '('] :=
      ⟨fun _ => rfl, fun _ => rfl⟩
    exact ((hinto.separated hopen hnames).separated hvalues hslots).append .close

theorem showsSlots : ShowsSlots s.sql (List.range' 1 s.columns.length) := by
  have hinto : Unmarked ("INSERT INTO " ++ s.table) :=
    unmarked_append.2 ⟨by decide, Identifier.unmarked htable⟩
  rw [sql]
  split
  next hempty =>
    rw [List.isEmpty_iff.1 hempty]
    exact .of_unmarked (unmarked_append.2 ⟨hinto, by decide⟩)
  next =>
    have hnames : Unmarked (", ".intercalate s.columns) :=
      unmarked_intercalate (by decide) fun column hcolumn => Identifier.unmarked (hcolumns _ hcolumn)
    have heach : List.Forall₂ ShowsSlots ((s.columns.zipIdx 1).map fun c => placeholder c.2)
        ((s.columns.zipIdx 1).map ([·.2])) :=
      ShowsSlots.map fun c _ => ShowsSlots.placeholder c.2
    have hcomma : Unmarked ", " := by decide
    have hslots := ShowsSlots.intercalate hcomma (fun _ => rfl) heach
    rw [← slots_eq, ← List.flatMap_def, ← List.map_eq_flatMap, List.zipIdx_map_snd] at hslots
    refine .followed (.prepend ?_ hslots) (by decide) rfl
    exact unmarked_append.2 ⟨unmarked_append.2 ⟨unmarked_append.2 ⟨hinto, by decide⟩, hnames⟩,
      by decide⟩

/-- An insertion puts each column beside the parameter that stands where the column does. -/
theorem binds {values : List Param} (hlength : values.length = s.columns.length) :
    SentStatement.Binds (s.sql, values) (insertTokens s.table (s.columns.zip (values.map some))) := by
  have h := SentStatement.Binds.of_shows (lexes htable hcolumns)
    (hlength ▸ showsSlots htable hcolumns)
  have hvalues := valueAt_zipIdx s.columns [] [] hlength
  rw [List.nil_append, List.append_nil] at hvalues
  rw [bindTokens, map_insertTokens] at h
  exact hvalues ▸ h

end InsertStatement

namespace UpdateStatement

variable {s : UpdateStatement} (htable : Identifier.isValid s.table = true)
  (hassigned : AllNamed s.assigned) (hkeys : AllNamed s.keys)

include htable hassigned hkeys

theorem lexes : Lexes s.sql (updateTokens s.table (s.assigned.zipIdx 1)
    (s.keys.zipIdx (s.assigned.length + 1))) := by
  have hhead : LexesFirst "UPDATE " [.word "UPDATE"] := fun _ => rfl
  have hset : Separates " SET " [.word "SET"] := ⟨fun _ => rfl, fun _ => rfl⟩
  have hwhere : Separates " WHERE " [.word "WHERE"] := ⟨fun _ => rfl, fun _ => rfl⟩
  exact ((hhead.append (.name htable)).separated hset (lexes_bindColumns hassigned 1 .comma)).separated
    hwhere (lexes_bindColumns hkeys _ .and)

theorem showsSlots : ShowsSlots s.sql (List.range' 1 (s.assigned.length + s.keys.length)) := by
  have hhead : Unmarked ("UPDATE " ++ s.table ++ " SET ") :=
    unmarked_append.2 ⟨unmarked_append.2 ⟨by decide, Identifier.unmarked htable⟩, by decide⟩
  have hcomma : Unmarked ", " := by decide
  have hand : Unmarked " AND " := by decide
  have hword : Unmarked " WHERE " := by decide
  have hset := showsSlots_bindColumns hassigned 1 hcomma fun _ => rfl
  have hwhere := showsSlots_bindColumns hkeys (s.assigned.length + 1) hand fun _ => rfl
  rw [sql, ← List.range'_append_1, Nat.add_comm 1, String.append_assoc]
  refine (hset.prepend hhead).append (hwhere.prepend hword) ?_
  rw [String.toList_append]
  rfl

/-- An update assigns its first parameters and finds the row by the others. -/
theorem binds {values keyValues : List Param} (hvalues : values.length = s.assigned.length)
    (hkeyValues : keyValues.length = s.keys.length) :
    SentStatement.Binds (s.sql, values ++ keyValues) (updateTokens s.table
      (s.assigned.zip (values.map some)) (s.keys.zip (keyValues.map some))) := by
  have hlength : (values ++ keyValues).length = s.assigned.length + s.keys.length := by
    rw [List.length_append, hvalues, hkeyValues]
  have h := SentStatement.Binds.of_shows (lexes htable hassigned hkeys)
    (hlength ▸ showsSlots htable hassigned hkeys)
  have hset := valueAt_zipIdx s.assigned [] keyValues hvalues
  have hwhere := valueAt_zipIdx s.keys values [] hkeyValues
  rw [List.append_nil, hvalues] at hwhere
  rw [List.nil_append, List.length_nil, Nat.zero_add] at hset
  rwa [bindTokens, map_updateTokens, hset, hwhere] at h

end UpdateStatement

namespace LookupStatement

variable {s : LookupStatement} (htable : Identifier.isValid s.table = true)
  (hkeys : AllNamed s.keys)

include htable hkeys

theorem lexes : Lexes s.sql (lookupTokens s.table (s.keys.zipIdx 1)) := by
  have hhead : LexesFirst "SELECT * FROM " [.word "SELECT", .word "*", .word "FROM"] := fun _ => rfl
  have hwhere : Separates " WHERE " [.word "WHERE"] := ⟨fun _ => rfl, fun _ => rfl⟩
  have hlimit : Separates " LIMIT " [.word "LIMIT"] := ⟨fun _ => rfl, fun _ => rfl⟩
  have hend : LexesLast " LIMIT 1" [.word "LIMIT", .word "1"] :=
    hlimit.follows (@Lexes.name "1" (by decide))
  have hfront := (hhead.append (.name htable)).separated hwhere (lexes_bindColumns hkeys 1 .and)
  exact hfront.append hend

theorem showsSlots : ShowsSlots s.sql (List.range' 1 s.keys.length) := by
  have hhead : Unmarked ("SELECT * FROM " ++ s.table ++ " WHERE ") :=
    unmarked_append.2 ⟨unmarked_append.2 ⟨by decide, Identifier.unmarked htable⟩, by decide⟩
  have hand : Unmarked " AND " := by decide
  have hwhere := showsSlots_bindColumns hkeys 1 hand fun _ => rfl
  exact .followed (.prepend hhead hwhere) (by decide) rfl

/-- A lookup finds the row by its parameters, in the order of the columns of the key. -/
theorem binds {values : List Param} (hlength : values.length = s.keys.length) :
    SentStatement.Binds (s.sql, values) (lookupTokens s.table (s.keys.zip (values.map some))) := by
  have h := SentStatement.Binds.of_shows (lexes htable hkeys) (hlength ▸ showsSlots htable hkeys)
  have hvalues := valueAt_zipIdx s.keys [] [] hlength
  rw [List.nil_append, List.append_nil] at hvalues
  rw [bindTokens, map_lookupTokens] at h
  exact hvalues ▸ h

end LookupStatement

end RecordStore
