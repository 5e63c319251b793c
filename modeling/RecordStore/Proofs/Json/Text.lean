import RecordStore.Proofs.Json.Numerals

/-!
# The text of a value determines it

Different values have different texts, down to the kinds of numbers and to quotation marks, commas
and brackets inside strings (`Value.text_injective`). Every text is read from left to right: its
first character tells what kind of value it is (`Value.head_text`), a string ends at the first
quotation mark that is not escaped, and a number at the first character that no number has. So a
text inside a list is told apart from what follows it, and lists are compared item by item
(`Json.listed_unique`).

A float that is not finite has no text of its own and is left out.
-/

namespace RecordStore

namespace Json

/-! ### Strings -/

theorem hexValue?_hexDigit (n : Nat) : hexValue? (hexDigit n) = some (n % 16) := by
  have hall : ∀ m < 16, hexValue? (Nat.digitChar m) = some m := by decide
  exact hall _ (Nat.mod_lt n (by decide))

/-- The escape of a control character stands for it. -/
theorem unit?_hexDigits {n : Nat} (h : n < 0x20) (rest : List Char) :
    unit? ('0' :: '0' :: hexDigit (n / 16) :: hexDigit n :: rest) = some (n, rest) := by
  have hzero : hexValue? '0' = some 0 := rfl
  simp only [unit?, hzero, hexValue?_hexDigit, bind, Option.bind, pure]
  congr 2
  omega

/-- A character inside a string is read as it is written. -/
theorem stringRest_escapeChar (fuel : Nat) (read : List Char) (c : Char) (rest : List Char) :
    stringRest (fuel + 1) read (escapeChar c ++ rest) = stringRest fuel (c :: read) rest := by
  unfold escapeChar
  split
  · rfl
  · rfl
  · rfl
  · rfl
  · rfl
  · rfl
  · rfl
  next hquote hbackslash _ _ _ _ _ =>
    split
    next hcontrol =>
      simp only [List.cons_append, List.nil_append, stringRest, escape?, unit?_hexDigits hcontrol,
        bind, Option.bind, pure]
      -- The code of a control character is below those that come in pairs.
      rw [if_neg (by omega), if_neg (by omega)]
      simp only [Char.ofNat_toNat]
    next hcontrol =>
      rw [List.singleton_append, stringRest, if_neg hcontrol]
      · exact hquote
      · exact hbackslash

/-- A string is read as it is written, up to its closing quotation mark. -/
theorem stringRest_quoted (s read rest : List Char) (fuel : Nat) :
    stringRest (s.length + (fuel + 1)) read (s.flatMap escapeChar ++ '"' :: rest) =
      some (String.ofList (read.reverse ++ s), rest) := by
  induction s generalizing read with
  | nil =>
    rw [List.length_nil, Nat.zero_add, List.append_nil]
    rfl
  | cons c s ih =>
    rw [List.length_cons, Nat.add_right_comm, List.flatMap_cons, List.append_assoc,
      stringRest_escapeChar, ih, List.reverse_cons, List.append_assoc, List.singleton_append]

theorem toList_quote_append (s : String) (rest : List Char) :
    (quote s).toList ++ rest = '"' :: (s.toList.flatMap escapeChar ++ '"' :: rest) := by
  simp [quote]

/-- Strings in quotation marks are told apart, whatever follows. -/
theorem quote_unique {s t : String} {rest rest' : List Char}
    (h : (quote s).toList ++ rest = (quote t).toList ++ rest') : s = t ∧ rest = rest' := by
  rw [toList_quote_append, toList_quote_append] at h
  -- One reading of the common text gives both strings; the fuel is enough for either.
  have hread := congrArg (stringRest (s.toList.length + (t.toList.length + 1)) [])
    (List.tail_eq_of_cons_eq h)
  rw [stringRest_quoted, Nat.add_left_comm, stringRest_quoted] at hread
  simpa using hread

/-! ### Lists -/

section Lists

variable {α : Type} {text : α → List Char} {p : α → Prop}

/-- The text of a thing tells it apart from all that have the property, whatever follows. -/
def IsReadable (text : α → List Char) (p : α → Prop) (a : α) : Prop :=
  ∀ ⦃b rest rest'⦄, p b → EndsValue rest → EndsValue rest' →
    text a ++ rest = text b ++ rest' → a = b ∧ rest = rest'

/-- What follows an item of a list: a comma and the other items, or the closing bracket. -/
def afterItem (text : α → List Char) (close : Char) (rest : List Char) : List α → List Char
  | [] => close :: rest
  | a :: as => ',' :: (text a ++ afterItem text close rest as)

variable {close : Char}

theorem endsValue_afterItem (hclose : close = ']' ∨ close = '\x7d') (rest : List Char)
    (as : List α) : EndsValue (afterItem text close rest as) := by
  cases as with
  | nil =>
    rintro c ⟨⟩
    exact .inr hclose
  | cons a as =>
    rintro c ⟨⟩
    exact .inl rfl

/-- What follows the first item tells the other items apart. -/
theorem afterItem_unique (hclose : close = ']' ∨ close = '\x7d') {as bs : List α}
    {rest rest' : List Char} (has : ∀ a ∈ as, IsReadable text p a) (hbs : ∀ b ∈ bs, p b)
    (h : afterItem text close rest as = afterItem text close rest' bs) :
    as = bs ∧ rest = rest' := by
  have hcomma : close ≠ ',' := by rcases hclose with rfl | rfl <;> decide
  induction as generalizing bs with
  | nil =>
    cases bs with
    | nil => exact ⟨rfl, List.tail_eq_of_cons_eq h⟩
    | cons b bs => exact absurd (List.head_eq_of_cons_eq h) hcomma
  | cons a as ih =>
    cases bs with
    | nil => exact absurd (List.head_eq_of_cons_eq h).symm hcomma
    | cons b bs =>
      obtain ⟨ha, has⟩ := List.forall_mem_cons.1 has
      obtain ⟨hb, htail⟩ := List.forall_mem_cons.1 hbs
      obtain ⟨rfl, hrest⟩ := ha hb (endsValue_afterItem hclose _ _)
        (endsValue_afterItem hclose _ _) (List.tail_eq_of_cons_eq h)
      obtain ⟨rfl, rfl⟩ := ih has htail hrest
      exact ⟨rfl, rfl⟩

/-- The items of a list with commas between them, and the closing bracket. -/
def listed (text : α → List Char) (close : Char) (rest : List Char) (as : List α) : List Char :=
  [','].intercalate (as.map text) ++ close :: rest

theorem listed_cons (a : α) (as : List α) (rest : List Char) :
    listed text close rest (a :: as) = text a ++ afterItem text close rest as := by
  induction as generalizing a with
  | nil => simp [listed, afterItem]
  | cons b bs ih =>
    rw [listed, List.map_cons, List.map_cons, List.intercalate_cons_cons, ← List.map_cons,
      List.append_assoc, List.append_assoc, ← listed, ih]
    rfl

/-- Lists of things that are told apart are told apart. -/
theorem listed_unique (hclose : close = ']' ∨ close = '\x7d')
    (hhead : ∀ b, p b → ∃ c tail, text b = c :: tail ∧ c ≠ close) {as bs : List α}
    {rest rest' : List Char} (has : ∀ a ∈ as, p a ∧ IsReadable text p a) (hbs : ∀ b ∈ bs, p b)
    (h : listed text close rest as = listed text close rest' bs) : as = bs ∧ rest = rest' := by
  cases as with
  | nil =>
    cases bs with
    | nil => exact ⟨rfl, List.tail_eq_of_cons_eq h⟩
    | cons b bs =>
      obtain ⟨c, tail, htext, hc⟩ := hhead b (hbs b List.mem_cons_self)
      rw [listed_cons, htext] at h
      exact absurd (List.head_eq_of_cons_eq h).symm hc
  | cons a as =>
    obtain ⟨⟨ha, hread⟩, has⟩ := List.forall_mem_cons.1 has
    cases bs with
    | nil =>
      obtain ⟨c, tail, htext, hc⟩ := hhead a ha
      rw [listed_cons, htext] at h
      exact absurd (List.head_eq_of_cons_eq h) hc
    | cons b bs =>
      obtain ⟨hb, htail⟩ := List.forall_mem_cons.1 hbs
      rw [listed_cons, listed_cons] at h
      obtain ⟨rfl, hrest⟩ := hread hb (endsValue_afterItem hclose _ _)
        (endsValue_afterItem hclose _ _) h
      obtain ⟨rfl, rfl⟩ := afterItem_unique hclose (fun a ha => (has a ha).2) htail hrest
      exact ⟨rfl, rfl⟩

end Lists

end Json

namespace Value

/-! ### Kinds -/

/-- The kinds of values. -/
inductive Kind where
  | null
  | bool
  | number
  | string
  | array
  | object

def kind : Value → Kind
  | .null => .null
  | .bool _ => .bool
  | .number _ => .number
  | .string _ => .string
  | .array _ => .array
  | .object _ => .object

/-- The kind of the values whose texts begin with a character. -/
def Kind.ofHead (c : Char) : Option Kind :=
  if c = '-' ∨ c.isDigit then some .number
  else match c with
    | 'n' => some .null
    | 't' => some .bool
    | 'f' => some .bool
    | '"' => some .string
    | '[' => some .array
    | '\x7b' => some .object
    | _ => none

mutual

/-- Whether all floats inside a value are finite. -/
def isFinite : Value → Bool
  | .null => true
  | .bool _ => true
  | .number n => n.isFinite
  | .string _ => true
  | .array items => finiteItems items
  | .object fields => finiteFields fields

/-- Whether all floats inside the items of an array are finite. -/
def finiteItems : List Value → Bool
  | [] => true
  | v :: rest => isFinite v && finiteItems rest

/-- Whether all floats inside the fields of an object are finite. -/
def finiteFields : List (String × Value) → Bool
  | [] => true
  | (_, v) :: rest => isFinite v && finiteFields rest

end

theorem finiteItems_iff (items : List Value) :
    finiteItems items = true ↔ ∀ v ∈ items, v.isFinite = true := by
  induction items with
  | nil => simp [finiteItems]
  | cons v rest ih => simp [finiteItems, ih]

theorem finiteFields_iff (fields : List (String × Value)) :
    finiteFields fields = true ↔ ∀ field ∈ fields, field.2.isFinite = true := by
  induction fields with
  | nil => simp [finiteFields]
  | cons field rest ih => simp [finiteFields, ih]

theorem itemTexts_eq (items : List Value) : itemTexts items = items.map text := by
  induction items with
  | nil => rfl
  | cons v rest ih => rw [itemTexts, ih, List.map_cons]

/-- The text of a field: its name, a colon and its value. -/
def fieldText (field : String × Value) : List Char :=
  (Json.quote field.1).toList ++ ':' :: field.2.text.toList

theorem fieldTexts_eq (fields : List (String × Value)) :
    (fieldTexts fields).map String.toList = fields.map fieldText := by
  induction fields with
  | nil => rfl
  | cons field rest ih =>
    rw [fieldTexts, List.map_cons, ih, List.map_cons, fieldText]
    simp

theorem array_append (items : List Value) (rest : List Char) :
    (array items).text.toList ++ rest =
      '[' :: Json.listed (fun v => v.text.toList) ']' rest items := by
  simp [text, itemTexts_eq, Json.listed, String.toList_intercalate, Function.comp_def]

theorem object_append (fields : List (String × Value)) (rest : List Char) :
    (object fields).text.toList ++ rest =
      '\x7b' :: Json.listed fieldText '\x7d' rest fields := by
  simp [text, fieldTexts_eq, Json.listed, String.toList_intercalate]

/-- The first character of a text tells the kind of the value. -/
theorem head_text {v : Value} (h : v.isFinite) :
    ∃ c tail, v.text.toList = c :: tail ∧ Kind.ofHead c = some v.kind := by
  cases v with
  | null => exact ⟨_, _, rfl, rfl⟩
  | bool b => cases b <;> exact ⟨_, _, rfl, rfl⟩
  | number n =>
    obtain ⟨m, hm, htext, -⟩ := Json.Numeral.exists_text_eq h
    obtain ⟨c, tail, hcons, hc⟩ := hm.head_text
    exact ⟨c, tail, htext.symm.trans hcons, if_pos hc⟩
  | string s => exact ⟨_, _, (List.append_nil _).symm.trans (Json.toList_quote_append s []), rfl⟩
  | array items => exact ⟨_, _, (List.append_nil _).symm.trans (array_append items []), rfl⟩
  | object fields => exact ⟨_, _, (List.append_nil _).symm.trans (object_append fields []), rfl⟩

/-! ### Values -/

/-- What holds of the values that have no parts, and of lists if it holds of their parts, holds of
    all values. -/
theorem induction {motive : Value → Prop} (null : motive .null) (bool : ∀ b, motive (.bool b))
    (number : ∀ n, motive (.number n)) (string : ∀ s, motive (.string s))
    (array : ∀ items, (∀ v ∈ items, motive v) → motive (.array items))
    (object : ∀ fields, (∀ field ∈ fields, motive field.2) → motive (.object fields)) :
    ∀ v, motive v
  | .null => null
  | .bool b => bool b
  | .number n => number n
  | .string s => string s
  | .array items => array items fun v _ => induction null bool number string array object v
  | .object fields =>
    object fields fun field hfield =>
      have hlt : sizeOf field.2 < sizeOf fields := by
        have hmem := List.sizeOf_lt_of_mem hfield
        rw [Prod.mk.sizeOf_spec] at hmem
        omega
      induction null bool number string array object field.2

/-- The text of a value without floats that are not finite tells it apart, whatever follows. -/
abbrev IsReadable (v : Value) : Prop :=
  Json.IsReadable (fun v : Value => v.text.toList) (fun v => v.isFinite = true) v

/-- No text begins with a closing bracket. -/
theorem head_text_ne {v : Value} (h : v.isFinite) :
    ∃ c tail, v.text.toList = c :: tail ∧ c ≠ ']' := by
  obtain ⟨c, tail, htext, hc⟩ := head_text h
  exact ⟨c, tail, htext, fun hclose => by cases hclose ▸ hc⟩

/-- A field is told apart by its name and its value. -/
theorem IsReadable.field {field : String × Value} (h : field.2.IsReadable) :
    Json.IsReadable fieldText (fun field => field.2.isFinite = true) field := by
  obtain ⟨name, v⟩ := field
  -- The name ends at its closing quotation mark, so the values begin at the same place.
  rintro ⟨name', w⟩ rest rest' hw hrest hrest' htext
  rw [fieldText, fieldText, List.append_assoc, List.append_assoc] at htext
  obtain ⟨rfl, hvalue⟩ := Json.quote_unique htext
  obtain ⟨rfl, hrests⟩ := h hw hrest hrest' (List.tail_eq_of_cons_eq hvalue)
  exact ⟨rfl, hrests⟩

/-- A field begins with its name. -/
theorem head_fieldText (field : String × Value) :
    ∃ c tail, fieldText field = c :: tail ∧ c ≠ '\x7d' :=
  ⟨'"', _, Json.toList_quote_append _ _, by decide⟩

/-- Values with a common text are of one kind. -/
theorem kind_eq {v w : Value} (hv : v.isFinite) (hw : w.isFinite) {rest rest' : List Char}
    (h : v.text.toList ++ rest = w.text.toList ++ rest') : v.kind = w.kind := by
  obtain ⟨c, tail, hv, hc⟩ := head_text hv
  obtain ⟨c', tail', hw, hc'⟩ := head_text hw
  rw [hv, hw] at h
  rw [List.head_eq_of_cons_eq h, hc'] at hc
  exact (Option.some.inj hc).symm

/-- The texts of the truth values begin with different characters. -/
theorem bool_eq {b b' : Bool} {rest rest' : List Char}
    (h : (bool b).text.toList ++ rest = (bool b').text.toList ++ rest') : b = b' := by
  cases b <;> cases b'
  · rfl
  · cases List.head_eq_of_cons_eq h
  · cases List.head_eq_of_cons_eq h
  · rfl

/-- Every text tells its value apart. The induction is on the value: the parts of a list are told
    apart one after the other, each from all that follows it. -/
theorem isReadable {v : Value} (hv : v.isFinite) : v.IsReadable := by
  induction v using induction with
  | null =>
    intro w rest rest' hw _ _ h
    have hkind := kind_eq hv hw h
    cases w with
    | null => exact ⟨rfl, List.append_cancel_left h⟩
    | _ => cases hkind
  | bool b =>
    intro w rest rest' hw _ _ h
    have hkind := kind_eq hv hw h
    cases w with
    | bool b' =>
      obtain rfl := bool_eq h
      exact ⟨rfl, List.append_cancel_left h⟩
    | _ => cases hkind
  | number n =>
    intro w rest rest' hw hrest hrest' h
    have hkind := kind_eq hv hw h
    cases w with
    | number n' =>
      obtain ⟨rfl, hrests⟩ := Number.text_unique hv hw hrest hrest' h
      exact ⟨rfl, hrests⟩
    | _ => cases hkind
  | string s =>
    intro w rest rest' hw _ _ h
    have hkind := kind_eq hv hw h
    cases w with
    | string t =>
      obtain ⟨rfl, hrests⟩ := Json.quote_unique h
      exact ⟨rfl, hrests⟩
    | _ => cases hkind
  | array items ih =>
    -- Behind each item stands a comma or the closing bracket, in front of which the item is
    -- told apart by the induction hypothesis.
    intro w rest rest' hw _ _ h
    have hkind := kind_eq hv hw h
    cases w with
    | array items' =>
      rw [isFinite, finiteItems_iff] at hv hw
      simp only [array_append] at h
      obtain ⟨rfl, hrests⟩ := Json.listed_unique (.inl rfl) (fun _ => head_text_ne)
        (fun v hmem => ⟨hv v hmem, ih v hmem (hv v hmem)⟩) hw (List.tail_eq_of_cons_eq h)
      exact ⟨rfl, hrests⟩
    | _ => cases hkind
  | object fields ih =>
    intro w rest rest' hw _ _ h
    have hkind := kind_eq hv hw h
    cases w with
    | object fields' =>
      rw [isFinite, finiteFields_iff] at hv hw
      simp only [object_append] at h
      obtain ⟨rfl, hrests⟩ := Json.listed_unique (.inr rfl) (fun field _ => head_fieldText field)
        (fun field hmem => ⟨hv field hmem, (ih field hmem (hv field hmem)).field⟩) hw
        (List.tail_eq_of_cons_eq h)
      exact ⟨rfl, hrests⟩
    | _ => cases hkind

/-- Different values have different texts. -/
theorem text_injective {v w : Value} (hv : v.isFinite) (hw : w.isFinite) (h : v.text = w.text) :
    v = w := by
  have hend : Json.EndsValue [] := nofun
  have htext : v.text.toList ++ [] = w.text.toList ++ [] := by rw [h]
  exact (isReadable hv hw hend hend htext).1

end Value

end RecordStore
