import RecordStore.Search.Statement
import Mathlib.Data.List.Forall2

/-!
# Placeholders in a text

A *placeholder* in a text is a question mark with all the digits behind it (`placeholdersOf`). Read
back from the text of a statement, they are those of its joins, then those of its condition, in
order (`SelectStatement.IsNamed.shows_sql`, `CountStatement.IsNamed.shows_sql`), if all names in the
statement have passed the guard: a name holds no question mark, and behind a placeholder no digit
follows that is not its own.

So a text is put together from pieces that *show* placeholders (`ShowsSlots`). A piece that follows
a placeholder must not lend digits to it, which is why pieces are asked whether they begin with one.
-/

namespace RecordStore

/-- The placeholders among some characters, in their order. -/
def placeholdersIn : List Char → List String
  | [] => []
  | c :: cs =>
    if c = '?' then ("?" ++ String.ofList (cs.takeWhile Char.isDigit)) :: placeholdersIn cs
    else placeholdersIn cs

/-- The placeholders of a text, in their order. -/
def placeholdersOf (text : String) : List String := placeholdersIn text.toList

/-- Whether the first character is a digit. -/
def beginsWithDigit (cs : List Char) : Bool := cs.head?.any Char.isDigit

/-- The text holds no question mark. -/
def Unmarked (text : String) : Prop := '?' ∉ text.toList

instance Unmarked.decidable (text : String) : Decidable (Unmarked text) :=
  inferInstanceAs (Decidable ('?' ∉ text.toList))

/-- The placeholders of the text are those with these numbers, in this order, and stay so if
    something else follows that does not begin with a digit. -/
def ShowsSlots (text : String) (slots : List Nat) : Prop :=
  ∀ rest, beginsWithDigit rest = false →
    placeholdersIn (text.toList ++ rest) = slots.map placeholder ++ placeholdersIn rest

/-! ### Texts without placeholders -/

@[simp]
theorem unmarked_append {a b : String} : Unmarked (a ++ b) ↔ Unmarked a ∧ Unmarked b := by
  simp [Unmarked, not_or]

theorem unmarked_intercalate {separator : String} {texts : List String}
    (hseparator : Unmarked separator) (htexts : ∀ text ∈ texts, Unmarked text) :
    Unmarked (separator.intercalate texts) := by
  induction texts with
  | nil => simp [Unmarked]
  | cons text rest ih =>
    obtain ⟨htext, hrest⟩ := List.forall_mem_cons.1 htexts
    cases rest with
    | nil => simpa using htext
    | cons next rest =>
      rw [String.intercalate_cons_cons, unmarked_append, unmarked_append]
      exact ⟨⟨htext, hseparator⟩, ih hrest⟩

theorem isDigit_of_mem_toString {n : Nat} {c : Char} (h : c ∈ (toString n).toList) :
    c.isDigit = true := by
  rw [Nat.toString_eq_repr, Nat.toList_repr] at h
  exact Nat.isDigit_of_mem_toDigits (by decide) (by decide) h

theorem unmarked_toString (n : Nat) : Unmarked (toString n) := by
  intro hmark
  have hdigit := isDigit_of_mem_toString hmark
  revert hdigit
  decide

theorem Identifier.unmarked {name : String} (h : isValid name = true) : Unmarked name := by
  intro hmark
  rw [isValid, Bool.and_eq_true, List.all_eq_true] at h
  have hplain := h.2 '?' hmark
  revert hplain
  decide

theorem beginsWithDigit_append {cs cs' : List Char} (h : beginsWithDigit cs = false)
    (h' : beginsWithDigit cs' = false) : beginsWithDigit (cs ++ cs') = false := by
  cases cs with
  | nil => exact h'
  | cons => exact h

namespace ShowsSlots

variable {a b : String} {slots slots' : List Nat}

theorem of_unmarked (h : Unmarked a) : ShowsSlots a [] := by
  intro rest _
  rw [Unmarked] at h
  generalize a.toList = cs at h
  induction cs with
  | nil => rfl
  | cons c cs ih =>
    obtain ⟨hc, hcs⟩ := not_or.1 (List.mem_cons.not.1 h)
    rw [List.cons_append, placeholdersIn, if_neg (Ne.symm hc)]
    exact ih hcs

theorem append (ha : ShowsSlots a slots) (hb : ShowsSlots b slots')
    (hbegin : beginsWithDigit b.toList = false) : ShowsSlots (a ++ b) (slots ++ slots') := by
  intro rest hrest
  rw [String.toList_append, List.append_assoc, ha _ (beginsWithDigit_append hbegin hrest),
    hb rest hrest, List.map_append, List.append_assoc]

/-- In front of placeholders, anything may stand that has no question mark. -/
theorem prepend (ha : Unmarked a) (hb : ShowsSlots b slots) : ShowsSlots (a ++ b) slots := by
  intro rest hrest
  rw [← hb rest hrest, String.toList_append, List.append_assoc]
  generalize b.toList ++ rest = cs
  rw [Unmarked] at ha
  generalize a.toList = front at ha
  induction front with
  | nil => rfl
  | cons c front ih =>
    obtain ⟨hc, hfront⟩ := not_or.1 (List.mem_cons.not.1 ha)
    rw [List.cons_append, placeholdersIn, if_neg (Ne.symm hc)]
    exact ih hfront

/-- Behind placeholders, anything may stand that has no question mark and does not begin with a
    digit. -/
theorem followed (ha : ShowsSlots a slots) (hb : Unmarked b)
    (hbegin : beginsWithDigit b.toList = false) : ShowsSlots (a ++ b) slots := by
  have h := ha.append (of_unmarked hb) hbegin
  rwa [List.append_nil] at h

/-- A placeholder shows itself. -/
theorem placeholder (slot : Nat) : ShowsSlots (RecordStore.placeholder slot) [slot] := by
  intro rest hrest
  have hdigits : ∀ c ∈ (toString slot).toList, c.isDigit = true :=
    fun c hc => isDigit_of_mem_toString hc
  have hstop : rest.takeWhile Char.isDigit = [] := by
    cases rest with
    | nil => rfl
    | cons c cs => exact List.takeWhile_cons_of_neg (by simpa [beginsWithDigit] using hrest)
  have htext : (RecordStore.placeholder slot).toList ++ rest =
      '?' :: ((toString slot).toList ++ rest) := by
    rw [RecordStore.placeholder, String.toList_append]
    rfl
  -- The digits themselves hold no further placeholder.
  have hrestIn := of_unmarked (unmarked_toString slot) rest hrest
  rw [htext, RecordStore.placeholdersIn, if_pos rfl, List.takeWhile_append_of_pos hdigits, hstop,
    List.append_nil, String.ofList_toList, hrestIn]
  rfl

/-- Each piece of a list shows its own placeholders. -/
theorem map {β : Type} {text : β → String} {slotsOf : β → List Nat} {bs : List β}
    (h : ∀ b ∈ bs, ShowsSlots (text b) (slotsOf b)) :
    List.Forall₂ ShowsSlots (bs.map text) (bs.map slotsOf) := by
  rwa [List.forall₂_map_left_iff, List.forall₂_map_right_iff, List.forall₂_same]

/-- Pieces in a row, with something between them. -/
theorem intercalate {separator : String} (hseparator : Unmarked separator)
    (hbegin : ∀ rest, beginsWithDigit (separator.toList ++ rest) = false) {texts : List String}
    {slotss : List (List Nat)} (h : List.Forall₂ ShowsSlots texts slotss) :
    ShowsSlots (separator.intercalate texts) slotss.flatten := by
  induction h with
  | nil => exact of_unmarked (by simp [Unmarked])
  | @cons text slots rest slotss htext hrest ih =>
    cases hrest with
    | nil => simpa using htext
    | @cons next slots' rest slotss hnext hrest =>
      rw [String.intercalate_cons_cons, String.append_assoc, List.flatten_cons]
      -- What follows the text is the separator, so it keeps its digits to itself.
      refine htext.append (prepend hseparator ih) ?_
      rw [String.toList_append]
      exact hbegin _

/-- Pieces one right behind the other, none of which begins with a digit. -/
theorem join {texts : List String} {slotss : List (List Nat)}
    (h : List.Forall₂ ShowsSlots texts slotss)
    (hbegin : ∀ text ∈ texts, beginsWithDigit text.toList = false) :
    ShowsSlots (String.join texts) slotss.flatten ∧
      beginsWithDigit (String.join texts).toList = false := by
  induction h with
  | nil => exact ⟨of_unmarked (by simp [Unmarked, String.join]), rfl⟩
  | @cons text slots rest slotss htext hrest ih =>
    obtain ⟨htextBegin, hrestBegin⟩ := List.forall_mem_cons.1 hbegin
    obtain ⟨hshows, hjoined⟩ := ih hrestBegin
    have hcons : String.join (text :: rest) = text ++ String.join rest := by
      rw [← String.toList_inj]
      simp
    rw [hcons, List.flatten_cons, String.toList_append]
    exact ⟨htext.append hshows hjoined, beginsWithDigit_append htextBegin hjoined⟩

theorem placeholdersOf (h : ShowsSlots a slots) :
    RecordStore.placeholdersOf a = slots.map RecordStore.placeholder := by
  have hend := h [] rfl
  rwa [List.append_nil, placeholdersIn, List.append_nil] at hend

end ShowsSlots

end RecordStore
