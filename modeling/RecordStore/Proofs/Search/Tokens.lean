import RecordStore.Proofs.Search.Registration

/-!
# Tokens of a text

The *tokens* of a text are its words, columns, comparison signs, placeholders, quoted names and
marks (`tokensOf`). A column is a name behind the name of its table, with a dot between them. Read
with the values of a statement, a placeholder is the value with its number (`boundTokens`).

The scanner goes over the text once; what it keeps is the token that it is in. A text put together
from pieces has the tokens of the pieces, one after the other, if no token runs over from a piece
into the next one. That is so if a piece begins with a delimiter (`LexesLast`), or ends with one
(`LexesFirst`); a text in the middle of others *lexes* to its tokens in front of delimiters (`Lexes`).
-/

namespace RecordStore

variable {α β : Type}

/-- A token of a statement, with placeholders for what there is of a type. -/
inductive Token (α : Type) where
  /-- A keyword, a name or a number. -/
  | word (text : String)
  /-- The name of a column, behind the name of its table. -/
  | column (qualifier name : String)
  | sign (text : String)
  | slot (a : α)
  | quoted (text : String)
  | mark (c : Char)
  deriving DecidableEq

namespace Token

/-- The token with something else in the place of a placeholder. -/
def map (f : α → β) : Token α → Token β
  | word text => word text
  | column qualifier name => column qualifier name
  | sign text => sign text
  | slot a => slot (f a)
  | quoted text => quoted text
  | mark c => mark c

@[simp]
theorem map_word (f : α → β) (text : String) : (word text).map f = word text := rfl

@[simp]
theorem map_slot (f : α → β) (a : α) : (slot a).map f = slot (f a) := rfl

/-- Some characters that make a word, or the name of a column if there is a dot among them. -/
def ofWord (cs : List Char) : Token α :=
  match cs.dropWhile (· ≠ '.') with
  | [] => word (String.ofList cs)
  | _ :: name => column (String.ofList (cs.takeWhile (· ≠ '.'))) (String.ofList name)

end Token

/-! ### The scanner -/

/-- The token that the scanner is in, with what it has seen of it. -/
inductive Pending where
  | nothing
  | word (cs : List Char)
  | sign (cs : List Char)
  | slot (number : Nat)
  | quoted (cs : List Char)
  deriving DecidableEq

def isWordChar (c : Char) : Bool := Identifier.isPlain c || c = '.' || c = '*'

def isSignChar (c : Char) : Bool := c = '=' || c = '!' || c = '<' || c = '>'

namespace Pending

/-- The token that ends here, if there is one. -/
def token : Pending → List (Token Nat)
  | nothing => []
  | word cs => [.ofWord cs]
  | sign cs => [.sign (String.ofList cs)]
  | slot number => [.slot number]
  | quoted cs => [.quoted (String.ofList cs)]

/-- The token that a character begins; a mark is a token by itself. -/
def start (c : Char) : List (Token Nat) × Pending :=
  if isWordChar c then ([], word [c])
  else if isSignChar c then ([], sign [c])
  else if c = '?' then ([], slot 0)
  else if c = '"' then ([], quoted [])
  else if c = ' ' then ([], nothing)
  else ([.mark c], nothing)

/-- The pending token ends before a character, which begins another one. -/
def leave (p : Pending) (c : Char) : List (Token Nat) × Pending :=
  (p.token ++ (start c).1, (start c).2)

/-- What a character makes of the pending token. -/
def step (p : Pending) (c : Char) : List (Token Nat) × Pending :=
  match p with
  | nothing => p.leave c
  | word cs => if isWordChar c then ([], word (cs ++ [c])) else p.leave c
  | sign cs => if isSignChar c then ([], sign (cs ++ [c])) else p.leave c
  | slot number =>
    if c.isDigit then ([], slot (10 * number + (c.toNat - '0'.toNat))) else p.leave c
  | quoted cs =>
    if c = '"' then ([.quoted (String.ofList cs)], nothing) else ([], quoted (cs ++ [c]))

/-- The tokens that end in a text. -/
def scan : Pending → List Char → List (Token Nat)
  | p, [] => p.token
  | p, c :: cs => (p.step c).1 ++ scan (p.step c).2 cs

/-- The token that is pending behind a text. -/
def after (p : Pending) (cs : List Char) : Pending := cs.foldl (fun p c => (p.step c).2) p

def isQuoted : Pending → Bool
  | quoted _ => true
  | _ => false

end Pending

/-- The tokens of a text. -/
def tokensOf (text : String) : List (Token Nat) := Pending.scan .nothing text.toList

/-- The value with a number, counted from one. -/
def valueAt (values : List Param) : Nat → Option Param
  | 0 => none
  | n + 1 => values[n]?

/-- The tokens with values in the place of their placeholders. -/
def bindTokens (values : List Param) (ts : List (Token Nat)) : List (Token (Option Param)) :=
  ts.map (Token.map (valueAt values))

/-- The tokens of a text, with values in the place of their placeholders. -/
def boundTokens (values : List Param) (text : String) : List (Token (Option Param)) :=
  bindTokens values (tokensOf text)

/-! ### Where tokens end -/

/-- A blank, a comma or a parenthesis. -/
def isDelimiter (c : Char) : Bool := c = ' ' || c = ',' || c = '(' || c = ')'

/-- Every token ends in front of this. -/
def endsTokens (cs : List Char) : Bool := cs.head?.all isDelimiter

/-- The text has these tokens, and keeps them if tokens end behind it. -/
def Lexes (text : String) (ts : List (Token Nat)) : Prop :=
  ∀ rest, endsTokens rest = true →
    Pending.scan .nothing (text.toList ++ rest) = ts ++ Pending.scan .nothing rest

/-- The text has these tokens whatever follows. -/
def LexesFirst (text : String) (ts : List (Token Nat)) : Prop :=
  ∀ rest, Pending.scan .nothing (text.toList ++ rest) = ts ++ Pending.scan .nothing rest

/-- The text has these tokens, and tokens end in front of it. -/
structure LexesLast (text : String) (ts : List (Token Nat)) : Prop where
  lexes : Lexes text ts
  ends : ∀ rest, endsTokens rest = true → endsTokens (text.toList ++ rest) = true

/-- The text has these tokens whatever follows, and tokens end in front of it. -/
structure Separates (text : String) (ts : List (Token Nat)) : Prop where
  leads : LexesFirst text ts
  ends : ∀ rest, endsTokens (text.toList ++ rest) = true

namespace Pending

/-- A delimiter belongs to no token but a quoted one. -/
theorem step_of_isDelimiter {c : Char} (hc : isDelimiter c = true) {p : Pending}
    (hp : p.isQuoted = false) : p.step c = p.leave c := by
  have hplain : isWordChar c = false ∧ isSignChar c = false ∧ c.isDigit = false := by
    simp only [isDelimiter, Bool.or_eq_true, decide_eq_true_eq] at hc
    rcases hc with ((rfl | rfl) | rfl) | rfl <;> decide
  obtain ⟨hword, hsign, hdigit⟩ := hplain
  cases p with
  | nothing => rfl
  | word cs => rw [step, hword]; rfl
  | sign cs => rw [step, hsign]; rfl
  | slot number => rw [step, hdigit]; rfl
  | quoted cs => cases hp

theorem scan_of_endsTokens {rest : List Char} (hrest : endsTokens rest = true) {p : Pending}
    (hp : p.isQuoted = false) : scan p rest = p.token ++ scan .nothing rest := by
  cases rest with
  | nil => simp [scan, token]
  | cons c cs =>
    have hc : isDelimiter c = true := by simpa [endsTokens] using hrest
    rw [scan, scan, step_of_isDelimiter hc hp, step_of_isDelimiter hc rfl]
    simp [leave, token]

/-- A text goes on with its own tokens, unless it breaks off in a quoted one. -/
theorem scan_append {rest : List Char} (hrest : endsTokens rest = true) {p : Pending}
    {cs : List Char} (hp : (p.after cs).isQuoted = false) :
    scan p (cs ++ rest) = scan p cs ++ scan .nothing rest := by
  induction cs generalizing p with
  | nil => exact scan_of_endsTokens hrest hp
  | cons c cs ih => rw [List.cons_append, scan, scan, List.append_assoc, ih hp]

theorem scan_word {rest : List Char} (hrest : endsTokens rest = true) {seen cs : List Char}
    (hcs : ∀ c ∈ cs, isWordChar c = true) :
    scan (.word seen) (cs ++ rest) = .ofWord (seen ++ cs) :: scan .nothing rest := by
  induction cs generalizing seen with
  | nil =>
    rw [List.nil_append, List.append_nil, scan_of_endsTokens hrest rfl]
    rfl
  | cons c cs ih =>
    obtain ⟨hc, hcs⟩ := List.forall_mem_cons.1 hcs
    rw [List.cons_append, scan, step, if_pos hc, List.nil_append, ih hcs, List.append_assoc]
    rfl

theorem scan_slot {rest : List Char} (hrest : endsTokens rest = true) {cs : List Char}
    (hcs : ∀ c ∈ cs, c.isDigit = true) (number : Nat) :
    scan (.slot number) (cs ++ rest) =
      .slot (Nat.ofDigitChars 10 cs number) :: scan .nothing rest := by
  induction cs generalizing number with
  | nil => exact scan_of_endsTokens hrest rfl
  | cons c cs ih =>
    obtain ⟨hc, hcs⟩ := List.forall_mem_cons.1 hcs
    rw [List.cons_append, scan, step, if_pos hc, List.nil_append, ih hcs]
    rfl

theorem scan_quoted {seen cs rest : List Char} (hcs : '"' ∉ cs) :
    scan (.quoted seen) (cs ++ '"' :: rest) =
      .quoted (String.ofList (seen ++ cs)) :: scan .nothing rest := by
  induction cs generalizing seen with
  | nil =>
    rw [List.nil_append, List.append_nil, scan, step, if_pos rfl]
    rfl
  | cons c cs ih =>
    obtain ⟨hc, hcs⟩ := not_or.1 (List.mem_cons.not.1 hcs)
    rw [List.cons_append, scan, step, if_neg (Ne.symm hc), List.nil_append, ih hcs,
      List.append_assoc]
    rfl

end Pending

/-! ### Lists with something in between -/

theorem intercalate_cons (sep first : List α) (rest : List (List α)) :
    sep.intercalate (first :: rest) = first ++ rest.flatMap (sep ++ ·) := by
  induction rest generalizing first with
  | nil => simp [List.intercalate]
  | cons next rest ih =>
    rw [List.intercalate_cons_cons, ih, List.flatMap_cons, List.append_assoc, List.append_assoc]

theorem map_intercalate (f : α → β) (sep : List α) (parts : List (List α)) :
    (sep.intercalate parts).map f = (sep.map f).intercalate (parts.map (List.map f)) := by
  cases parts with
  | nil => rfl
  | cons first rest =>
    rw [List.map_cons, intercalate_cons, intercalate_cons, List.map_append, List.map_flatMap,
      List.flatMap_map]
    simp only [List.map_append]

/-! ### Texts put together -/

section Texts

variable {a b separator : String} {ts us vs : List (Token Nat)}

theorem Lexes.tokensOf (h : Lexes a ts) : tokensOf a = ts := by
  have hend := h [] rfl
  rwa [List.append_nil, Pending.scan, Pending.token, List.append_nil] at hend

/-- A text that does not break off in a quoted name. -/
theorem Lexes.of_after (text : String)
    (h : (Pending.nothing.after text.toList).isQuoted = false) :
    Lexes text (RecordStore.tokensOf text) := fun _ hrest => Pending.scan_append hrest h

theorem LexesFirst.append (ha : LexesFirst a ts) (hb : Lexes b us) : Lexes (a ++ b) (ts ++ us) := by
  intro rest hrest
  rw [String.toList_append, List.append_assoc, ha, hb rest hrest, List.append_assoc]

theorem Lexes.append (ha : Lexes a ts) (hb : LexesLast b us) : Lexes (a ++ b) (ts ++ us) := by
  intro rest hrest
  rw [String.toList_append, List.append_assoc, ha _ (hb.ends rest hrest), hb.lexes rest hrest,
    List.append_assoc]

theorem LexesLast.append (ha : LexesLast a ts) (hb : LexesLast b us) : LexesLast (a ++ b) (ts ++ us) where
  lexes := ha.lexes.append hb
  ends rest hrest := by
    rw [String.toList_append, List.append_assoc]
    exact ha.ends _ (hb.ends rest hrest)

theorem LexesLast.empty : LexesLast "" [] where
  lexes _ _ := rfl
  ends _ hrest := hrest

/-- A closing parenthesis. -/
theorem LexesLast.close : LexesLast ")" [.mark ')'] where
  lexes := .of_after _ rfl
  ends _ _ := rfl

theorem Separates.follows (h : Separates separator us) (hb : Lexes b vs) :
    LexesLast (separator ++ b) (us ++ vs) where
  lexes := h.leads.append hb
  ends rest _ := by
    rw [String.toList_append, List.append_assoc]
    exact h.ends _

/-- Two texts with something between them. -/
theorem Lexes.separated (ha : Lexes a ts) (h : Separates separator us) (hb : Lexes b vs) :
    Lexes (a ++ separator ++ b) (ts ++ us ++ vs) := by
  rw [String.append_assoc, List.append_assoc]
  exact ha.append (h.follows hb)

theorem Lexes.intercalate (h : Separates separator us) {texts : List String}
    {tss : List (List (Token Nat))} (htexts : List.Forall₂ Lexes texts tss) :
    Lexes (separator.intercalate texts) (us.intercalate tss) := by
  induction htexts with
  | nil => exact LexesLast.empty.lexes
  | @cons text ts rest tss htext hrest ih =>
    cases hrest with
    | nil => simpa [List.intercalate] using htext
    | @cons next ts' rest tss hnext hrest =>
      rw [String.intercalate_cons_cons, List.intercalate_cons_cons]
      exact htext.separated h ih

/-- Pieces of a list, with something between them. -/
theorem Lexes.intercalate_map (h : Separates separator us) {text : β → String}
    {tokens : β → List (Token Nat)} {bs : List β} (hbs : ∀ b ∈ bs, Lexes (text b) (tokens b)) :
    Lexes (separator.intercalate (bs.map text)) (us.intercalate (bs.map tokens)) := by
  refine .intercalate h ?_
  rwa [List.forall₂_map_left_iff, List.forall₂_map_right_iff, List.forall₂_same]

/-- Pieces of a list, one right behind the other. -/
theorem LexesLast.join {text : β → String} {tokens : β → List (Token Nat)} {bs : List β}
    (hbs : ∀ b ∈ bs, LexesLast (text b) (tokens b)) :
    LexesLast (String.join (bs.map text)) (bs.flatMap tokens) := by
  induction bs with
  | nil => exact .empty
  | cons b bs ih =>
    obtain ⟨hb, hbs⟩ := List.forall_mem_cons.1 hbs
    have hcons : String.join (text b :: bs.map text) = text b ++ String.join (bs.map text) := by
      rw [← String.toList_inj]
      simp
    rw [List.map_cons, hcons, List.flatMap_cons]
    exact hb.append (ih hbs)

end Texts

theorem Lexes.of_isWordChar {text : String} (hempty : text.toList ≠ [])
    (h : ∀ c ∈ text.toList, isWordChar c = true) : Lexes text [.ofWord text.toList] := by
  intro rest hrest
  cases hcs : text.toList with
  | nil => exact absurd hcs hempty
  | cons c cs =>
    rw [hcs] at h
    obtain ⟨hc, hcs⟩ := List.forall_mem_cons.1 h
    have hstart : Pending.nothing.step c = ([], .word [c]) := by
      rw [Pending.step, Pending.leave, Pending.start, if_pos hc]
      rfl
    rw [List.cons_append, Pending.scan, hstart, List.nil_append, Pending.scan_word hrest hcs]
    rfl

namespace Identifier

variable {name : String}

theorem isWordChar (h : isValid name = true) : ∀ c ∈ name.toList, isWordChar c = true := by
  rw [isValid, Bool.and_eq_true, List.all_eq_true] at h
  intro c hc
  rw [RecordStore.isWordChar, h.2 c hc]
  rfl

theorem notMem_quote (h : isValid name = true) : '"' ∉ name.toList := by
  intro hquote
  exact absurd (isWordChar h '"' hquote) (by decide)

theorem toList_ne_nil (h : isValid name = true) : name.toList ≠ [] := by
  rw [isValid, Bool.and_eq_true, Bool.not_eq_true', List.isEmpty_eq_false_iff] at h
  exact h.1

end Identifier

/-! ### Names, numbers and placeholders -/

theorem Token.ofWord_of_notMem {text : String} (h : '.' ∉ text.toList) :
    (ofWord text.toList : Token α) = word text := by
  rw [ofWord, dropWhile_dot_of_notMem h]
  simp

theorem Token.ofWord_dotted {qualifier name : String} (h : '.' ∉ qualifier.toList) :
    (ofWord (qualifier ++ "." ++ name).toList : Token α) = column qualifier name := by
  obtain ⟨hfront, hback⟩ := cut_at_dot h name.toList
  rw [ofWord, toList_dotted, hback, hfront]
  simp

namespace Lexes

theorem name {name : String} (h : Identifier.isValid name = true) : Lexes name [.word name] := by
  have hword := of_isWordChar (Identifier.toList_ne_nil h) (Identifier.isWordChar h)
  rwa [Token.ofWord_of_notMem (Identifier.notMem_dot h)] at hword

theorem column {qualifier name : String} (hqualifier : Identifier.isValid qualifier = true)
    (hname : Identifier.isValid name = true) :
    Lexes (qualifier ++ "." ++ name) [.column qualifier name] := by
  rw [← Token.ofWord_dotted (Identifier.notMem_dot hqualifier)]
  refine of_isWordChar ?_ fun c hc => ?_
  · simp
  · rw [toList_dotted, List.mem_append, List.mem_cons] at hc
    rcases hc with hc | rfl | hc
    · exact Identifier.isWordChar hqualifier c hc
    · decide
    · exact Identifier.isWordChar hname c hc

theorem number (n : Nat) : Lexes (toString n) [.word (toString n)] := by
  refine name ?_
  rw [Identifier.isValid, Bool.and_eq_true, List.all_eq_true]
  refine ⟨?_, fun c hc => ?_⟩
  · rw [Nat.toString_eq_repr, Nat.toList_repr]
    simp [Nat.toDigits_ne_nil]
  · rw [Identifier.isPlain, Char.isAlphanum, isDigit_of_mem_toString hc]
    simp

/-- A placeholder is read with its number. -/
theorem placeholder (slot : Nat) : Lexes (RecordStore.placeholder slot) [.slot slot] := by
  intro rest hrest
  have htext : (RecordStore.placeholder slot).toList ++ rest =
      '?' :: ((toString slot).toList ++ rest) := by
    rw [RecordStore.placeholder, String.toList_append]
    rfl
  have hdigits : ∀ c ∈ (toString slot).toList, c.isDigit = true :=
    fun c hc => isDigit_of_mem_toString hc
  have hnumber : Nat.ofDigitChars 10 (toString slot).toList 0 = slot := by
    rw [Nat.toString_eq_repr, Nat.toList_repr]
    exact Nat.ofDigitChars_toDigits (by decide) (by decide)
  have hstart : Pending.nothing.step '?' = ([], .slot 0) := rfl
  rw [htext, Pending.scan, hstart, List.nil_append, Pending.scan_slot hrest hdigits, hnumber]
  rfl

theorem quoted {text : String} (h : '"' ∉ text.toList) :
    Lexes ("\"" ++ text ++ "\"") [.quoted text] := by
  intro rest _
  have htext : ("\"" ++ text ++ "\"").toList ++ rest = '"' :: (text.toList ++ '"' :: rest) := by
    simp [String.toList_append]
  have hstart : Pending.nothing.step '"' = ([], .quoted []) := rfl
  rw [htext, Pending.scan, hstart, List.nil_append, Pending.scan_quoted h]
  simp

end Lexes

/-! ### Between the parts of a statement -/

namespace Separates

theorem blank : Separates " " [] := ⟨fun _ => rfl, fun _ => rfl⟩

theorem comma : Separates ", " [.mark ','] := ⟨fun _ => rfl, fun _ => rfl⟩

theorem as : Separates " AS " [.word "AS"] := ⟨fun _ => rfl, fun _ => rfl⟩

theorem equals : Separates " = " [.sign "="] := ⟨fun _ => rfl, fun _ => rfl⟩

theorem and : Separates " AND " [.word "AND"] := ⟨fun _ => rfl, fun _ => rfl⟩

theorem or : Separates " OR " [.word "OR"] := ⟨fun _ => rfl, fun _ => rfl⟩

theorem «from» : Separates " FROM " [.word "FROM"] := ⟨fun _ => rfl, fun _ => rfl⟩

end Separates

end RecordStore
