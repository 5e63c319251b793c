import RecordStore.Proofs.Search.Characters
import RecordStore.Proofs.Search.Selection

/-!
# The wording of statements

Attributes and operands are arbitrary texts, and a statement is a text again. What keeps them apart
is that the words of a compiled statement are words of the language and names that the compiler was
registered with (`QueryCompiler.Spells`), which have all passed the guard
(`QueryCompiler.Names.isValid`). Only a label may be more than a name, a name of a filter with the
name of a property behind a dot, and then it stands in quotes. Numbers stand behind `LIMIT` and in
`0 = 1`, and nowhere else (`QueryCompiler.Piece`).

So the text is made of few characters (`isTextChar`), none of which an operand brought in
(`QueryCompiler.compile_isWorded`).
-/

namespace RecordStore

/-! ### Names and words -/

/-- The names that a filter for another table was registered with. -/
inductive ForeignFilter.Names (f : ForeignFilter) : String → Prop
  | name : Names f f.name
  | table : Names f f.table
  | joinAlias : Names f f.joinAlias
  | entityId : Names f f.entityId
  | targetId : Names f f.targetId
  | property {sub : String} (h : f.schema.contains sub = true) : Names f sub
  | discriminator {d : String × Value} (h : d ∈ f.discriminator) : Names f d.1

/-- The names that a compiler was registered with. -/
inductive QueryCompiler.Names (c : QueryCompiler) : String → Prop
  | table : Names c c.table
  | searchedAlias : Names c searchedAlias
  | property {name : String} (h : c.schema.contains name = true) : Names c name
  | embedded {f : EmbeddedFilter} {sub : String} (hf : .embedded f ∈ c.filters)
      (h : f.schema.contains sub = true) : Names c (f.stem ++ "_" ++ sub)
  | joined {f : ForeignFilter} {name : String} (hf : .foreign f ∈ c.filters) (h : f.Names name) :
      Names c name

/-- The words of the language. -/
def keywords : List String :=
  ["SELECT", "DISTINCT", "count", "total", "*", "FROM", "AS", "LEFT", "INNER", "JOIN", "ON", "WHERE",
    "AND", "OR", "IS", "NOT", "NULL", "IN", "LIKE", "GROUP", "BY", "ORDER", "ASC", "DESC"]

/-- The tokens of statements, outside of quotes and but for numbers. -/
inductive QueryCompiler.Spells (c : QueryCompiler) : Token Nat → Prop
  | keyword {text : String} (h : text ∈ keywords) : Spells c (.word text)
  | name {name : String} (h : c.Names name) : Spells c (.word name)
  | column {qualifier name : String} (h : c.Names qualifier) (h' : c.Names name) :
      Spells c (.column qualifier name)
  | everything : Spells c (.column searchedAlias "*")
  | sign {text : String} (h : text ∈ ["=", "!=", ">", ">=", "<", "<="]) : Spells c (.sign text)
  | slot (number : Nat) : Spells c (.slot number)
  | mark {ch : Char} (h : ch ∈ [',', '(', ')']) : Spells c (.mark ch)

/-- The characters of statements. -/
def isTextChar (ch : Char) : Bool :=
  Identifier.isPlain ch ||
    [' ', '.', ',', '(', ')', '=', '<', '>', '!', '?', '*', '"'].contains ch

/-- A piece of a statement, with the label that it has in quotes. -/
inductive QueryCompiler.Piece (c : QueryCompiler) : List (Token Nat) → List String → Prop
  | spelled {t : Token Nat} (h : c.Spells t) : Piece c [t] []
  | quoted (label : String) : Piece c [.quoted label] [label]
  /-- What is never true. -/
  | never : Piece c [.word "0", .sign "=", .word "1"] []
  | limit (page : Page) : Piece c (SelectStatement.limitTokens (some page)) []

/-- Pieces of a statement, one behind the other, and their labels. -/
inductive QueryCompiler.Words (c : QueryCompiler) : List (Token Nat) → List String → Prop
  | nil : Words c [] []
  | cons {ts us : List (Token Nat)} {labels labels' : List String} (h : c.Piece ts labels)
      (h' : Words c us labels') : Words c (ts ++ us) (labels ++ labels')

/-- The text consists of words of the compiler and of these labels in quotes. -/
structure QueryCompiler.IsWorded (c : QueryCompiler) (text : String) (labels : List String) :
    Prop where
  words : c.Words (tokensOf text) labels
  quoted : quotedOf (tokensOf text) = labels
  /-- Every quote opens or closes one of the labels. -/
  closed : text.toList.count '"' = 2 * labels.length
  dotted : ∀ label ∈ labels, ∃ name sub, label = name ++ "." ++ sub ∧
    Identifier.isValid name = true ∧ Identifier.isValid sub = true
  characters : ∀ ch ∈ text.toList, isTextChar ch = true

theorem ForeignFilter.Names.isValid {f : ForeignFilter} {name : String} (h : f.Names name)
    (hf : f.Made) (hschema : f.schema.Made) : Identifier.isValid name = true := by
  cases h with
  | name => exact hf.isValid.1
  | table => exact hf.isNamed.table
  | joinAlias => exact hf.isNamed.joinAlias
  | entityId => exact hf.isNamed.entityId
  | targetId => exact hf.isNamed.targetId
  | property h => exact hschema.isValid h
  | discriminator h => exact hf.isNamed.discriminator _ h

theorem QueryCompiler.Names.isValid {c : QueryCompiler} (hc : c.IsMade) {name : String}
    (h : c.Names name) : Identifier.isValid name = true := by
  cases h with
  | table => exact hc.built.table
  | searchedAlias => exact searchedAlias_isValid
  | property h => exact hc.schema.isValid h
  | embedded hf h =>
    have hstem := (hc.built.filters _ hf).stem
    exact Identifier.isValid_append (Identifier.isValid_append hstem (by decide))
      ((hc.filters _ hf).isValid h)
  | joined hf h => exact h.isValid (hc.built.filters _ hf).made (hc.filters _ hf)

/-! ### Characters -/

theorem isTextChar_of_isValid {name : String} (h : Identifier.isValid name = true) :
    ∀ ch ∈ name.toList, isTextChar ch = true := by
  rw [Identifier.isValid, Bool.and_eq_true, List.all_eq_true] at h
  intro ch hch
  rw [isTextChar, h.2 ch hch, Bool.true_or]

theorem isTextChar_of_isDigit {ch : Char} (h : ch.isDigit = true) : isTextChar ch = true := by
  simp [isTextChar, Identifier.isPlain, Char.isAlphanum, h]

theorem isTextChar_of_all {texts : List String}
    (h : texts.all (·.toList.all isTextChar) = true) {text : String} (htext : text ∈ texts)
    {ch : Char} (hch : ch ∈ text.toList) : isTextChar ch = true :=
  List.all_eq_true.1 (List.all_eq_true.1 h text htext) ch hch

theorem QueryCompiler.Spells.isTextChar {c : QueryCompiler} (hc : c.IsMade) {t : Token Nat}
    (h : c.Spells t) {ch : Char} (hch : t.Shows ch) : isTextChar ch = true := by
  cases h with
  | keyword h =>
    exact isTextChar_of_all (by decide) h hch
  | name h => exact isTextChar_of_isValid (h.isValid hc) ch hch
  | column h h' =>
    rcases hch with hch | rfl | hch
    · exact isTextChar_of_isValid (h.isValid hc) ch hch
    · rfl
    · exact isTextChar_of_isValid (h'.isValid hc) ch hch
  | everything =>
    have hall : ["e", "*"].all (·.toList.all RecordStore.isTextChar) = true := by decide
    rcases hch with hch | rfl | hch
    · exact isTextChar_of_all hall List.mem_cons_self hch
    · rfl
    · exact isTextChar_of_all hall (List.mem_cons_of_mem _ List.mem_cons_self) hch
  | sign h =>
    have hall : ["=", "!=", ">", ">=", "<", "<="].all (·.toList.all RecordStore.isTextChar) =
        true := by decide
    exact isTextChar_of_all hall h hch
  | slot number =>
    rcases hch with rfl | hch
    · rfl
    · exact isTextChar_of_isDigit hch
  | mark h =>
    have hall : [',', '(', ')'].all RecordStore.isTextChar = true := by decide
    obtain rfl := hch
    exact List.all_eq_true.1 hall _ h

theorem isTextChar_of_label {name sub : String} (hname : Identifier.isValid name = true)
    (hsub : Identifier.isValid sub = true) {ch : Char}
    (hch : (Token.quoted (name ++ "." ++ sub)).Shows ch) : isTextChar ch = true := by
  rw [Token.Shows, toList_dotted, List.mem_append, List.mem_cons] at hch
  rcases hch with rfl | hch | rfl | hch
  · rfl
  · exact isTextChar_of_isValid hname ch hch
  · rfl
  · exact isTextChar_of_isValid hsub ch hch

theorem QueryCompiler.Spells.quoted?_eq {c : QueryCompiler} {t : Token Nat} (h : c.Spells t) :
    t.quoted? = none := by
  cases h <;> rfl

/-- The characters of a piece, if its label has a name on either side of a dot. -/
theorem QueryCompiler.Piece.isTextChar {c : QueryCompiler} (hc : c.IsMade) {ts : List (Token Nat)}
    {labels : List String} (h : c.Piece ts labels)
    (hdotted : ∀ label ∈ labels, ∃ name sub, label = name ++ "." ++ sub ∧
      Identifier.isValid name = true ∧ Identifier.isValid sub = true) {t : Token Nat} (ht : t ∈ ts)
    {ch : Char} (hch : t.Shows ch) : isTextChar ch = true := by
  have hnumber : ∀ n : Nat, ch ∈ (toString n).toList → RecordStore.isTextChar ch = true :=
    fun n hch => isTextChar_of_isDigit (isDigit_of_mem_toString hch)
  cases h with
  | spelled h =>
    rw [List.mem_singleton.1 ht] at hch
    exact h.isTextChar hc hch
  | quoted label =>
    obtain ⟨name, sub, rfl, hname, hsub⟩ := hdotted label (List.mem_singleton_self label)
    rw [List.mem_singleton.1 ht] at hch
    exact isTextChar_of_label hname hsub hch
  | never =>
    have hsign : c.Spells (.sign "=") := .sign (by decide)
    simp only [List.mem_cons, List.not_mem_nil, or_false] at ht
    rcases ht with rfl | rfl | rfl
    · exact hnumber 0 hch
    · exact hsign.isTextChar hc hch
    · exact hnumber 1 hch
  | limit page =>
    have hword : ["LIMIT"].all (·.toList.all RecordStore.isTextChar) = true := by decide
    have hcomma : c.Spells (.mark ',') := .mark (by decide)
    simp only [SelectStatement.limitTokens, List.mem_cons, List.not_mem_nil, or_false] at ht
    rcases ht with rfl | rfl | rfl | rfl
    · exact isTextChar_of_all hword List.mem_cons_self hch
    · exact hnumber _ hch
    · exact hcomma.isTextChar hc hch
    · exact hnumber _ hch

theorem QueryCompiler.Piece.quotedOf_eq {c : QueryCompiler} {ts : List (Token Nat)}
    {labels : List String} (h : c.Piece ts labels) : quotedOf ts = labels := by
  cases h with
  | spelled h => rw [quotedOf, List.filterMap_cons_none h.quoted?_eq, List.filterMap_nil]
  | quoted | never | limit => rfl

namespace QueryCompiler.Words

variable {c : QueryCompiler} {ts us : List (Token Nat)} {labels labels' : List String}

theorem append (h : c.Words ts labels) (h' : c.Words us labels') :
    c.Words (ts ++ us) (labels ++ labels') := by
  induction h with
  | nil => exact h'
  | cons hpiece _ ih =>
    rw [List.append_assoc, List.append_assoc]
    exact .cons hpiece ih

theorem quotedOf_eq (h : c.Words ts labels) : quotedOf ts = labels := by
  induction h with
  | nil => rfl
  | cons hpiece _ ih => rw [quotedOf, List.filterMap_append, ← quotedOf, ← quotedOf,
      hpiece.quotedOf_eq, ih]

theorem isTextChar (hc : c.IsMade) (h : c.Words ts labels)
    (hdotted : ∀ label ∈ labels, ∃ name sub, label = name ++ "." ++ sub ∧
      Identifier.isValid name = true ∧ Identifier.isValid sub = true) {t : Token Nat} (ht : t ∈ ts)
    {ch : Char} (hch : t.Shows ch) : isTextChar ch = true := by
  induction h with
  | nil => cases ht
  | cons hpiece _ ih =>
    obtain ⟨hfirst, hrest⟩ := List.forall_mem_append.1 hdotted
    rcases List.mem_append.1 ht with ht | ht
    · exact hpiece.isTextChar hc hfirst ht hch
    · exact ih hrest ht

/-- What a text is worded in follows from its tokens. -/
theorem isWorded (hc : c.IsMade) {text : String} (h : c.Words ts labels) (hlexes : Lexes text ts)
    (hdotted : ∀ label ∈ labels, ∃ name sub, label = name ++ "." ++ sub ∧
      Identifier.isValid name = true ∧ Identifier.isValid sub = true) : c.IsWorded text labels := by
  have htokens : Pending.scan .nothing text.toList = ts := hlexes.tokensOf
  refine ⟨by rwa [tokensOf, htokens], by rw [tokensOf, htokens, h.quotedOf_eq], ?_, hdotted,
    fun ch hch => ?_⟩
  · have hcount := Pending.count_quote hlexes.isQuoted_after
    rwa [htokens, h.quotedOf_eq] at hcount
  · by_cases hblank : ch = ' '
    · rw [hblank]
      rfl
    · obtain ⟨t, ht, hshows⟩ := Pending.scan_shows (p := .nothing) (.inr ⟨hch, hblank⟩)
      rw [htokens] at ht
      exact h.isTextChar hc hdotted ht hshows

end QueryCompiler.Words

/-! ### Columns and labels -/

namespace QueryCompiler

variable {c : QueryCompiler}

/-- A column that goes by registered names. -/
def IsFrom (c : QueryCompiler) (e : Expr) : Prop :=
  ∃ qualifier name, e = .column qualifier name ∧ c.Names qualifier ∧ c.Names name

theorem IsFrom.spells {e : Expr} (h : c.IsFrom e) : c.Spells e.token := by
  obtain ⟨qualifier, name, rfl, hqualifier, hname⟩ := h
  exact .column hqualifier hname

theorem isFrom_searched {name : String} (h : c.Names name) : c.IsFrom (.column searchedAlias name) :=
  ⟨searchedAlias, name, rfl, .searchedAlias, h⟩

theorem isFrom_joined {f : ForeignFilter} (hf : .foreign f ∈ c.filters) {name : String}
    (h : f.Names name) : c.IsFrom (.column f.joinAlias name) :=
  ⟨f.joinAlias, name, rfl, .joined hf .joinAlias, .joined hf h⟩

theorem Knows.isFrom (hc : c.IsMade) {attr : String} (h : c.Knows attr) {e : Expr}
    (he : c.expr? attr = some e) : c.IsFrom e := by
  have hfilter : ∀ {f}, f ∈ c.filters → c.filter? f.name = some f :=
    fun hf => hc.built.filter?_eq_some_iff.2 ⟨hf, rfl⟩
  unfold expr? at he
  cases h with
  | property hproperty =>
    rw [Attribute.ofText_of_notMem (Identifier.notMem_dot (hc.schema.isValid hproperty))] at he
    dsimp only at he
    rw [if_pos hproperty] at he
    cases he
    exact isFrom_searched (.property hproperty)
  | @joined f hf =>
    have hname : Identifier.isValid f.name = true := (hc.built.filters _ hf).isValid
    have hother : c.schema.contains f.name = false := hc.built.distinct.2 _ hf
    have hfound : c.filter? f.name = some (.foreign f) := hfilter hf
    rw [Attribute.ofText_of_notMem (Identifier.notMem_dot hname)] at he
    dsimp only at he
    rw [hother, if_neg Bool.false_ne_true, hfound] at he
    cases he
    exact isFrom_joined hf .targetId
  | @sub f sub hf hsub =>
    have hname := Identifier.notMem_dot (hc.built.filters _ hf).isValid
    rw [Attribute.ofText_dotted hname (Identifier.notMem_dot ((hc.filters f hf).isValid hsub))] at he
    dsimp only at he
    rw [hfilter hf] at he
    cases f with
    | embedded =>
      cases he
      exact isFrom_searched (.embedded hf hsub)
    | foreign =>
      cases he
      exact isFrom_joined hf (.property hsub)
    | custom => cases hc.built.filters _ hf

theorem Offers.isFrom (hc : c.IsMade) {column : Column} (h : c.Offers column) :
    c.IsFrom column.expr := h.knows.isFrom hc h.expr

/-- A label without a dot is a registered name. -/
theorem Knows.names {attr : String} (h : c.Knows attr) (hdot : '.' ∉ attr.toList) :
    c.Names attr := by
  cases h with
  | property hproperty => exact .property hproperty
  | joined hf => exact .joined hf .name
  | sub => simp at hdot

/-- A label with a dot consists of two names. -/
theorem Knows.dotted (hc : c.IsMade) {attr : String} (h : c.Knows attr) (hdot : '.' ∈ attr.toList) :
    ∃ name sub, attr = name ++ "." ++ sub ∧ Identifier.isValid name = true ∧
      Identifier.isValid sub = true := by
  cases h with
  | property hproperty => exact absurd hdot (Identifier.notMem_dot (hc.schema.isValid hproperty))
  | @joined f hf =>
    have hname : Identifier.isValid f.name = true := (hc.built.filters _ hf).isValid
    exact absurd hdot (Identifier.notMem_dot hname)
  | @sub f sub hf hsub =>
    exact ⟨f.name, sub, rfl, (hc.built.filters _ hf).isValid, (hc.filters f hf).isValid hsub⟩

/-! ### Parts of statements -/

/-- Pieces without a label. -/
abbrev SpellsAll (c : QueryCompiler) (ts : List (Token Nat)) : Prop := c.Words ts []

theorem spellsAll_nil : c.SpellsAll [] := .nil

theorem spellsAll_cons {t : Token Nat} {ts : List (Token Nat)} (h : c.Spells t)
    (hts : c.SpellsAll ts) : c.SpellsAll (t :: ts) := .cons (.spelled h) hts

theorem spellsAll_singleton {t : Token Nat} (h : c.Spells t) : c.SpellsAll [t] :=
  spellsAll_cons h .nil

theorem spellsAll_append {ts us : List (Token Nat)} (ht : c.SpellsAll ts) (hu : c.SpellsAll us) :
    c.SpellsAll (ts ++ us) := ht.append hu

theorem spellsAll_words {words : List String} (h : ∀ text ∈ words, text ∈ keywords) :
    c.SpellsAll (words.map .word) := by
  induction words with
  | nil => exact spellsAll_nil
  | cons text words ih =>
    obtain ⟨htext, hwords⟩ := List.forall_mem_cons.1 h
    exact spellsAll_cons (.keyword htext) (ih hwords)

theorem spellsAll_flatMap {β : Type} {tokens : β → List (Token Nat)} {bs : List β}
    (h : ∀ b ∈ bs, c.SpellsAll (tokens b)) : c.SpellsAll (bs.flatMap tokens) := by
  induction bs with
  | nil => exact spellsAll_nil
  | cons b bs ih =>
    obtain ⟨hb, hbs⟩ := List.forall_mem_cons.1 h
    rw [List.flatMap_cons]
    exact spellsAll_append hb (ih hbs)

/-- Pieces with something between them. -/
theorem spellsAll_intercalate {sep : Token Nat} (hsep : c.Spells sep) {β : Type}
    {tokens : β → List (Token Nat)} {bs : List β} (h : ∀ b ∈ bs, c.SpellsAll (tokens b)) :
    c.SpellsAll ([sep].intercalate (bs.map tokens)) := by
  cases bs with
  | nil => exact spellsAll_nil
  | cons b bs =>
    obtain ⟨hb, hbs⟩ := List.forall_mem_cons.1 h
    rw [List.map_cons, intercalate_cons, List.flatMap_map]
    exact spellsAll_append hb (spellsAll_flatMap fun b hb => spellsAll_cons hsep (hbs b hb))

theorem spells_operator (operator : Operator) : c.Spells operator.token := by
  cases operator with
  | like | oneOf => exact .keyword (by decide)
  | eq | ne | gt | ge | lt | le => exact .sign (by decide)

theorem spellsAll_exprs {es : List Expr} (h : ∀ e ∈ es, c.IsFrom e) : c.SpellsAll (exprTokens es) :=
  spellsAll_intercalate (.mark (by decide)) fun e he => spellsAll_singleton (h e he).spells

theorem Poses.spells (hc : c.IsMade) {values : List Param} {cond : Condition} {p : Predicate}
    (hknows : c.Knows cond.attr) (h : c.Poses values cond p) : c.SpellsAll p.tokens := by
  obtain ⟨e, he, hcompares⟩ := h
  have hexpr := (hknows.isFrom hc he).spells
  generalize cond.operator = operator, cond.operand = operand at hcompares
  cases hcompares with
  | isNull =>
    have hwords : ∀ text ∈ ["IS", "NULL"], text ∈ keywords := by decide
    exact spellsAll_cons hexpr (spellsAll_words hwords)
  | isNotNull =>
    have hwords : ∀ text ∈ ["IS", "NOT", "NULL"], text ∈ keywords := by decide
    exact spellsAll_cons hexpr (spellsAll_words hwords)
  | never => exact .cons .never .nil
  | @isIn operands slots _ _ =>
    have hopen : c.SpellsAll [e.token, .word "IN", .mark '('] :=
      spellsAll_cons hexpr (spellsAll_cons (.keyword (by decide))
        (spellsAll_singleton (.mark (by decide))))
    have hslots : c.SpellsAll ([.mark ','].intercalate (slots.map ([.slot ·]))) :=
      spellsAll_intercalate (.mark (by decide)) fun slot _ => spellsAll_singleton (.slot slot)
    exact spellsAll_append (spellsAll_append hopen hslots) (spellsAll_singleton (.mark (by decide)))
  | compare _ _ _ =>
    exact spellsAll_cons hexpr (spellsAll_cons (spells_operator operator)
      (spellsAll_singleton (.slot _)))

/-- Predicates in parentheses. -/
theorem spellsAll_block {word : String} (hword : word ∈ keywords) {ps : List Predicate}
    (h : ∀ p ∈ ps, c.SpellsAll p.tokens) :
    ∀ ts ∈ RowFilter.blockTokens word ps, c.SpellsAll ts := by
  intro ts hts
  rw [RowFilter.blockTokens] at hts
  split at hts
  · cases hts
  · cases hts
    have hrow := spellsAll_intercalate (.keyword hword) h
    exact spellsAll_append (spellsAll_cons (.mark (by decide)) hrow)
      (spellsAll_singleton (.mark (by decide)))

theorem spellsAll_clause (hc : c.IsMade) {s : Search} {values : List Param} {filter : RowFilter}
    (hknows : ∀ cond ∈ s.conditions, c.Knows cond.attr)
    (hall : List.Forall₂ (c.Poses values) (s.conditionsIn .and) filter.all)
    (hany : List.Forall₂ (c.Poses values) (s.conditionsIn .or) filter.any) :
    c.SpellsAll filter.clauseTokens := by
  have hpredicates : ∀ {block ps}, List.Forall₂ (c.Poses values) (s.conditionsIn block) ps →
      ∀ p ∈ ps, c.SpellsAll p.tokens := by
    intro block ps h p hp
    obtain ⟨cond, hcond, hposes⟩ := forall₂_exists_of_mem h p hp
    exact hposes.spells hc (hknows cond (List.mem_of_mem_filter hcond))
  have hallTokens := spellsAll_block (by decide : "AND" ∈ keywords) (hpredicates hall)
  have hanyTokens := spellsAll_block (by decide : "OR" ∈ keywords) (hpredicates hany)
  have hwhere : ∀ {ts}, c.SpellsAll ts → c.SpellsAll (.word "WHERE" :: ts) :=
    spellsAll_cons (.keyword (by decide))
  rw [RowFilter.clauseTokens, RowFilter.tokens?]
  generalize RowFilter.blockTokens "AND" filter.all = all,
    RowFilter.blockTokens "OR" filter.any = any at hallTokens hanyTokens
  rcases all with _ | a <;> rcases any with _ | o
  · exact spellsAll_nil
  · exact hwhere (hanyTokens o rfl)
  · exact hwhere (hallTokens a rfl)
  · have hor : c.SpellsAll (.word "OR" :: o) :=
      spellsAll_cons (.keyword (by decide)) (hanyTokens o rfl)
    rw [Option.map_some, Option.getD_some, List.append_assoc]
    exact hwhere (spellsAll_append (hallTokens a rfl) hor)

theorem spellsAll_join {f : ForeignFilter} (hf : .foreign f ∈ c.filters) {values : List Param}
    {join : Join} (h : f.Joins values join) : c.SpellsAll join.tokens := by
  obtain ⟨placed, rfl, hplaced⟩ := h
  have hkind : c.Spells (.word (if f.isOptional then "LEFT" else "INNER")) := by
    split <;> exact .keyword (by decide)
  have htarget := (isFrom_joined hf .targetId).spells
  have hentity := (isFrom_searched (.joined hf .entityId)).spells
  rw [Join.tokens]
  refine spellsAll_append ?_ ?_
  · refine spellsAll_cons hkind (spellsAll_cons (.keyword (by decide)) ?_)
    refine spellsAll_cons (.name (.joined hf .table)) (spellsAll_cons (.keyword (by decide)) ?_)
    refine spellsAll_cons (.name (.joined hf .joinAlias)) (spellsAll_cons (.keyword (by decide)) ?_)
    exact spellsAll_cons htarget (spellsAll_cons (.sign (by decide))
      (spellsAll_singleton hentity))
  · rcases placed with _ | ⟨column, slot⟩
    · exact spellsAll_nil
    · generalize hd : f.discriminator = d at hplaced
      cases hplaced with
      | @some _ d h =>
        obtain ⟨rfl, -⟩ := h
        have hcolumn := (isFrom_joined hf (.discriminator hd)).spells
        exact spellsAll_cons (.keyword (by decide)) (spellsAll_cons hcolumn
          (spellsAll_cons (.sign (by decide)) (spellsAll_singleton (.slot slot))))

theorem spellsAll_source (hc : c.IsMade) {s : Search} {ctx : Compilation} {joins : List Join}
    {filter : RowFilter} (hknows : ∀ cond ∈ s.conditions, c.Knows cond.attr)
    (h : Fits c s ctx joins filter) : c.SpellsAll (sourceTokens c.table joins filter) := by
  obtain ⟨fs, -, hfs, hjoins⟩ := h.filters
  have hjoin : c.SpellsAll (joins.flatMap (·.tokens)) := by
    refine spellsAll_flatMap fun join hjoin => ?_
    obtain ⟨f, hf, hposes⟩ := forall₂_exists_of_mem hjoins join hjoin
    exact spellsAll_join (hfs f hf) hposes
  have htable : c.SpellsAll [.word c.table, .word "AS", .word searchedAlias] :=
    spellsAll_cons (.name .table) (spellsAll_cons (.keyword (by decide))
      (spellsAll_singleton (.name .searchedAlias)))
  exact spellsAll_append (spellsAll_append htable hjoin) (spellsAll_clause hc hknows h.all h.any)

/-! ### Statements -/

/-- The labels that stand in quotes. -/
def dotted (labels : List String) : List String := labels.filter fun label => '.' ∈ label.toList

/-- An item is spelled but for its label, which is quoted if it has a dot. -/
theorem words_item {item : SelectItem} (hc : c.IsMade)
    (h : ∀ column, item = .column column → c.Offers column) :
    c.Words item.tokens (dotted item.label?.toList) := by
  cases item with
  | everything => exact spellsAll_singleton .everything
  | column column =>
    have hoffers := h column rfl
    have hfront : c.SpellsAll [column.expr.token, .word "AS"] :=
      spellsAll_cons (hoffers.isFrom hc).spells (spellsAll_singleton (.keyword (by decide)))
    have hlabel : c.Words [column.labelToken] (dotted [column.label]) := by
      rw [Column.labelToken, dotted, List.filter_singleton]
      split
      next hdot =>
        rw [decide_eq_true hdot]
        exact .cons (.quoted column.label) .nil
      next hdot =>
        rw [decide_eq_false hdot]
        exact spellsAll_singleton (.name (hoffers.knows.names hdot))
    exact hfront.append hlabel

theorem words_items (hc : c.IsMade) {items : List SelectItem}
    (h : ∀ column, .column column ∈ items → c.Offers column) :
    c.Words ([.mark ','].intercalate (items.map (·.tokens)))
      (dotted (items.filterMap (·.label?))) := by
  have hitem : ∀ item ∈ items, c.Words item.tokens (dotted item.label?.toList) :=
    fun item hitem => words_item hc fun column hcolumn => h column (hcolumn ▸ hitem)
  have hlabels : dotted (items.filterMap (·.label?)) =
      items.flatMap fun item => dotted item.label?.toList := by
    rw [dotted, List.filterMap_eq_flatMap_toList, List.filter_flatMap]
    rfl
  rw [hlabels]
  clear h hlabels
  cases items with
  | nil => exact spellsAll_nil
  | cons item items =>
    obtain ⟨hfirst, hitems⟩ := List.forall_mem_cons.1 hitem
    rw [List.map_cons, intercalate_cons, List.flatMap_map, List.flatMap_cons]
    refine hfirst.append ?_
    clear hitem
    induction items with
    | nil => exact spellsAll_nil
    | cons item items ih =>
      obtain ⟨hitem, hitems⟩ := List.forall_mem_cons.1 hitems
      have hcomma : c.SpellsAll [.mark ','] := spellsAll_singleton (.mark (by decide))
      exact (hcomma.append hitem).append (ih hitems)

theorem Outlines.spells_back (hc : c.IsMade) {s : Search} {groups grouped : List Column}
    {statement : SelectStatement} (h : c.Outlines s groups grouped statement) :
    c.SpellsAll ([.word "GROUP", .word "BY"] ++ exprTokens statement.groupBy
      ++ SelectStatement.orderTokens statement.orderBy
      ++ SelectStatement.limitTokens statement.limit) := by
  have hgroupBy : ∀ e ∈ statement.groupBy, c.IsFrom e := by
    obtain ⟨-, hgrouped⟩ := h.selects.offers h.offered
    rw [h.groupBy]
    intro e he
    rcases List.mem_append.1 (mem_foldl_insertNew he) with he | he
    · obtain ⟨key, hkey, rfl⟩ := List.mem_map.1 he
      exact (keys_offer hc key hkey).isFrom hc
    · obtain ⟨column, hcolumn, rfl⟩ := List.mem_map.1 he
      exact (hgrouped column hcolumn).isFrom hc
  have horder : c.SpellsAll (SelectStatement.orderTokens statement.orderBy) := by
    rw [SelectStatement.orderTokens]
    split
    · exact spellsAll_nil
    · refine spellsAll_append (spellsAll_cons (.keyword (by decide))
        (spellsAll_singleton (.keyword (by decide)))) ?_
      refine spellsAll_intercalate (.mark (by decide)) fun r hr => ?_
      obtain ⟨o, -, hknows, hexpr, -⟩ := forall₂_exists_of_mem h.orderBy r hr
      have hdirection : c.Spells (.word r.2.sql) := by
        cases r.2 <;> exact .keyword (by decide)
      exact spellsAll_cons (hknows.isFrom hc hexpr).spells (spellsAll_singleton hdirection)
  have hlimit : c.SpellsAll (SelectStatement.limitTokens statement.limit) := by
    cases statement.limit with
    | none => exact spellsAll_nil
    | some page => exact .cons (.limit page) .nil
  have hgroup : c.SpellsAll [.word "GROUP", .word "BY"] :=
    spellsAll_cons (.keyword (by decide)) (spellsAll_singleton (.keyword (by decide)))
  exact spellsAll_append (spellsAll_append (spellsAll_append hgroup (spellsAll_exprs hgroupBy))
    horder) hlimit

theorem spellsAll_count (hc : c.IsMade) (joins : List Join) :
    c.SpellsAll (CountStatement.countTokens joins c.keyExprs) ∧
      c.SpellsAll (CountStatement.closeTokens joins c.keyExprs) := by
  have hkeys : ∀ e ∈ c.keyExprs, c.IsFrom e := by
    intro e he
    obtain ⟨key, hkey, rfl⟩ := List.mem_map.1 he
    exact (keys_offer hc key hkey).isFrom hc
  have htotal : c.SpellsAll [.mark ')', .word "AS", .word "total", .word "FROM"] :=
    spellsAll_cons (.mark (by decide)) (spellsAll_words
      (by decide : ∀ text ∈ ["AS", "total", "FROM"], text ∈ keywords))
  have hselect : c.SpellsAll [.word "SELECT", .word "count", .mark '('] :=
    spellsAll_cons (.keyword (by decide)) (spellsAll_cons (.keyword (by decide))
      (spellsAll_singleton (.mark (by decide))))
  have hrows : c.SpellsAll [.word "SELECT", .word "count", .mark '(', .word "*", .mark ')',
      .word "AS", .word "total", .word "FROM"] :=
    spellsAll_append hselect (spellsAll_cons (.keyword (by decide)) htotal)
  constructor
  · generalize c.keyExprs = keys at hkeys
    unfold CountStatement.countTokens
    split
    · exact hrows
    next key _ =>
      have hkey := (hkeys key (List.mem_singleton_self _)).spells
      exact spellsAll_append hselect
        (spellsAll_cons (.keyword (by decide)) (spellsAll_cons hkey htotal))
    next =>
      have hinner : c.SpellsAll [.mark '(', .word "SELECT", .word "DISTINCT"] :=
        spellsAll_cons (.mark (by decide)) (spellsAll_words
          (by decide : ∀ text ∈ ["SELECT", "DISTINCT"], text ∈ keywords))
      exact spellsAll_append (spellsAll_append (spellsAll_append hrows hinner)
        (spellsAll_exprs hkeys)) (spellsAll_singleton (.keyword (by decide)))
  · rw [CountStatement.closeTokens]
    split
    · exact spellsAll_nil
    · exact spellsAll_singleton (.mark (by decide))

/-! ### Compiled searches -/

theorem countStatement_outlines (hc : c.IsMade) {s : Search} {ctx ctx' : Compilation}
    {statement : CountStatement} {keys : List Column}
    (hrun : (c.countStatement s).perform ctx = (.ok (statement, keys), ctx')) :
    statement.table = c.table ∧ statement.keys = c.keyExprs := by
  rw [countStatement, keyColumns_eq hc] at hrun
  obtain ⟨keys, _, hkeys, hrun⟩ := Act.perform_bind_eq_ok hrun
  cases hkeys
  obtain ⟨filter, ctx₁, -, hrun⟩ := Act.perform_bind_eq_ok hrun
  cases hrun
  exact ⟨rfl, rfl⟩

/-- The attributes of the conditions are known, if nothing is wrong with the conditions. -/
theorem knows_conditions (hc : c.IsMade) {s : Search}
    (h : ((s.conditionsIn .and).map SearchItem.condition
      ++ (s.conditionsIn .or).map SearchItem.condition).findSome? c.fault = none) :
    ∀ cond ∈ s.conditions, c.Knows cond.attr := by
  intro cond hcond
  have hitem := List.findSome?_eq_none_iff.1 h (.condition cond) ?_
  · exact ((fault_eq_none_iff hc _).1 hitem).1
  · rcases Search.mem_conditions_iff.1 hcond with hcond | hcond
    · exact List.mem_append_left _ (List.mem_map_of_mem hcond)
    · exact List.mem_append_right _ (List.mem_map_of_mem hcond)

theorem selectStatement_words (hc : c.IsMade) {s : Search} {groups grouped : List Column}
    {ctx : Compilation} {statement : SelectStatement} (h : c.Outlines s groups grouped statement)
    (hfits : Fits c s ctx statement.joins statement.filter)
    (hknows : ∀ cond ∈ s.conditions, c.Knows cond.attr) :
    c.Words statement.tokens (dotted statement.labels) := by
  have hitems := words_items hc (h.selects.offers h.offered).1
  have hselect : c.SpellsAll [.word "SELECT"] := spellsAll_singleton (.keyword (by decide))
  have hfrom : c.SpellsAll
      ([.word "FROM"] ++ sourceTokens c.table statement.joins statement.filter) :=
    spellsAll_cons (.keyword (by decide)) (spellsAll_source hc hknows hfits)
  have hwords := ((hselect.append hitems).append hfrom).append (h.spells_back hc)
  rw [SelectStatement.tokens, SelectStatement.labels, h.table]
  simpa only [List.append_assoc, List.nil_append, List.append_nil] using hwords

theorem countStatement_spells (hc : c.IsMade) {s : Search} {ctx : Compilation}
    {statement : CountStatement} (htable : statement.table = c.table)
    (hkeys : statement.keys = c.keyExprs)
    (hfits : Fits c s ctx statement.joins statement.filter)
    (hknows : ∀ cond ∈ s.conditions, c.Knows cond.attr) : c.SpellsAll statement.tokens := by
  obtain ⟨hcount, hclose⟩ := spellsAll_count hc statement.joins
  rw [CountStatement.tokens, htable, hkeys]
  exact spellsAll_append (spellsAll_append hcount (spellsAll_source hc hknows hfits)) hclose

/-- A compiled search is worded in registered names and the labels that it selects; a count, in
    registered names. These names have all passed the guard. -/
theorem compile_isWorded (hc : c.IsMade) (s : Search) :
    (∀ q, c.compile s = .ok q → c.IsWorded q.statement.sql (dotted q.statement.labels)) ∧
    (∀ q, c.compileCount s = .ok q → c.IsWorded q.statement.sql []) ∧
    ∀ name, c.Names name → Identifier.isValid name = true := by
  refine ⟨fun q hq => ?_, fun q hq => ?_, fun name hname => hname.isValid hc⟩
  · obtain ⟨keys, ctx, hrun, -⟩ := finish_eq_ok hq
    obtain ⟨hnamed, hfits⟩ := selectStatement_fits hc.built numbered_start hrun
    obtain ⟨-, groups, grouped, houtlines⟩ := selectStatement_outlines hc numbered_start hrun
    have hfault := (finish_of_hasFault s.groups (selectStatement_hasFault hc s)).1.1 ⟨q, hq⟩
    have hadmits := fun item hitem =>
      (fault_eq_none_iff hc item).1 (List.findSome?_eq_none_iff.1 hfault item hitem)
    have hknows : ∀ cond ∈ s.conditions, c.Knows cond.attr := fun cond hcond =>
      (accepts_iff_items.2 hadmits).attributes _
        (List.mem_append_left _ (List.mem_append_right _ (List.mem_map_of_mem hcond)))
    have hwords := selectStatement_words hc houtlines hfits hknows
    refine hwords.isWorded hc hnamed.lexes fun label hlabel => ?_
    obtain ⟨hmem, hdot⟩ := List.mem_filter.1 hlabel
    obtain ⟨item, hitem, heq⟩ := List.mem_filterMap.1 hmem
    cases item with
    | everything => cases heq
    | column column =>
      cases heq
      have hoffers := (houtlines.selects.offers houtlines.offered).1 column hitem
      exact hoffers.knows.dotted hc (of_decide_eq_true hdot)
  · obtain ⟨keys, ctx, hrun, -⟩ := finish_eq_ok hq
    obtain ⟨hnamed, hfits⟩ := countStatement_fits hc.built numbered_start hrun
    obtain ⟨htable, hkeys⟩ := countStatement_outlines hc hrun
    have hfault := (finish_of_hasFault [] (countStatement_hasFault hc s)).1.1 ⟨q, hq⟩
    have hspells := countStatement_spells hc htable hkeys hfits (knows_conditions hc hfault)
    exact hspells.isWorded hc hnamed.lexes (by simp)

/-- Prices by vendor, for operands that would end a statement and begin another. -/
def breakingOut : Search :=
  (((({} : Search).select ["price.amount", "vendor"]).requireEq "status"
    (.string "x' OR 1=1; --\n\"é")).allowIn "color.value" [.string "?1) \"", .null]).groupBy
      ["vendor.name"]

/-- Such operands are among the values, and the text has the quotes of two labels. -/
theorem products_words_breakingOut : ∃ q, products.compile breakingOut = .ok q ∧
    .text "x' OR 1=1; --\n\"é" ∈ q.values ∧
    products.IsWorded q.statement.sql ["price.amount", "vendor.name"] ∧
    ∃ count, products.compileCount breakingOut = .ok count ∧
      products.IsWorded count.statement.sql [] := by
  obtain ⟨hsearch, hcount, -⟩ := compile_isWorded products_isMade breakingOut
  exact ⟨_, rfl, by decide +kernel, hsearch _ rfl, _, rfl, hcount _ rfl⟩

end QueryCompiler

end RecordStore
