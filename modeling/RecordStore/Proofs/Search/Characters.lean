import RecordStore.Proofs.Search.Tokens

/-!
# Characters and tokens

The tokens of a text account for all its characters but blanks (`Pending.scan_shows`). Two quotes
stand around every quoted token and there are no others (`Pending.count_quote`), unless the text
breaks off in a quoted token, which a text that lexes does not (`Lexes.isQuoted_after`).
-/

namespace RecordStore

/-- The text of a quoted token. -/
def Token.quoted? {α : Type} : Token α → Option String
  | quoted text => some text
  | _ => none

/-- The quoted tokens, in their order. -/
def quotedOf (ts : List (Token Nat)) : List String := ts.filterMap (·.quoted?)

/-- The characters that a token is written with; of a placeholder, any digit. -/
def Token.Shows : Token Nat → Char → Prop
  | word text, ch => ch ∈ text.toList
  | column qualifier name, ch => ch ∈ qualifier.toList ∨ ch = '.' ∨ ch ∈ name.toList
  | sign text, ch => ch ∈ text.toList
  | slot _, ch => ch = '?' ∨ ch.isDigit = true
  | quoted text, ch => ch = '"' ∨ ch ∈ text.toList
  | mark c, ch => ch = c

theorem Token.ofWord_shows {cs : List Char} {ch : Char} (h : ch ∈ cs) : (ofWord cs).Shows ch := by
  have hparts := List.takeWhile_append_dropWhile (p := (· ≠ '.')) (l := cs)
  unfold ofWord
  split
  next => simpa [Shows] using h
  next dot name hback =>
    have hdot : dot = '.' := by
      have hhead := List.head?_dropWhile_not (· ≠ '.') cs
      rw [hback] at hhead
      simpa using hhead
    rw [← hparts, hback, hdot] at h
    simpa [Shows] using h

namespace Pending

/-- The characters that the pending token was begun with. -/
def Shows : Pending → Char → Prop
  | nothing, _ => False
  | word cs, ch | sign cs, ch => ch ∈ cs
  | slot _, ch => ch = '?' ∨ ch.isDigit = true
  | quoted cs, ch => ch = '"' ∨ ch ∈ cs

theorem token_shows {p : Pending} {ch : Char} (h : p.Shows ch) : ∃ t ∈ p.token, t.Shows ch := by
  cases p with
  | nothing => exact h.elim
  | word cs => exact ⟨_, List.mem_singleton_self _, Token.ofWord_shows h⟩
  | sign cs => exact ⟨_, List.mem_singleton_self _, by simpa [Token.Shows, Shows] using h⟩
  | slot number => exact ⟨_, List.mem_singleton_self _, h⟩
  | quoted cs => exact ⟨_, List.mem_singleton_self _, by simpa [Token.Shows, Shows] using h⟩

theorem start_shows {c : Char} (hblank : c ≠ ' ') :
    (∃ t ∈ (start c).1, t.Shows c) ∨ (start c).2.Shows c := by
  simp only [start, if_neg hblank]
  split
  · exact .inr List.mem_cons_self
  split
  · exact .inr List.mem_cons_self
  split
  next h => exact .inr (.inl h)
  split
  next h => exact .inr (.inl h)
  exact .inl ⟨_, List.mem_singleton_self _, rfl⟩

theorem leave_shows {p : Pending} {c ch : Char} (h : p.Shows ch ∨ ch = c ∧ ch ≠ ' ') :
    (∃ t ∈ (p.leave c).1, t.Shows ch) ∨ (p.leave c).2.Shows ch := by
  rw [leave]
  rcases h with hpending | ⟨rfl, hblank⟩
  · obtain ⟨t, ht, hshows⟩ := token_shows hpending
    exact .inl ⟨t, List.mem_append_left _ ht, hshows⟩
  · refine (start_shows hblank).imp_left ?_
    rintro ⟨t, ht, hshows⟩
    exact ⟨t, List.mem_append_right _ ht, hshows⟩

/-- No character is lost in a step. -/
theorem step_shows {p : Pending} {c ch : Char} (h : p.Shows ch ∨ ch = c ∧ ch ≠ ' ') :
    (∃ t ∈ (p.step c).1, t.Shows ch) ∨ (p.step c).2.Shows ch := by
  cases p with
  | nothing => exact leave_shows h
  | word cs =>
    rw [step]
    split
    · exact .inr (List.mem_append.2 (h.imp_right fun h => List.mem_singleton.2 h.1))
    · exact leave_shows h
  | sign cs =>
    rw [step]
    split
    · exact .inr (List.mem_append.2 (h.imp_right fun h => List.mem_singleton.2 h.1))
    · exact leave_shows h
  | slot number =>
    rw [step]
    split
    next hdigit =>
      refine .inr ?_
      rcases h with h | ⟨rfl, -⟩
      · exact h
      · exact .inr hdigit
    next => exact leave_shows h
  | quoted cs =>
    rw [step]
    split
    next hquote =>
      refine .inl ⟨_, List.mem_singleton_self _, ?_⟩
      rcases h with h | ⟨rfl, -⟩
      · simpa [Token.Shows, Shows] using h
      · exact .inl hquote
    next =>
      refine .inr ?_
      rcases h with h | ⟨rfl, -⟩
      · exact h.imp_right (List.mem_append_left _)
      · exact .inr (List.mem_append_right _ (List.mem_singleton_self _))

theorem scan_shows {p : Pending} {cs : List Char} {ch : Char}
    (h : p.Shows ch ∨ ch ∈ cs ∧ ch ≠ ' ') : ∃ t ∈ scan p cs, t.Shows ch := by
  induction cs generalizing p with
  | nil =>
    rcases h with h | ⟨h, -⟩
    · exact token_shows h
    · cases h
  | cons c cs ih =>
    have hstep : ((∃ t ∈ (p.step c).1, t.Shows ch) ∨ (p.step c).2.Shows ch) ∨
        ch ∈ cs ∧ ch ≠ ' ' := by
      rcases h with h | ⟨h, hblank⟩
      · exact .inl (step_shows (.inl h))
      · rcases List.mem_cons.1 h with h | h
        · exact .inl (step_shows (.inr ⟨h, hblank⟩))
        · exact .inr ⟨h, hblank⟩
    rw [scan]
    rcases hstep with (⟨t, ht, hshows⟩ | h) | h
    · exact ⟨t, List.mem_append_left _ ht, hshows⟩
    · obtain ⟨t, ht, hshows⟩ := ih (.inl h)
      exact ⟨t, List.mem_append_right _ ht, hshows⟩
    · obtain ⟨t, ht, hshows⟩ := ih (.inr h)
      exact ⟨t, List.mem_append_right _ ht, hshows⟩

/-! ### Quotes -/

/-- One if a quote was opened. -/
def openQuotes (p : Pending) : Nat := if p.isQuoted then 1 else 0

theorem quotedOf_token {p : Pending} (hp : p.isQuoted = false) : quotedOf p.token = [] := by
  cases p with
  | nothing | sign | slot => rfl
  | word cs =>
    rw [token, Token.ofWord]
    split <;> rfl
  | quoted => cases hp

theorem start_quote (c : Char) :
    [c].count '"' = 2 * (quotedOf (start c).1).length + (start c).2.openQuotes := by
  by_cases hquote : c = '"'
  · subst hquote
    rfl
  · have hcount : [c].count '"' = 0 := List.count_eq_zero.2 (by simpa using Ne.symm hquote)
    rw [hcount, start, if_neg hquote]
    split
    · rfl
    split
    · rfl
    split
    · rfl
    split <;> rfl

theorem leave_quote {p : Pending} (hp : p.isQuoted = false) (c : Char) :
    [c].count '"' = 2 * (quotedOf (p.leave c).1).length + (p.leave c).2.openQuotes := by
  rw [leave, quotedOf, List.filterMap_append, ← quotedOf, quotedOf_token hp]
  exact start_quote c

/-- A quote opens a quoted token or closes it. -/
theorem step_quote (p : Pending) (c : Char) :
    [c].count '"' + p.openQuotes = 2 * (quotedOf (p.step c).1).length + (p.step c).2.openQuotes := by
  have hno : ∀ {P : Char → Bool}, P '"' = false → P c = true → [c].count '"' = 0 := by
    intro P hquote hc
    refine List.count_eq_zero.2 fun h => ?_
    rw [← List.mem_singleton.1 h, hquote] at hc
    cases hc
  cases p with
  | nothing => exact leave_quote rfl c
  | word cs =>
    rw [step]
    split
    next hc =>
      rw [hno (by decide) hc]
      rfl
    next => exact leave_quote rfl c
  | sign cs =>
    rw [step]
    split
    next hc =>
      rw [hno (by decide) hc]
      rfl
    next => exact leave_quote rfl c
  | slot number =>
    rw [step]
    split
    next hc =>
      rw [hno (by decide) hc]
      rfl
    next => exact leave_quote rfl c
  | quoted cs =>
    rw [step]
    split
    next hc =>
      rw [hc]
      rfl
    next hc =>
      have hcount : [c].count '"' = 0 := List.count_eq_zero.2 (by simpa using Ne.symm hc)
      rw [hcount]
      rfl

theorem count_quote {p : Pending} {cs : List Char} (h : (p.after cs).isQuoted = false) :
    cs.count '"' + p.openQuotes = 2 * (quotedOf (scan p cs)).length := by
  induction cs generalizing p with
  | nil =>
    have hp : p.isQuoted = false := h
    rw [scan, quotedOf_token hp, openQuotes, hp]
    rfl
  | cons c cs ih =>
    have hrest := ih (p := (p.step c).2) h
    have hstep := step_quote p c
    have hcons : (c :: cs).count '"' = [c].count '"' + cs.count '"' := by
      rw [← List.count_append]
      rfl
    have htokens : quotedOf (scan p (c :: cs)) =
        quotedOf (p.step c).1 ++ quotedOf (scan (p.step c).2 cs) := by
      rw [scan, quotedOf, List.filterMap_append]
      rfl
    rw [htokens, List.length_append, hcons]
    omega

/-- What is pending behind a text goes on with what follows. -/
theorem scan_after (p : Pending) (cs : List Char) :
    ∃ ts, ∀ rest, scan p (cs ++ rest) = ts ++ scan (p.after cs) rest := by
  induction cs generalizing p with
  | nil => exact ⟨[], fun rest => rfl⟩
  | cons c cs ih =>
    obtain ⟨ts, hts⟩ := ih (p.step c).2
    refine ⟨(p.step c).1 ++ ts, fun rest => ?_⟩
    rw [List.cons_append, scan, hts, List.append_assoc]
    rfl

end Pending

theorem Lexes.isQuoted_after {text : String} {ts : List (Token Nat)} (h : Lexes text ts) :
    (Pending.nothing.after text.toList).isQuoted = false := by
  obtain ⟨us, hus⟩ := Pending.scan_after .nothing text.toList
  -- In a quoted token, a blank behind the text would belong to it.
  have hend := (hus []).symm.trans (h [] rfl)
  have hblank := (hus [' ']).symm.trans (h [' '] rfl)
  cases hp : Pending.nothing.after text.toList with
  | nothing | word | sign | slot => rfl
  | quoted cs =>
    rw [hp] at hend hblank
    have hsame : us ++ [.quoted (String.ofList cs)] = us ++ [.quoted (String.ofList (cs ++ [' ']))] :=
      hend.trans hblank.symm
    simp [-String.ofList_append, String.ofList_inj] at hsame

end RecordStore
