import Mathlib.Data.List.Forall2

/-!
# Results in sequence

What succeeds in sequence has succeeded at every step, and a list of results fails with the failure
of one of them.
-/

namespace RecordStore

variable {α β γ ε : Type}

theorem exists_of_bind_eq_ok {x : Except ε α} {f : α → Except ε β} {b : β}
    (h : x >>= f = .ok b) : ∃ a, x = .ok a ∧ f a = .ok b := by
  cases x with
  | error e => cases h
  | ok a => exact ⟨a, rfl, h⟩

/-- A loop succeeds if all of its rounds do. -/
theorem forM_eq_ok_iff {f : α → Except ε Unit} {as : List α} :
    forM as f = .ok () ↔ ∀ a ∈ as, f a = .ok () := by
  induction as with
  | nil => exact ⟨fun _ _ ha => absurd ha List.not_mem_nil, fun _ => rfl⟩
  | cons a rest ih =>
    rw [List.forM_cons, List.forall_mem_cons, ← ih]
    rcases f a with e | _
    · exact ⟨fun h => (by cases h), fun h => (by cases h.1)⟩
    · exact ⟨fun h => ⟨rfl, h⟩, And.right⟩

/-- Lists that agree element by element in what two functions take from them agree in it. -/
theorem map_eq_map_of_forall₂ {f : α → γ} {g : β → γ} {as : List α} {bs : List β}
    (h : List.Forall₂ (fun a b => f a = g b) as bs) : as.map f = bs.map g := by
  rwa [← List.forall₂_eq_eq_eq, List.forall₂_map_left_iff, List.forall₂_map_right_iff]

/-- A list of results is made of one result for each element, if none of them fails. -/
theorem forall₂_of_mapM_eq_ok {f : α → Except ε β} {as : List α} {bs : List β}
    (h : as.mapM f = .ok bs) : List.Forall₂ (fun a b => f a = .ok b) as bs := by
  induction as generalizing bs with
  | nil =>
    cases h
    exact .nil
  | cons a rest ih =>
    rw [List.mapM_cons] at h
    rcases hb : f a with e | b
    · simp [hb, bind, Except.bind] at h
    · rcases hbs : rest.mapM f with e | bs'
      · simp [hb, hbs, bind, Except.bind] at h
      · simp only [hb, hbs] at h
        cases h
        exact .cons hb (ih hbs)

theorem exists_of_mapM_eq_error {f : α → Except ε β} {as : List α} {e : ε}
    (h : as.mapM f = .error e) : ∃ a ∈ as, f a = .error e := by
  induction as with
  | nil => cases h
  | cons a rest ih =>
    rw [List.mapM_cons] at h
    rcases hb : f a with e' | b
    · simp only [hb] at h
      cases h
      exact ⟨a, List.mem_cons_self, hb⟩
    · rcases hbs : rest.mapM f with e' | bs
      · simp only [hb, hbs] at h
        cases h
        obtain ⟨a', ha', heq⟩ := ih hbs
        exact ⟨a', List.mem_cons_of_mem _ ha', heq⟩
      · simp only [hb, hbs] at h
        cases h

end RecordStore
