import RecordStore.Error

/-!
# Actions

An *action* works on a world of some type, returns a value or fails with a `StoreError`, and
leaves the world in a new state either way: what was done before a failure stays done. A world is
whatever the actions of a component can see and change: connections, a save in progress, a batch
of models.

An action on a part of a world is an action on the whole (`Act.zoom`); the part is named by a
`Lens`. Actions on an element together with a surrounding world run over a list element by element
(`Act.each`), up to the first failure.
-/

namespace RecordStore

/-- An action on a world `σ` with a result `α`. -/
abbrev Act (σ α : Type) := ExceptT StoreError (StateM σ) α

/-- A part `σ` of a whole `τ`: how it is read and how it is replaced. -/
structure Lens (τ σ : Type) where
  get : τ → σ
  set : σ → τ → τ
  get_set : ∀ s t, get (set s t) = s := by intros; rfl
  set_get : ∀ t, set (get t) t = t := by intros; rfl
  set_set : ∀ s s' t, set s (set s' t) = set s t := by intros; rfl

namespace Lens

variable {ρ τ σ β : Type}

/-- The whole as a part of itself. -/
def id : Lens σ σ where
  get s := s
  set s _ := s

/-- The first component of a pair. -/
def fst : Lens (σ × β) σ where
  get p := p.1
  set s p := (s, p.2)

/-- The second component of a pair. -/
def snd : Lens (β × σ) σ where
  get p := p.2
  set s p := (p.1, s)

/-- A part of a part. -/
def comp (outer : Lens ρ τ) (inner : Lens τ σ) : Lens ρ σ where
  get r := inner.get (outer.get r)
  set s r := outer.set (inner.set s (outer.get r)) r
  get_set s r := by simp [outer.get_set, inner.get_set]
  set_get r := by simp [inner.set_get, outer.set_get]
  set_set s s' r := by simp [outer.get_set, inner.set_set, outer.set_set]

end Lens

namespace Act

variable {σ τ α β : Type}

/-- Runs an action: its result and the world it leaves. -/
def perform (f : Act σ α) (s : σ) : Except StoreError α × σ := f s

/-- The action that does as the function says. -/
def make (f : σ → Except StoreError α × σ) : Act σ α := f

/-- A result that is already there. -/
def ofExcept (r : Except StoreError α) : Act σ α := make fun s => (r, s)

/-- Fails without touching the world. -/
def fail (e : StoreError) : Act σ α := ofExcept (.error e)

/-- Reads the world. -/
def read (f : σ → α) : Act σ α := make fun s => (.ok (f s), s)

/-- Changes the world. -/
def change (f : σ → σ) : Act σ Unit := make fun s => (.ok (), f s)

/-- Runs an action and returns its outcome, failed or not. -/
def attempt (f : Act σ α) : Act σ (Except StoreError α) :=
  make fun s => let (r, s') := f.perform s; (.ok r, s')

/-- Runs an action and forgets its outcome. -/
def bestEffort (f : Act σ α) : Act σ Unit :=
  make fun s => (.ok (), (f.perform s).2)

/-- An action on a part of the world. -/
def zoom (l : Lens τ σ) (f : Act σ α) : Act τ α :=
  make fun t => let (r, s) := f.perform (l.get t); (r, l.set s t)

/-- Runs an action on each element in turn, together with the surrounding world, and stops at the
    first failure. Every element that was visited keeps its changes. -/
def each (f : Act (σ × α) Unit) : List α → σ → Except StoreError Unit × σ × List α
  | [], s => (.ok (), s, [])
  | a :: rest, s =>
    match f.perform (s, a) with
    | (.error e, s', a') => (.error e, s', a' :: rest)
    | (.ok _, s', a') =>
      let (r, s'', rest') := each f rest s'
      (r, s'', a' :: rest')

/-- `each` over the list that stands beside the world. -/
def forEach (f : Act (σ × α) Unit) : Act (σ × List α) Unit :=
  make fun p => each f p.2 p.1

/-! ### What actions do -/

@[simp]
theorem perform_pure (a : α) (s : σ) : (pure a : Act σ α).perform s = (.ok a, s) := rfl

@[simp]
theorem perform_bind (f : Act σ α) (g : α → Act σ β) (s : σ) :
    (f >>= g).perform s =
      match f.perform s with
      | (.ok a, s') => (g a).perform s'
      | (.error e, s') => (.error e, s') := by
  change ExceptT.bindCont g (f s).1 (f s).2 = _
  rw [perform]
  rcases f s with ⟨_ | _, _⟩ <;> rfl

@[simp]
theorem perform_make (f : σ → Except StoreError α × σ) (s : σ) : (make f).perform s = f s := rfl

@[simp]
theorem perform_ofExcept (r : Except StoreError α) (s : σ) :
    (ofExcept r : Act σ α).perform s = (r, s) := rfl

@[simp]
theorem perform_fail (e : StoreError) (s : σ) : (fail e : Act σ α).perform s = (.error e, s) := rfl

@[simp]
theorem perform_read (f : σ → α) (s : σ) : (read f).perform s = (.ok (f s), s) := rfl

@[simp]
theorem perform_change (f : σ → σ) (s : σ) : (change f).perform s = (.ok (), f s) := rfl

@[simp]
theorem perform_zoom (l : Lens τ σ) (f : Act σ α) (t : τ) :
    (f.zoom l).perform t = ((f.perform (l.get t)).1, l.set (f.perform (l.get t)).2 t) := rfl

end Act

end RecordStore
