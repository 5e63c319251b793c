import RecordStore.Act

/-!
# Save phases

A save walks through phases: validation, the hooks before the write, the write, the hooks after it.
Within one save the phase only moves forward; between saves it is `idle`.

Saves go along *routes*, which are numbered. Every route has a phase of its own, and saves along all
of them can be nested in each other, so a save in progress keeps the phases of all routes beside the
world that it writes to.
-/

namespace RecordStore

/-- The phase of a save. -/
inductive SavePhase where
  | idle
  | validate
  | beforeSave
  | save
  | afterSave
  deriving DecidableEq, Inhabited

namespace SavePhase

/-- The place of a phase in the order of a save. -/
def rank : SavePhase → Nat
  | idle => 0
  | validate => 1
  | beforeSave => 2
  | save => 3
  | afterSave => 4

/-- Whether `next` comes after this phase. -/
def precedes (s next : SavePhase) : Bool := s.rank < next.rank

def text : SavePhase → String
  | idle => "none"
  | validate => "validate"
  | beforeSave => "before-save"
  | save => "save"
  | afterSave => "after-save"

/-- The phase in diagnostics. -/
def describe : SavePhase → String
  | idle => "None"
  | validate => "Validate"
  | beforeSave => "BeforeSave"
  | save => "Save"
  | afterSave => "AfterSave"

end SavePhase

/-- A world with the phases of the routes along which models are saved into it. -/
structure Saving (σ : Type) where
  phases : Nat → SavePhase := fun _ => .idle
  world : σ

namespace Saving

variable {σ : Type}

/-- The world without the phases. -/
def worldLens : Lens (Saving σ) σ where
  get s := s.world
  set w s := { s with world := w }

/-- Sets the phase of one route. -/
def setPhase (route : Nat) (phase : SavePhase) (s : Saving σ) : Saving σ :=
  { s with phases := fun i => if i = route then phase else s.phases i }

/-- Moves a route forward to a phase. -/
def moveTo (route : Nat) (next : SavePhase) : Act (Saving σ) Unit :=
  Act.make fun s =>
    let current := s.phases route
    if current.precedes next then (.ok (), s.setPhase route next)
    else (.error (.invalidStateTransition current.text next.text), s)

end Saving

end RecordStore
