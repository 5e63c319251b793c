import RecordStore.Save.Engine

/-!
# Saves as units of work

A save can be one unit of work among others. It names the connection of its route, so it joins
the transaction of the units around it. The models lie on a *shelf* beside the save in progress: a
`saveUnit` takes some of them from there and puts them back as the save left them, while a
`lazySaveUnit` makes its models when it runs, from what earlier units left on the shelf.
-/

namespace RecordStore

/-- A save in progress beside a shelf of models. -/
abbrev ShelfWorld (μ σ : Type) := Saving σ × List μ

namespace SaveEngine

variable {μ σ : Type} [Model μ]

/-- Puts models at these places of a shelf. -/
def putBack (shelf : List μ) : List (Nat × μ) → List μ
  | [] => shelf
  | (i, m) :: rest => putBack (shelf.set i m) rest

/-- Saves the models at these places of the shelf. -/
def savePicked (e : SaveEngine μ σ) (bound route : Nat) (picks : List Nat) :
    Act (ShelfWorld μ σ) Unit :=
  Act.make fun (s, shelf) =>
    let picks := picks.filter (· < shelf.length)
    let (r, s', models) := (e.save bound route).perform (s, picks.filterMap (shelf[·]?))
    (r, s', putBack shelf (picks.zip models))

/-- The connection of a route, for units of work beside a shelf. -/
def unitConnection (e : SaveEngine μ σ) (route : Nat) : Connection (ShelfWorld μ σ) :=
  (e.routes route).writer.connection.zoom (Lens.fst.comp Saving.worldLens)

/-- The unit of work that saves the models at these places. -/
def saveUnit (e : SaveEngine μ σ) (bound route : Nat) (picks : List Nat) :
    WorkUnit (ShelfWorld μ σ) :=
  .connectedTask (e.unitConnection route) (e.savePicked bound route picks)

/-- The unit of work that makes models when it runs, and saves them. -/
def lazySaveUnit (e : SaveEngine μ σ) (bound route : Nat)
    (produce : Act (ShelfWorld μ σ) (List μ)) : WorkUnit (ShelfWorld μ σ) :=
  .connectedTask (e.unitConnection route) do
    let models ← produce
    Act.make fun (s, shelf) =>
      let (r, s', _) := (e.save bound route).perform (s, models)
      (r, s', shelf)

end SaveEngine

/-- A save unit in diagnostics. -/
def describeSaveUnit (count : Nat) : String :=
  Describe.openRecord "SaveUnit" [("models", toString count)]

/-- A lazy save unit in diagnostics. -/
def describeLazySaveUnit : String := Describe.openRecord "LazySaveUnit" []

end RecordStore
