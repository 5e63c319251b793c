import RecordStore.Save.Phase
import RecordStore.Transaction.Scheme

/-!
# What hooks do

A model can take part in its own saving: by overrides of its own and by hooks attached to it. What
such a piece of code does is a *program*: a tree of the operations open to it. It can read its own
model and the world and go on depending on what it sees, act on both, look at the phase of a
route, save models, and run units of work in transactions of their own. It sees whether an
operation failed and may go on nevertheless. It ends with an error or with an outcome.

A program reaches the phases of routes only through saves, which are a parameter of its meaning,
`Program.run`. Routes are named by their number. A program that names none means the one it was
handed, or the first. Code that runs after the write is handed the route of its save; all other code
is handed none, and so are units of work and checks, whatever program runs them.
-/

namespace RecordStore

/-- What a hook before the write asks for. -/
inductive Outcome (μ : Type) where
  /-- Go on. -/
  | proceed
  /-- Do not write this model. -/
  | skip
  /-- Save these models first, together with the present ones. -/
  | add (models : List μ)
  deriving Inhabited

namespace Outcome

variable {μ : Type}

def isProceed : Outcome μ → Bool
  | proceed => true
  | _ => false

/-- The outcome in diagnostics. -/
def describe : Outcome μ → String
  | proceed => "Continue"
  | skip => "Skip"
  | add models => Describe.variant "AdditionalModels" [toString models.length]

end Outcome

/-- The head of a unit of work: where it belongs. -/
structure Errand (σ : Type) where
  connection : Option (Connection σ)
  capability : Capability

/-- What a piece of code does that belongs to a subject `α`, in a world `σ`, where models `μ` can be
    saved. -/
inductive Program (α μ σ : Type) where
  /-- Ends with an outcome. -/
  | done (outcome : Outcome μ)
  /-- Ends with an error. -/
  | fail (e : StoreError)
  /-- Reads the subject and the world. -/
  | look (next : α → σ → Program α μ σ)
  /-- Acts on the world and the subject. -/
  | act (f : Act (σ × α) Unit) (next : Except StoreError Unit → Program α μ σ)
  /-- Reads the phase of a route. -/
  | phase (route : Option Nat) (next : SavePhase → Program α μ σ)
  /-- Saves models taken from the subject, and puts them back as the save left them. -/
  | save (route : Option Nat) (models : α → List μ) (put : List μ → α → α)
      (next : Except StoreError Unit → List μ → Program α μ σ)
  /-- Runs units of work as a chain of transactions, with a check before they are committed. -/
  | execute (count : Nat) (errands : Fin count → Errand σ) (bodies : Fin count → Program α μ σ)
      (check : Program α μ σ) (next : Except StoreError Unit → Program α μ σ)

/-- The route of code that was handed none. -/
def firstRoute : Nat := 0

/-- How models are saved along a numbered route. -/
abbrev Saver (μ σ : Type) := Nat → Act (Saving σ × List μ) Unit

/-- The world of a program: the save in progress, and the subject. -/
abbrev Scope (σ α : Type) := Saving σ × α

namespace Program

variable {α μ σ : Type}

/-- The units of work with these heads and these bodies. -/
def workUnits {count : Nat} (errands : Fin count → Errand σ)
    (bodies : Fin count → Act (Scope σ α) Unit) : List (WorkUnit (Scope σ α)) :=
  List.ofFn fun i => {
    connection := (errands i).connection.map (·.zoom (Lens.fst.comp Saving.worldLens))
    capability := (errands i).capability
    run := bodies i }

/-- What a program does, given how models are saved and which route it was handed. -/
def run (saver : Saver μ σ) (own : Nat) : Program α μ σ → Act (Scope σ α) (Outcome μ)
  | done outcome => pure outcome
  | fail e => Act.fail e
  | look next => Act.make fun (s, a) => ((next a s.world).run saver own).perform (s, a)
  | act f next =>
    Act.make fun (s, a) =>
      let (r, world, a') := f.perform (s.world, a)
      ((next r).run saver own).perform ({ s with world }, a')
  | phase route next =>
    Act.make fun (s, a) =>
      ((next (s.phases (route.getD own))).run saver own).perform (s, a)
  | save route models put next =>
    Act.make fun (s, a) =>
      let (r, s', ms) := (saver (route.getD own)).perform (s, models a)
      ((next r ms).run saver own).perform (s', put ms a)
  | execute _ errands bodies check next =>
    Act.make fun scope =>
      let units := workUnits errands fun i => do let _ ← (bodies i).run saver firstRoute
      let (r, scope') :=
        (TransactionScheme.standard.executeChecked units
          (do let _ ← check.run saver firstRoute)).perform scope
      ((next r).run saver own).perform scope'

end Program

/-- A hook attached to a model. -/
structure Hook (μ σ : Type) where
  before : Program μ μ σ := .done .proceed
  after : Program μ μ σ := .done .proceed

/-- What the models of a type do while they are saved. -/
structure Behaviour (μ σ : Type) where
  /-- Before validation. -/
  beforeValidate : Program μ μ σ := .done .proceed
  /-- Before the write, inside the transaction. -/
  beforeSave : Program μ μ σ := .done .proceed
  /-- After the write, still inside the transaction. -/
  afterSave : Program μ μ σ := .done .proceed
  /-- The hooks attached to a model, which follow its own code in their order. -/
  hooks : μ → List (Hook μ σ) := fun _ => []

end RecordStore
