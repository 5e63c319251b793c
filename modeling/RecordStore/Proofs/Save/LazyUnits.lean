import RecordStore.Proofs.Save.Units
import RecordStore.Proofs.Transaction.RunOrder

/-!
# When lazy units make their models

A lazy save unit makes its models when it runs, from what the units that ran before it have left. So
it matters which units these are, and they are not those that stand before it in the list: units are
arranged by capability and by connection before anything runs.

`SaveEngine.lazySaveUnit_produces_after` says which they are. A unit that is given before the lazy
one runs before it if it is on the same connection (`TransactionScheme.keepsPace`), or if all units
of its capability, or of its connection, run first because one of them is seen sooner
(`TransactionScheme.goesAhead`). A unit on a connection that is seen later than that of the lazy one
has not run, and what it is to store has no key yet (`Rehearsal.Stage.earlyItems_orphan`).
-/

namespace RecordStore

variable {μ σ : Type} [Model μ]

namespace SaveEngine

/-- Saves models that were made for it; they do not come to the shelf. -/
def saveMade (e : SaveEngine μ σ) (bound route : Nat) (models : List μ) :
    Act (ShelfWorld μ σ) Unit :=
  Act.make fun (s, shelf) =>
    let (r, s', _) := (e.save bound route).perform (s, models)
    (r, s', shelf)

theorem lazySaveUnit_run (e : SaveEngine μ σ) (bound route : Nat)
    (produce : Act (ShelfWorld μ σ) (List μ)) :
    (e.lazySaveUnit bound route produce).run =
      (do let models ← produce; e.saveMade bound route models) := rfl

open TransactionScheme in
/-- Under a scheme that runs units on their connections or by themselves, whatever its units and
    connections do, a lazy unit makes its models after these units have run, and no others: of those
    that are given before it, the ones that keep pace with it or go ahead of it; of those that are
    given after it, the ones that go ahead of it. It makes none if one of them fails, or if no unit
    runs at all. -/
theorem lazySaveUnit_produces_after (e : SaveEngine μ σ) (bound route : Nat)
    (produce : Act (ShelfWorld μ σ) (List μ)) (connects : Capability → Bool)
    {earlier later units : List (WorkUnit (ShelfWorld μ σ))} {u : WorkUnit (ShelfWorld μ σ)}
    (hu : u = e.lazySaveUnit bound route produce) (hunits : units = earlier ++ u :: later)
    (check : Act (ShelfWorld μ σ) Unit) (s : ShelfWorld μ σ) :
    ∃ ahead behind,
      ahead.Perm (earlier.filter (fun v => goesAhead connects units v u || keepsPace connects v u) ++
        later.filter (goesAhead connects units · u)) ∧
      (∀ ts, (usual connects).transactions units = .ok ts →
        Chain.runAll ts = (do
          WorkUnit.runAll ahead
          let models ← produce
          e.saveMade bound route models
          WorkUnit.runAll behind)) ∧
      ((((usual connects).history units check s).filterMap Ledger.Entry.step?).length ≤
          ahead.length ∨
        ∃ r rest, ((usual connects).history units check s).filterMap Ledger.Entry.step? =
          ahead.map (some ·, .ok ()) ++ (some u, r) :: rest) := by
  obtain ⟨ahead, behind, horder, hahead⟩ := runOrder_split connects hunits.symm
  refine ⟨ahead, behind, hahead, fun ts hts => ?_, ?_⟩
  · rw [Chain.runAll_eq, usual_units hts, horder,
      WorkUnit.runAll_append, WorkUnit.runAll, hu, lazySaveUnit_run, bind_assoc]
  · rcases hts : (usual connects).transactions units with err | ts
    · have hnothing : (usual connects).history units check s = [] := by
        simp only [TransactionScheme.history, hts]
      exact .inl (hnothing ▸ Nat.zero_le _)
    · have hchronicle := usual_chronicle hts check s
      have hsteps : (runOrder connects units).map some ++ [none] =
          ahead.map some ++ some u :: (behind.map some ++ [none]) := by simp [horder]
      simpa [Function.comp_def] using hchronicle.step_taken hsteps

end SaveEngine

namespace Rehearsal.Stage

/-- Items are saved on the line of the route. -/
def pairEngine : SaveEngine Record Stage where
  routes route := {
    writer := (TableStore.mk (connection ⟨.ofNat 128 route⟩ route)
      { table := "item", schema := itemSchema }).modelWriter
    scheme := .standard }
  behaviour := {}

/-- A unit on line 0 that does nothing. -/
def idleUnit : WorkUnit (ShelfWorld Record Stage) :=
  .connectedTask (pairEngine.unitConnection 0) (pure ())

/-- The item on the shelf is saved on line 1. -/
def parentUnit : WorkUnit (ShelfWorld Record Stage) := pairEngine.saveUnit 1 1 [0]

/-- An item that is named for whether the one on the shelf has a key. -/
def makeChild : Act (ShelfWorld Record Stage) (List Record) :=
  Act.read fun (_, shelf) => [item (if shelf.all Model.hasKey then "child" else "orphan")]

/-- The child is saved on line 0. -/
def childUnit : WorkUnit (ShelfWorld Record Stage) := pairEngine.lazySaveUnit 1 0 makeChild

/-- The parent stands before the child, but line 0 is seen before line 1. -/
def earlyItems : List (WorkUnit (ShelfWorld Record Stage)) := [idleUnit, parentUnit, childUnit]

/-- The items that were sent to lines, in their order. -/
def sentItems (s : Stage) : List (Nat × List Param) :=
  s.journal.filterMap fun
    | .call line _ .execute (.statement _ params) => some (line, params)
    | _ => none

open TransactionScheme in
/-- The child's models are made when the idle unit has run, and no other. -/
theorem earlyItems_produce_after :
    ∃ (ahead : List (WorkUnit (ShelfWorld Record Stage))) (r : Except StoreError Unit)
      (rest : List _), ahead.Perm [idleUnit] ∧
      ((usual (· = .connected)).history earlyItems (pure ()) (emptyStage, [item "parent"])).filterMap
        Ledger.Entry.step? = ahead.map (some ·, .ok ()) ++ (some childUnit, r) :: rest := by
  obtain ⟨ahead, behind, hahead, -, hsteps⟩ := pairEngine.lazySaveUnit_produces_after 1 0 makeChild
    (· = .connected) (u := childUnit) rfl (show earlyItems = [idleUnit, parentUnit] ++ [childUnit]
      from rfl) (pure ()) (emptyStage, [item "parent"])
  have hidle : ahead.Perm [idleUnit] := hahead
  have hlength : (((usual (· = .connected)).history earlyItems (pure ())
      (emptyStage, [item "parent"])).filterMap Ledger.Entry.step?).length = 4 := by decide +kernel
  rcases hsteps with hsteps | ⟨r, rest, hsteps⟩
  · rw [hlength, hidle.length_eq] at hsteps
    exact absurd hsteps (by decide)
  · exact ⟨ahead, r, rest, hidle, hsteps⟩

open TransactionScheme in
/-- The parent is the second unit and the child the third, but the child's models are made and saved
    before the parent has run, when it has no key. -/
theorem earlyItems_orphan :
    let out := (standard.execute earlyItems).perform (emptyStage, [item "parent"])
    out.1 = .ok () ∧
      (standard.history earlyItems (pure ()) (emptyStage, [item "parent"])).filterMap
        Ledger.Entry.step? = [(some idleUnit, .ok ()), (some childUnit, .ok ()),
          (some parentUnit, .ok ()), (none, .ok ())] ∧
      sentItems out.2.1.world = [(0, [.text "orphan"]), (1, [.text "parent"])] := by
  have hok : ((standard.execute earlyItems).perform (emptyStage, [item "parent"])).1 = .ok () := by
    decide +kernel
  refine ⟨hok, ?_, by decide +kernel⟩
  have hchronicle := standard_chronicle earlyItems (pure ()) (emptyStage, [item "parent"])
  have horder : runOrder (· = .connected) earlyItems = [idleUnit, childUnit, parentUnit] := by
    rfl
  rw [execute] at hok
  rw [hok, horder] at hchronicle
  obtain ⟨ran, hwent, hes⟩ := hchronicle.of_ok
  rw [hes, List.filterMap_append, List.filterMap_append, hwent.steps,
    Ledger.filterMap_step?_map_control, Ledger.filterMap_step?_map_control]
  rfl

end Rehearsal.Stage

end RecordStore
