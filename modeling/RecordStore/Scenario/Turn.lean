import RecordStore.Scenario.Report

/-!
# Turns

A step of a scenario becomes a *turn*: what it does to a world, with what is reported of it. The
turns of a scenario are played one after the other, whether they fail or not.
-/

namespace RecordStore.Scenario

/-- What a step does to a world, and what is reported of it. -/
abbrev Turn (σ : Type) := σ → Report × σ

namespace Turn

variable {σ : Type}

/-- A turn that reports the result of an action. -/
def ofAct (f : Act σ Value) : Turn σ := fun s =>
  let (r, s) := f.perform s
  (reportResult r, s)

/-- A turn that reports how an action ends. -/
def ofQuiet (f : Act σ Unit) : Turn σ := fun s =>
  let (r, s) := f.perform s
  (reportOutcome r, s)

/-- A turn that does nothing. -/
def idle (report : Report) : Turn σ := fun s => (report, s)

/-- Plays turns in order. `frame` makes the answer of each from its report and from the world before
    and after it. -/
def playAll (frame : Report → σ → σ → Value) : List (Turn σ) → σ → List Value × σ
  | [], s => ([], s)
  | turn :: rest, s =>
    let (report, s') := turn s
    let (answers, last) := playAll frame rest s'
    (frame report s s' :: answers, last)

end Turn

end RecordStore.Scenario
