import RecordStore.Proofs.Save.Revalidation

/-!
# Which code before the write is called

Before a model is written for the first time, its own code before the write has been called once,
and so has each of its hooks, however often the batch was started again. There is one exception:
hooks behind code of the same model that asked for more models are passed over, and are not called
any more when the batch starts again (`SaveEngine.calls_before_first_write`).
-/

namespace RecordStore

variable {μ σ : Type}

/-- Whether code at this place comes ahead of the hook of this number, before the write. -/
def Place.isAhead (i : Nat) : Place → Bool
  | beforeSave => true
  | hookBefore j => j < i
  | _ => false

namespace Happening

/-- Whether it is a call of the code at this place for the model of this name. -/
def isCall (place : Place) (name : ModelName) : Happening μ → Bool
  | ran place' name' _ _ => place' = place && name' = name
  | wrote _ _ => false

/-- Whether code of the model of this name asks for more models ahead of its hook of this number. -/
def asksAhead (i : Nat) (name : ModelName) : Happening μ → Bool
  | ran place name' (.add _) _ => place.isAhead i && name' = name
  | _ => false

end Happening

section Calls

variable {hooks : μ → List (Hook μ σ)} {name : ModelName} {es : List (Happening μ)} {o : Outcome μ}
  {i n : Nat}

theorem HooksBefore.any_asksAhead (h : HooksBefore name i n es o) {j : Nat} (hj : j ≤ i) :
    es.any (·.asksAhead j name) = false := by
  induction h with
  | done => rfl
  | proceeds _ ih => exact ih (Nat.le_succ_of_le hj)
  | @stops i _ _ o =>
    have hnot : ¬i < j := Nat.not_lt.2 hj
    cases o <;> simp [Happening.asksAhead, Place.isAhead, hnot]

theorem HooksBefore.countP_beforeSave (h : HooksBefore name i n es o) :
    es.countP (·.isCall .beforeSave name) = 0 := by
  induction h with
  | done => rfl
  | proceeds _ ih => simpa [Happening.isCall] using ih
  | stops => simp [Happening.isCall]

/-- A chain of hooks calls each of them once, up to the first that asks for more models. -/
theorem HooksBefore.countP_hookBefore (h : HooksBefore name i n es o) (hskip : o.isSkip = false)
    (j : Nat) : es.countP (·.isCall (.hookBefore j) name) =
      if i ≤ j ∧ j < i + n ∧ es.any (·.asksAhead j name) = false then 1 else 0 := by
  induction h with
  | done =>
    rw [if_neg (by omega)]
    rfl
  | @proceeds i n m es o hrest ih =>
    have hany : (Happening.ran (.hookBefore i) name .proceed m :: es).any (·.asksAhead j name) =
        es.any (·.asksAhead j name) := rfl
    rw [List.countP_cons, ih hskip, hany]
    -- This hook is called here and not in the rest of the chain, any other one only in the rest.
    by_cases hij : i = j
    · subst hij
      rw [if_neg (by omega), if_pos (by simp [Happening.isCall]),
        if_pos ⟨Nat.le_refl i, by omega, hrest.any_asksAhead (Nat.le_succ i)⟩]
    · have hcall : (Happening.ran (.hookBefore i) name .proceed m).isCall (.hookBefore j) name =
          false := by
        simp [Happening.isCall, hij]
      have hrange : (i + 1 ≤ j ∧ j < i + 1 + n) ↔ (i ≤ j ∧ j < i + (n + 1)) := by omega
      rw [hcall, if_neg Bool.false_ne_true, Nat.add_zero]
      simp only [← and_assoc, hrange]
  | @stops i n m o hstop =>
    cases o with
    | proceed => cases hstop
    | skip => cases hskip
    | add models =>
      -- For those behind it, this hook is the one ahead of them that asks for more models.
      by_cases hij : i = j
      · subst hij
        simp [Happening.isCall, Happening.asksAhead, Place.isAhead]
      · have hcall : (Happening.ran (.hookBefore i) name (.add models) m).isCall (.hookBefore j)
            name = false := by
          simp [Happening.isCall, hij]
        have hasks : ¬(i ≤ j ∧ j < i + (n + 1) ∧
            [Happening.ran (.hookBefore i) name (.add models) m].any (·.asksAhead j name) =
              false) := by
          rintro ⟨hle, -, hany⟩
          have hlt : i < j := by omega
          simp [Happening.asksAhead, Place.isAhead, hlt] at hany
        rw [if_neg hasks, List.countP_singleton, hcall]
        rfl

/-- What comes before a write calls the model's own code once, and each of its hooks once unless
    code ahead of it asked for more models. -/
theorem Before.countP_isCall (h : Before hooks name es o) (hskip : o.isSkip = false) :
    ∃ left, (∃ outcome, .ran .beforeSave name outcome left ∈ es) ∧
      es.countP (·.isCall .beforeSave name) = 1 ∧
      ∀ i, es.countP (·.isCall (.hookBefore i) name) =
        if i < (hooks left).length ∧ es.any (·.asksAhead i name) = false then 1 else 0 := by
  cases h with
  | @proceeds m es o hhooks =>
    refine ⟨m, ⟨.proceed, List.mem_cons_self⟩, ?_, fun i => ?_⟩
    · rw [List.countP_cons, hhooks.countP_beforeSave]
      simp [Happening.isCall]
    · have hany : (Happening.ran .beforeSave name .proceed m :: es).any (·.asksAhead i name) =
          es.any (·.asksAhead i name) := rfl
      rw [List.countP_cons, hhooks.countP_hookBefore hskip, hany]
      simp [Happening.isCall]
  | @stops m o hstop =>
    refine ⟨m, ⟨o, List.mem_cons_self⟩, by simp [Happening.isCall], fun i => ?_⟩
    cases o with
    | proceed => cases hstop
    | skip => cases hskip
    | add models => simp [Happening.isCall, Happening.asksAhead, Place.isAhead]

/-- The calls for a model are all among what is told of it. -/
theorem countP_isCall_filter (place : Place) (name : ModelName) (es : List (Happening μ)) :
    (es.filter (·.name = name)).countP (·.isCall place name) = es.countP (·.isCall place name) := by
  rw [List.countP_filter]
  congr 1
  funext x
  cases x <;> simp +contextual [Happening.isCall, Happening.name]

theorem any_asksAhead_filter (i : Nat) (name : ModelName) (es : List (Happening μ)) :
    (es.filter (·.name = name)).any (·.asksAhead i name) = es.any (·.asksAhead i name) := by
  rw [List.any_filter]
  congr 1
  funext x
  cases x with
  | wrote => simp [Happening.asksAhead]
  | ran _ _ o _ => cases o <;> simp +contextual [Happening.asksAhead, Happening.name]

variable [Model μ]

theorem Validates.countP_isCall (h : Validates name es) {place : Place}
    (hplace : place ≠ .beforeValidate) : es.countP (·.isCall place name) = 0 := by
  obtain ⟨o, m, rfl, -⟩ := h
  simp [Happening.isCall, hplace.symm]

theorem Validates.any_asksAhead (h : Validates name es) (i : Nat) :
    es.any (·.asksAhead i name) = false := by
  obtain ⟨o, m, rfl, -⟩ := h
  cases o <;> rfl

/-- So it is of a model that is ready to be written. -/
theorem Readied.countP_isCall {m : μ} (h : Readied hooks es name m) :
    ∃ left, (∃ outcome, .ran .beforeSave name outcome left ∈ es) ∧
      es.countP (·.isCall .beforeSave name) = 1 ∧
      ∀ i, es.countP (·.isCall (.hookBefore i) name) =
        if i < (hooks left).length ∧ es.any (·.asksAhead i name) = false then 1 else 0 := by
  obtain ⟨heq, hvalid, hbefore, hskip, -⟩ := h
  obtain ⟨left, ⟨outcome, hmem⟩, hown, hhooks⟩ := hbefore.countP_isCall hskip
  refine ⟨left, ⟨outcome, ?_⟩, ?_, fun i => ?_⟩
  · have hfilter : .ran .beforeSave name outcome left ∈ es.filter (·.name = name) :=
      heq ▸ List.mem_append_right _ hmem
    exact List.mem_of_mem_filter hfilter
  · rw [← countP_isCall_filter, heq, List.countP_append, hvalid.countP_isCall (by decide), hown]
  · rw [← countP_isCall_filter, ← any_asksAhead_filter, heq, List.countP_append, List.any_append,
      hvalid.countP_isCall (by simp), hvalid.any_asksAhead, hhooks, Nat.zero_add, Bool.false_or]

end Calls

/-- Before any save writes a model of its own for the first time, the model's own code before the
    write has been called once, and each of its hooks once if no code of the model ahead of it asked
    for more models, and not at all otherwise. Its hooks are those that it had when its own code was
    through. -/
theorem SaveEngine.calls_before_first_write [Model μ] {e : SaveEngine μ σ} {frames : Nat → Frame}
    {bound route : Nat} {s : Saving σ} {models : List μ} (hphase : s.phases route ≠ .afterSave)
    {pre post : List (Happening μ)} {name : ModelName} {m : μ}
    (hwrite : e.history frames bound route s models = pre ++ .wrote name m :: post)
    (hown : name.isNested = false) (hfirst : ∀ before, .wrote name before ∉ pre) :
    ∃ left, (∃ outcome, .ran .beforeSave name outcome left ∈ pre) ∧
      pre.countP (·.isCall .beforeSave name) = 1 ∧
      ∀ i, pre.countP (·.isCall (.hookBefore i) name) =
        if i < (e.behaviour.hooks left).length ∧ pre.any (·.asksAhead i name) = false
        then 1 else 0 := by
  have hwell := @save_wellWritten _ _ _ e frames bound route s hphase models
  rw [hwrite, ownEntries_split (x := .wrote name m) hown] at hwell
  cases hwell.warranted rfl with
  | again hbefore _ => exact absurd (List.mem_of_mem_filter hbefore) (hfirst _)
  | first hready => exact (hready.congr (filter_name_ownEntries hown pre).symm).countP_isCall

namespace Rehearsal.Stage

/-- Saves of items with two hooks: the first has a part of an order saved first, and the second
    confirms what is saved. -/
def partsEngine : SaveEngine Record Stage where
  routes _ := {
    writer := (TableStore.mk (connection default 0)
      { table := "item", schema := itemSchema }).modelWriter }
  behaviour := {
    hooks := fun _ => [
      { before := .look fun m _ => .done (
          if m.values.getOrNull "name" == .string "order" then .add [item "part"] else .proceed) },
      { before := .act (Act.change fun (w, m) =>
          (w, (m.set "name" (.string "confirmed")).toOption.getD m)) fun _ => .done .proceed }] }

/-- The history of an order that has a part. -/
def orderHistory : List (Happening Record) :=
  partsEngine.history (fun _ => .connected 1) 2 0 emptyStage [item "order"]

/-- The first hook of an order is called once before it is written. -/
theorem order_calls_first_hook : ∃ pre post m,
    orderHistory = pre ++ .wrote (.given 0) m :: post ∧
      pre.countP (·.isCall .beforeSave (.given 0)) = 1 ∧
      pre.countP (·.isCall (.hookBefore 0) (.given 0)) = 1 := by
  have hwritten : (firstWrite orderHistory (.given 0)).isSome = true := by decide +kernel
  have hasks : orderHistory.any (·.asksAhead 0 (.given 0)) = false := by decide +kernel
  obtain ⟨m, hm⟩ := Option.isSome_iff_exists.1 hwritten
  obtain ⟨pre, post, hwrite, hfirst⟩ := exists_first_write hm
  rw [hwrite, List.any_append, Bool.or_eq_false_iff] at hasks
  have hphase : (emptyStage : Saving Stage).phases 0 ≠ .afterSave := by decide
  obtain ⟨left, -, hown, hhooks⟩ :=
    SaveEngine.calls_before_first_write hphase hwrite rfl hfirst
  exact ⟨pre, post, m, hwrite, hown, (hhooks 0).trans (if_pos ⟨Nat.zero_lt_two, hasks.1⟩)⟩

/-- The second hook of an order is never called, though the order is written and the save
    succeeds. -/
theorem order_passes_second_hook :
    ((partsEngine.save 2 0).perform (emptyStage, [item "order"])).1 = .ok () ∧
      ∃ m, firstWrite orderHistory (.given 0) = some m ∧
        (partsEngine.behaviour.hooks m).length = 2 ∧
        orderHistory.countP (·.isCall (.hookBefore 1) (.given 0)) = 0 := by
  have hwritten : (firstWrite orderHistory (.given 0)).isSome = true := by decide +kernel
  obtain ⟨m, hm⟩ := Option.isSome_iff_exists.1 hwritten
  exact ⟨by decide +kernel, m, hm, rfl, by decide +kernel⟩

end Rehearsal.Stage

end RecordStore
