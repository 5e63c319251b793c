import RecordStore.Proofs.Save.Warrants

/-!
# Which writes are of models that validate

A model is validated before the code before its write runs, and not again after it. So what that
code makes of the model is what is written, whether or not it still validates. Everything else that
is written validates as it stands: the edits that the code after the write leaves, and what a save
writes that starts in the after-save phase (`SaveEngine.validates_or_readied`).
-/

namespace RecordStore

variable {μ σ : Type}

variable [Model μ]

/-- That what is written validates. -/
def Happening.IsChecked : Happening μ → Prop
  | wrote _ m => Model.validate m = .ok ()
  | ran _ _ _ _ => True

namespace SaveEngine

variable {e : SaveEngine μ σ} {frames : Nat → Frame} {bound route : Nat} {s : Saving σ}
  {models : List μ}

/-- Pending edits are written only if they validate. -/
theorem writePending_addsChecked (route : Nat) : ((e.recorded frames).writePending route).Moves
    (Adds Happening.IsChecked) fun t => t.1.history := by
  rintro ⟨s, m⟩
  rw [perform_writePending]
  split
  · rw [Act.perform_bind, perform_validate]
    rcases hvalid : Model.validate m with err | _
    · exact Std.Refl.refl s.history
    · refine ⟨[.wrote m.name m.model], ?_, List.forall_mem_singleton.2 hvalid⟩
      dsimp only
      rw [perform_write_recorded]
      rcases (e.routes route).writer.write.perform (s.world.1, m.model) with ⟨_ | _, w, m₁⟩ <;> rfl
  · exact Std.Refl.refl s.history

/-- A save that starts in the after-save phase writes only what validates. -/
theorem checked_of_afterSave (hphase : s.phases route = .afterSave) :
    ∀ x ∈ e.history frames bound route s models, x.IsChecked := by
  have hadds : Adds Happening.IsChecked [] (e.history frames bound route s models) := by
    rw [history]
    cases bound with
    | zero => exact Std.Refl.refl []
    | succ bound =>
      have hphase' : (s.recorded : Saving (Recorded μ σ)).phases route = .afterSave := hphase
      simp only [save, saveWith, Act.perform_make, hphase', if_true]
      exact (writePending_addsChecked route).forEach (s.recorded, Named.given models)
  obtain ⟨seg, heq, hseg⟩ := hadds
  rw [heq]
  exact hseg

/-- Every model that is written validates as it stands, unless it is written for the first time. Then
    it has been validated before, and is written as the code before the write left it. -/
theorem validates_or_readied {pre post : List (Happening μ)} {name : ModelName} {m : μ}
    (hwrite : e.history frames bound route s models = pre ++ .wrote name m :: post)
    (hown : name.isNested = false) :
    Model.validate m = .ok () ∨
      (s.phases route ≠ .afterSave ∧ (∀ before, .wrote name before ∉ pre) ∧
        Readied e.behaviour.hooks pre name m) := by
  by_cases hphase : s.phases route = .afterSave
  · have hchecked := @checked_of_afterSave _ _ _ e frames bound route s models hphase
    rw [hwrite] at hchecked
    exact .inl (hchecked (.wrote name m) (by simp))
  · have hwell := @save_wellWritten _ _ _ e frames bound route s hphase models
    rw [hwrite, ownEntries_split (x := .wrote name m) hown] at hwell
    cases hwell.warranted rfl with
    | again _ hvalid => exact .inl hvalid
    | first hready =>
      have hready' : Readied e.behaviour.hooks pre name m :=
        hready.congr (filter_name_ownEntries hown pre).symm
      exact .inr ⟨hphase, hready'.wrote_notMem, hready'⟩

end SaveEngine

namespace Rehearsal.Stage

def titleSchema : Schema :=
  ⟨[{ name := "id", isKey := true }, { name := "title", isRequired := true }]⟩

/-- An item with a title that was not saved yet. -/
def titled (title : String) : Record where
  schema := titleSchema
  values := [("title", .string title)]
  edited := ["title"]

/-- Saves in which every item loses its title before the write. -/
def erasingEngine : SaveEngine Record Stage where
  routes _ := {
    writer := (TableStore.mk (connection default 0)
      { table := "item", schema := titleSchema }).modelWriter }
  behaviour := {
    hooks := fun _ => [{
      before := .act (Act.change fun (w, m) => (w, (m.set "title" .null).toOption.getD m)) fun _ =>
        .done .proceed }] }

/-- The history of an item that loses its title. -/
def erasedHistory : List (Happening Record) :=
  erasingEngine.history (fun _ => .connected 1) 1 0 emptyStage [titled "a"]

theorem erased_write : ∃ m, firstWrite erasedHistory (.given 0) = some m ∧
    Model.validate m = .error (.missingRequiredProperty "title") := by
  have hfirst : (firstWrite erasedHistory (.given 0)).map Model.validate =
      some (.error (.missingRequiredProperty "title")) := by
    decide +kernel
  exact Option.map_eq_some_iff.1 hfirst

/-- An item that lost its title is written as its hook left it. -/
theorem erased_item_readied : ∃ pre post m, erasedHistory = pre ++ .wrote (.given 0) m :: post ∧
    Model.validate m ≠ .ok () ∧ Readied erasingEngine.behaviour.hooks pre (.given 0) m := by
  obtain ⟨m, hfirst, hinvalid⟩ := erased_write
  obtain ⟨pre, post, hwrite, -⟩ := exists_first_write hfirst
  have hnot : Model.validate m ≠ .ok () := by
    rw [hinvalid]
    exact fun h => by cases h
  obtain hvalid | ⟨-, -, hready⟩ := SaveEngine.validates_or_readied hwrite rfl
  · exact absurd hvalid hnot
  · exact ⟨pre, post, m, hwrite, hnot, hready⟩

/-- An item that validates, and is saved without an error, is written without its title. -/
theorem item_written_invalid :
    Model.validate (titled "a") = .ok () ∧
      ((erasingEngine.save 1 0).perform (emptyStage, [titled "a"])).1 = .ok () ∧
      ∃ m, .wrote (.given 0) m ∈ erasedHistory ∧ Model.validate m ≠ .ok () := by
  obtain ⟨m, hfirst, hinvalid⟩ := erased_write
  obtain ⟨pre, post, hwrite, -⟩ := exists_first_write hfirst
  refine ⟨by decide, by decide +kernel, m, ?_, ?_⟩
  · rw [hwrite]
    exact List.mem_append_right pre List.mem_cons_self
  · rw [hinvalid]
    exact fun h => by cases h

end Rehearsal.Stage

end RecordStore
