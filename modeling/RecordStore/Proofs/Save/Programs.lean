import RecordStore.Proofs.Save.Decoration

/-!
# What programs are made of

A program is made of acts, of saves, and of chains on connections. A condition on each of these is a
condition on the program (`Program.All`), and if all of them move along a relation, then so does a
run of the program (`Program.All.moves`).

One program can follow on another's outcome (`Program.andThen`).
-/

namespace RecordStore.Program

variable {α γ μ μ' σ τ : Type}

/-- All acts, connections and saves of a program are of some kinds. -/
def All (onAct : Act (σ × α) Unit → Prop) (onLine : Connection σ → Prop)
    (onSave : (α → List μ) → (List μ → α → α) → Prop) : Program α μ σ → Prop
  | done _ => True
  | fail _ => True
  | look next => ∀ a s, (next a s).All onAct onLine onSave
  | act f next => onAct f ∧ ∀ r, (next r).All onAct onLine onSave
  | phase _ next => ∀ p, (next p).All onAct onLine onSave
  | save _ models put next => onSave models put ∧ ∀ r ms, (next r ms).All onAct onLine onSave
  | execute _ errands bodies check next =>
    (∀ i c, (errands i).connection = some c → onLine c) ∧
      (∀ i, (bodies i).All onAct onLine onSave) ∧ check.All onAct onLine onSave ∧
      ∀ r, (next r).All onAct onLine onSave

/-- A program that starts no save. -/
def IsSaveless (p : Program α μ σ) : Prop :=
  p.All (fun _ => True) (fun _ => True) fun _ _ => False

theorem all_true (p : Program α μ σ) :
    p.All (fun _ => True) (fun _ => True) fun _ _ => True := by
  induction p with
  | done | fail => trivial
  | look next ih => exact ih
  | act f next ih => exact ⟨trivial, ih⟩
  | phase _ next ih => exact ih
  | save _ _ _ next ih => exact ⟨trivial, ih⟩
  | execute _ _ _ _ _ ihBodies ihCheck ihNext =>
    exact ⟨fun _ _ _ => trivial, ihBodies, ihCheck, ihNext⟩

variable {onAct : Act (σ × α) Unit → Prop} {onLine : Connection σ → Prop}
  {onSave : (α → List μ) → (List μ → α → α) → Prop}

/-- A run of a program moves along a relation if what it is made of does. -/
theorem All.moves {R : γ → γ → Prop} [Std.Refl R] [IsTrans γ R] {view : Scope σ α → γ}
    {saver : Saver μ σ}
    (hact : ∀ f, onAct f → (f.zoom SaveEngine.worldLens).Moves R view)
    (hline : ∀ c, onLine c → (c.zoom (Lens.fst.comp Saving.worldLens)).Moves R view)
    (hsave : ∀ models put, onSave models put → ∀ route s a,
      R (view (s, a)) (view (((saver route).perform (s, models a)).2.1,
        put ((saver route).perform (s, models a)).2.2 a)))
    {p : Program α μ σ} (h : p.All onAct onLine onSave) (own : Nat) :
    (p.run saver own).Moves R view := by
  induction p generalizing own with
  | done outcome => exact Act.moves_pure outcome
  | fail e => exact Act.moves_fail e
  | look next ih => exact fun ⟨s, a⟩ => ih a s.world (h a s.world) own (s, a)
  | act f next ih =>
    exact fun ⟨s, a⟩ => IsTrans.trans _ _ _ (hact f h.1 (s, a)) (ih _ (h.2 _) own _)
  | phase route next ih => exact fun ⟨s, a⟩ => ih _ (h _) own (s, a)
  | save route models put next ih =>
    exact fun ⟨s, a⟩ => IsTrans.trans _ _ _ (hsave models put h.1 (route.getD own) s a)
      (ih _ _ (h.2 _ _) own _)
  | execute count errands bodies check next ihBodies ihCheck ihNext =>
    obtain ⟨herrands, hbodies, hcheck, hnext⟩ := h
    -- Bodies and the check are run for their effect; their outcomes are dropped.
    have hdrop : ∀ {q : Program α μ σ}, (q.run saver firstRoute).Moves R view →
        (do let _ ← q.run saver firstRoute : Act (Scope σ α) Unit).Moves R view :=
      fun hq => hq.bind fun _ => Act.moves_pure ()
    have hchain : (TransactionScheme.standard.executeChecked
        (workUnits errands fun i => do let _ ← (bodies i).run saver firstRoute)
        (do let _ ← check.run saver firstRoute)).Moves R view := by
      refine TransactionScheme.standard_moves ?_ ?_ (hdrop (ihCheck hcheck firstRoute))
      · intro u hu c hc
        obtain ⟨i, rfl⟩ := List.mem_ofFn.1 hu
        obtain ⟨c', hc', rfl⟩ := Option.map_eq_some_iff.1 hc
        exact hline c' (herrands i c' hc')
      · intro u hu
        obtain ⟨i, rfl⟩ := List.mem_ofFn.1 hu
        exact hdrop (ihBodies i (hbodies i) firstRoute)
    exact fun scope => IsTrans.trans _ _ _ (hchain scope) (ihNext _ (hnext _) own _)

/-- What a program on a decorated model is made of. -/
theorem All.decorate {onAct : Act (σ × μ) Unit → Prop}
    {onSave : (μ → List μ) → (List μ → μ → μ) → Prop} {d : Decor μ' μ τ σ} {p : Program μ μ σ}
    (h : p.All onAct onLine onSave) :
    (p.decorate d).All (fun f => ∃ g, onAct g ∧ f = Act.zoom (d.world.prod d.model) g)
      (fun c => ∃ c', onLine c' ∧ c = Connection.zoom d.world c')
      (fun models put => ∃ models' put', onSave models' put' ∧
        models = (fun m => (models' (d.model.get m)).map d.fresh) ∧
        put = fun ms m => d.model.set (put' (ms.map d.model.get) (d.model.get m)) m) := by
  induction p with
  | done | fail => trivial
  | look next ih => exact fun _ _ => ih _ _ (h _ _)
  | act f next ih => exact ⟨⟨f, h.1, rfl⟩, fun r => ih r (h.2 r)⟩
  | phase _ next ih => exact fun p => ih p (h p)
  | save _ models put next ih =>
    exact ⟨⟨models, put, h.1, rfl, rfl⟩, fun r ms => ih r _ (h.2 r _)⟩
  | execute _ errands _ _ _ ihBodies ihCheck ihNext =>
    obtain ⟨herrands, hbodies, hcheck, hnext⟩ := h
    refine ⟨fun i c hc => ?_, fun i => ihBodies i (hbodies i), ihCheck hcheck,
      fun r => ihNext r (hnext r)⟩
    obtain ⟨c', hc', rfl⟩ := Option.map_eq_some_iff.1 hc
    exact ⟨c', herrands i c' hc', rfl⟩

/-! ### Sequences -/

/-- Goes on from the outcome of a program. -/
def andThen (next : Outcome μ → Program α μ σ) : Program α μ σ → Program α μ σ
  | done outcome => next outcome
  | fail e => fail e
  | look next' => look fun a s => (next' a s).andThen next
  | act f next' => act f fun r => (next' r).andThen next
  | phase route next' => phase route fun p => (next' p).andThen next
  | save route models put next' => save route models put fun r ms => (next' r ms).andThen next
  | execute count errands bodies check next' =>
    execute count errands bodies check fun r => (next' r).andThen next

theorem run_andThen (saver : Saver μ σ) (own : Nat) (p : Program α μ σ)
    (next : Outcome μ → Program α μ σ) :
    (p.andThen next).run saver own = p.run saver own >>= fun o => (next o).run saver own := by
  have hperform : ∀ scope, ((p.andThen next).run saver own).perform scope =
      (p.run saver own >>= fun o => (next o).run saver own).perform scope := by
    induction p with
    | done | fail => exact fun _ => by rw [Act.perform_bind]; rfl
    | look next' ih => exact fun ⟨s, a⟩ => ih a s.world (s, a)
    | act f next' ih => exact fun ⟨s, a⟩ => ih _ _
    | phase route next' ih => exact fun ⟨s, a⟩ => ih _ (s, a)
    | save route models put next' ih => exact fun ⟨s, a⟩ => ih _ _ _
    | execute _ _ _ _ _ _ _ ih => exact fun scope => ih _ _
  exact funext hperform

end RecordStore.Program
