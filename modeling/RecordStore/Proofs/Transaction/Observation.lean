import RecordStore.Proofs.Transaction.Course

/-!
# Observed chains

A chain does not tell what it does on its way. To see it, the world is put beside a *history*, to
which every call of a connection, every unit of work and the check add an event when they come to
their end, with their outcome (`Chain.observe`). Connections are known by their identity. The events
change nothing: a chain that is observed has the same result and leaves the same world
(`Chain.observe_eq`), so its history is that of the chain itself (`Chain.history`).

* Of a connection it is assumed that a call that succeeds opens or closes its transaction, and that
  a call that fails does neither (`Connection.IsFaithful`); of units and checks, that they leave all
  transactions alone (`Act.Spares`).
* With transactions that were just made, this makes a chain `Chain.IsFair`, and the history of such
  a chain takes one of the courses of a chain (`Chain.IsFair.course`).
-/

namespace RecordStore

variable {σ α β : Type}

/-- An event in the history of a chain. The step of a unit of work is labelled with it, and that of
    the check with nothing. -/
abbrev ChainEvent (σ : Type) := Ledger.Entry ConnectionId (Option (WorkUnit σ))

/-- A world with the history of what was done in it. -/
abbrev Observed (σ : Type) := σ × List (ChainEvent σ)

/-- An action that is entered in the history with its outcome. -/
def Act.observed (enter : Except StoreError Unit → ChainEvent σ) (f : Act σ Unit) :
    Act (Observed σ) Unit :=
  Act.make fun (s, history) =>
    let (r, s') := f.perform s
    (r, s', history ++ [enter r])

/-- A connection whose transactions are entered in the history. -/
def Connection.observed (c : Connection σ) : Connection (Observed σ) :=
  { c.zoom .fst with
    begin := c.begin.observed (.control c.id .begin)
    commit := c.commit.observed (.control c.id .commit)
    rollback := c.rollback.observed (.control c.id .rollback) }

/-- A unit of work that is entered in the history. -/
def WorkUnit.observed (u : WorkUnit σ) : WorkUnit (Observed σ) where
  connection := u.connection.map (·.observed)
  capability := u.capability
  run := u.run.observed (.step (some u))

def Strand.observed (g : Strand σ) : Strand (Observed σ) where
  connection := g.connection.observed
  isOwned := g.isOwned
  units := g.units.map (·.observed)

def Transaction.observed : Transaction σ → Transaction (Observed σ)
  | connected strands => connected (strands.map (·.observed))
  | plain units => plain (units.map (·.observed))

namespace Chain

/-- A chain that is entered in the history. -/
def observe (check : Act σ Unit) (ts : List (Transaction σ)) : Act (Observed σ) Unit :=
  execute (check.observed (.step none)) (ts.map (·.observed))

/-- What happens in a chain, from its first call to its last. -/
def history (check : Act σ Unit) (ts : List (Transaction σ)) (s : σ) : List (ChainEvent σ) :=
  ((observe check ts).perform (s, [])).2.2

end Chain

/-! ### Observing changes nothing -/

namespace Strand

variable (g : Strand σ) (s : σ) (h : List (ChainEvent σ))

theorem isOwned_observed : g.observed.isOwned = g.isOwned := rfl

theorem inTransaction_observed :
    g.observed.connection.inTransaction (s, h) = g.connection.inTransaction s := rfl

theorem begin_observed :
    g.observed.connection.begin.perform (s, h) =
      ((g.connection.begin.perform s).1, (g.connection.begin.perform s).2,
        h ++ [.control g.connection.id .begin (g.connection.begin.perform s).1]) := rfl

theorem commit_observed :
    g.observed.connection.commit.perform (s, h) =
      ((g.connection.commit.perform s).1, (g.connection.commit.perform s).2,
        h ++ [.control g.connection.id .commit (g.connection.commit.perform s).1]) := rfl

theorem rollback_observed :
    g.observed.connection.rollback.perform (s, h) =
      ((g.connection.rollback.perform s).1, (g.connection.rollback.perform s).2,
        h ++ [.control g.connection.id .rollback (g.connection.rollback.perform s).1]) := rfl

end Strand

theorem Transaction.strands_observed (t : Transaction σ) :
    t.observed.strands = t.strands.map (·.observed) := by
  cases t <;> rfl

theorem Transaction.units_observed (t : Transaction σ) :
    t.observed.units = t.units.map (·.observed) := by
  cases t with
  | plain units => rfl
  | connected strands =>
    rw [observed, units, units, List.flatMap_map, List.map_flatMap]
    rfl

theorem Transaction.isConnected_observed (t : Transaction σ) :
    t.observed.isConnected = t.isConnected := by
  cases t <;> rfl

/-- What an observed action does: it has the same outcome, beside some history. -/
def Shows (f' : Act (Observed σ) α) (f : Act σ α) : Prop :=
  ∀ s h, ∃ h', f'.perform (s, h) = ((f.perform s).1, (f.perform s).2, h')

/-- The outcome of an observed loop is that of the loop, beside some history. -/
def ShowsOutcome (view : α → β) (r' : Except StoreError Unit × Observed σ × β)
    (r : Except StoreError Unit × σ × α) : Prop :=
  ∃ h, r' = (r.1, (r.2.1, h), view r.2.2)

theorem shows_pure (a : α) : Shows (pure a : Act (Observed σ) α) (pure a) := fun _ h => ⟨h, rfl⟩

theorem shows_observed (enter : Except StoreError Unit → ChainEvent σ) (f : Act σ Unit) :
    Shows (f.observed enter) f := fun s h => ⟨h ++ [enter (f.perform s).1], rfl⟩

theorem Shows.andThen {f' g' : Act (Observed σ) Unit} {f g : Act σ Unit} (hf : Shows f' f)
    (hg : Shows g' g) : Shows (do f'; g') (do f; g) := by
  intro s h
  obtain ⟨h₁, heq⟩ := hf s h
  rw [Act.perform_bind, Act.perform_bind, heq]
  rcases f.perform s with ⟨_ | _, s₁⟩
  · exact ⟨h₁, rfl⟩
  · exact hg s₁ h₁

theorem shows_runUnits (units : List (WorkUnit σ)) :
    Shows (WorkUnit.runAll (units.map (·.observed))) (WorkUnit.runAll units) := by
  induction units with
  | nil => exact shows_pure ()
  | cons u rest ih => exact (shows_observed _ u.run).andThen ih

theorem showsOutcome_each {f' : Act (Observed σ × β) Unit} {f : Act (σ × α) Unit} {view : α → β}
    (hf : ∀ a s h, ShowsOutcome view (f'.perform ((s, h), view a)) (f.perform (s, a)))
    (as : List α) (s : σ) (h : List (ChainEvent σ)) :
    ShowsOutcome (List.map view) (Act.each f' (as.map view) (s, h)) (Act.each f as s) := by
  induction as generalizing s h with
  | nil => exact ⟨h, rfl⟩
  | cons a rest ih =>
    obtain ⟨h₁, heq⟩ := hf a s h
    rw [List.map_cons, Act.each, Act.each, heq]
    rcases f.perform (s, a) with ⟨_ | _, s₁, a₁⟩
    · exact ⟨h₁, rfl⟩
    · obtain ⟨h₂, heq⟩ := ih s₁ h₁
      exact ⟨h₂, by simp only [heq, List.map_cons]⟩

theorem showsOutcome_strandBegin (g : Strand σ) (s : σ) (h : List (ChainEvent σ)) :
    ShowsOutcome Strand.observed (Strand.begin.perform ((s, h), g.observed))
      (Strand.begin.perform (s, g)) := by
  simp only [Strand.begin, Act.perform_make, Strand.inTransaction_observed]
  by_cases hopen : g.connection.inTransaction s = true
  · simp only [hopen, if_true]
    exact ⟨h, rfl⟩
  · simp only [hopen, Strand.begin_observed]
    rcases g.connection.begin.perform s with ⟨_ | _, s₁⟩ <;> exact ⟨_, rfl⟩

theorem showsOutcome_strandsCommit (total n : Nat) (gs : List (Strand σ)) (s : σ)
    (h : List (ChainEvent σ)) :
    ShowsOutcome (List.map Strand.observed)
      (Strand.commitAll total n (gs.map (·.observed)) (s, h)) (Strand.commitAll total n gs s) := by
  induction gs generalizing n s h with
  | nil => exact ⟨h, rfl⟩
  | cons g rest ih =>
    simp only [List.map_cons, Strand.commitAll, Strand.isOwned_observed]
    by_cases hg : g.isOwned = true
    · simp only [hg, if_true, Strand.commit_observed]
      rcases g.connection.commit.perform s with ⟨e | a, s₁⟩
      · exact ⟨_, rfl⟩
      · obtain ⟨h₁, heq⟩ := ih (n + 1) s₁ (h ++ [.control g.connection.id .commit (.ok a)])
        exact ⟨h₁, by simp only [heq]; rfl⟩
    · obtain ⟨h₁, heq⟩ := ih n s h
      exact ⟨h₁, by simp only [hg, heq]; rfl⟩

theorem showsOutcome_strandsUndo (gs : List (Strand σ)) (s : σ) (h : List (ChainEvent σ)) :
    ShowsOutcome (List.map Strand.observed) (Strand.undoAll (gs.map (·.observed)) (s, h))
      (Strand.undoAll gs s) := by
  induction gs generalizing s h with
  | nil => exact ⟨h, rfl⟩
  | cons g rest ih =>
    simp only [List.map_cons, Strand.undoAll, Strand.isOwned_observed]
    by_cases hg : g.isOwned = true
    · simp only [hg, if_true, Strand.rollback_observed]
      rcases g.connection.rollback.perform s with ⟨r, s₁⟩
      obtain ⟨h₁, heq⟩ := ih s₁ (h ++ [.control g.connection.id .rollback r])
      exact ⟨h₁, by simp only [heq]; rfl⟩
    · obtain ⟨h₁, heq⟩ := ih s h
      exact ⟨h₁, by simp only [hg, heq]; rfl⟩

theorem showsOutcome_begin (t : Transaction σ) (s : σ) (h : List (ChainEvent σ)) :
    ShowsOutcome Transaction.observed (Transaction.begin.perform ((s, h), t.observed))
      (Transaction.begin.perform (s, t)) := by
  cases t with
  | plain units => exact ⟨h, rfl⟩
  | connected strands =>
    obtain ⟨h₁, heq⟩ := showsOutcome_each showsOutcome_strandBegin strands s h
    exact ⟨h₁, by simp only [Transaction.begin, Transaction.observed, Act.perform_make, heq]⟩

theorem showsOutcome_commit (t : Transaction σ) (s : σ) (h : List (ChainEvent σ)) :
    ShowsOutcome Transaction.observed (Transaction.commit.perform ((s, h), t.observed))
      (Transaction.commit.perform (s, t)) := by
  cases t with
  | plain units => exact ⟨h, rfl⟩
  | connected strands =>
    have htotal : ((strands.map Strand.observed).filter (·.isOwned)).length =
        (strands.filter (·.isOwned)).length := by
      rw [List.filter_map, List.length_map]
      rfl
    obtain ⟨h₁, heq⟩ :=
      showsOutcome_strandsCommit (strands.filter (·.isOwned)).length 0 strands s h
    exact ⟨h₁, by
      simp only [Transaction.commit, Transaction.observed, Act.perform_make, htotal, heq]⟩

theorem showsOutcome_rollback (t : Transaction σ) (s : σ) (h : List (ChainEvent σ)) :
    ShowsOutcome Transaction.observed (Transaction.rollback.perform ((s, h), t.observed))
      (Transaction.rollback.perform (s, t)) := by
  cases t with
  | plain units => exact ⟨h, rfl⟩
  | connected strands =>
    obtain ⟨h₁, heq⟩ := showsOutcome_strandsUndo strands s h
    exact ⟨h₁, by simp only [Transaction.rollback, Transaction.observed, Act.perform_make, heq]⟩

theorem shows_run (t : Transaction σ) : Shows t.observed.run t.run := by
  rw [Transaction.run, t.units_observed]
  exact shows_runUnits t.units

theorem shows_runAll (ts : List (Transaction σ)) :
    Shows (Chain.runAll (ts.map (·.observed))) (Chain.runAll ts) := by
  induction ts with
  | nil => exact shows_pure ()
  | cons t rest ih => exact (shows_run t).andThen ih

theorem showsOutcome_chainCommit (total index : Nat) (ts : List (Transaction σ)) (s : σ)
    (h : List (ChainEvent σ)) :
    ShowsOutcome (List.map Transaction.observed)
      (Chain.commitAll total index (ts.map (·.observed)) (s, h))
      (Chain.commitAll total index ts s) := by
  induction ts generalizing index s h with
  | nil => exact ⟨h, rfl⟩
  | cons t rest ih =>
    obtain ⟨h₁, heq⟩ := showsOutcome_commit t s h
    simp only [List.map_cons, Chain.commitAll, heq]
    rcases Transaction.commit.perform (s, t) with ⟨e | _, s₁, t₁⟩
    · exact ⟨h₁, rfl⟩
    · obtain ⟨h₂, heq⟩ := ih (index + 1) s₁ h₁
      exact ⟨h₂, by simp only [heq]; rfl⟩

theorem chainUndo_observed (ts : List (Transaction σ)) (s : σ) (h : List (ChainEvent σ)) :
    ∃ h', Chain.undoAll (ts.map (·.observed)) (s, h) = (Chain.undoAll ts s, h') := by
  induction ts generalizing s h with
  | nil => exact ⟨h, rfl⟩
  | cons t rest ih =>
    obtain ⟨h₁, heq⟩ := showsOutcome_rollback t s h
    rw [List.map_cons, Chain.undoAll, Chain.undoAll, heq]
    exact ih _ h₁

/-- A chain has the same outcome when it is observed. -/
theorem Chain.observe_eq (check : Act σ Unit) (ts : List (Transaction σ)) :
    Shows (Chain.observe check ts) (Chain.execute check ts) := by
  intro s h
  -- Part by part, the outcome is the same and the history is a longer one.
  obtain ⟨h₁, hbegin⟩ := showsOutcome_each showsOutcome_begin ts s h
  simp only [Chain.observe, Chain.execute, Act.perform_make, hbegin]
  rcases Act.each Transaction.begin ts s with ⟨_ | _, s₁, ts₁⟩
  · obtain ⟨h₂, hundo⟩ := chainUndo_observed ts₁ s₁ h₁
    exact ⟨h₂, by simp only [hundo]⟩
  · obtain ⟨h₂, hrun⟩ := (shows_runAll ts₁).andThen (shows_observed (.step none) check) s₁ h₁
    simp only [hrun]
    rcases (do Chain.runAll ts₁; check : Act σ Unit).perform s₁ with ⟨_ | _, s₂⟩
    · obtain ⟨h₃, hundo⟩ := chainUndo_observed ts₁ s₂ h₂
      exact ⟨h₃, by simp only [hundo]⟩
    · obtain ⟨h₃, hcommit⟩ := showsOutcome_chainCommit ts₁.length 0 ts₁ s₂ h₂
      simp only [List.length_map, hcommit]
      rcases Chain.commitAll ts₁.length 0 ts₁ s₂ with ⟨_ | _, s₃, ts₂⟩
      · obtain ⟨h₄, hundo⟩ := chainUndo_observed ts₂ s₃ h₃
        exact ⟨h₄, by simp only [hundo]⟩
      · exact ⟨h₃, rfl⟩

/-! ### What is assumed of connections and units -/

variable {isOpen : ConnectionId → σ → Bool}

/-- A call that opens or closes the transaction of one connection if it succeeds, and leaves all
    transactions as they are if not. -/
structure Act.Turns (isOpen : ConnectionId → σ → Bool) (id : ConnectionId) (toOpen : Bool)
    (f : Act σ Unit) : Prop where
  granted : ∀ s, (f.perform s).1 = .ok () → isOpen id (f.perform s).2 = toOpen
  failed : ∀ s e, (f.perform s).1 = .error e → isOpen id (f.perform s).2 = isOpen id s
  others : ∀ s id', id' ≠ id → isOpen id' (f.perform s).2 = isOpen id' s

/-- An action that leaves all transactions as they are. -/
def Act.Spares (isOpen : ConnectionId → σ → Bool) (f : Act σ α) : Prop :=
  ∀ s id, isOpen id (f.perform s).2 = isOpen id s

/-- A connection that opens and closes its transaction as it says. -/
structure Connection.IsFaithful (isOpen : ConnectionId → σ → Bool) (c : Connection σ) : Prop where
  inTransaction : ∀ s, c.inTransaction s = isOpen c.id s
  begin : c.begin.Turns isOpen c.id true
  commit : c.commit.Turns isOpen c.id false
  rollback : c.rollback.Turns isOpen c.id false

namespace Chain

/-- Transactions that were just made, on faithful connections, and units and a check that leave all
    transactions to them. -/
structure IsFair (isOpen : ConnectionId → σ → Bool) (check : Act σ Unit)
    (ts : List (Transaction σ)) : Prop where
  fresh : ∀ t ∈ ts, ∃ units, t.IsFresh units
  connections : ∀ t ∈ ts, ∀ u ∈ t.units, ∀ c, u.connection = some c → c.IsFaithful isOpen
  units : ∀ t ∈ ts, ∀ u ∈ t.units, u.run.Spares isOpen
  check : check.Spares isOpen

/-- The steps of a chain: all units of work in their order, and the check. -/
def steps (ts : List (Transaction σ)) : List (Option (WorkUnit σ)) :=
  (ts.flatMap (·.units)).map some ++ [none]

/-- The ledger of an observed world. -/
def ledger (isOpen : ConnectionId → σ → Bool) :
    Ledger ConnectionId (Option (WorkUnit σ)) (Observed σ) where
  isOpen id o := isOpen id o.1
  entries o := o.2

end Chain

theorem Act.Turns.enters {id : ConnectionId} {q : Ledger.Request} {f : Act σ Unit}
    (h : f.Turns isOpen id (decide (q = .begin))) :
    (Chain.ledger isOpen).Enters id q (f.observed (.control id q)) where
  entries _ := rfl
  granted o := h.granted o.1
  failed o := h.failed o.1
  others o := h.others o.1

theorem Connection.IsFaithful.serves {c : Connection σ} (h : c.IsFaithful isOpen) :
    (Chain.ledger isOpen).Serves c.id c.observed where
  inTransaction o := h.inTransaction o.1
  begin := h.begin.enters
  commit := h.commit.enters
  rollback := h.rollback.enters

theorem Act.Spares.takes {f : Act σ Unit} (h : f.Spares isOpen) (i : Option (WorkUnit σ)) :
    (Chain.ledger isOpen).Takes [i] (f.observed (.step i)) where
  isOpen o := h o.1
  entries o := by
    refine ⟨[.step i (f.perform o.1).1], rfl, ?_⟩
    change Ledger.Progress [i] (f.perform o.1).1 _
    rcases (f.perform o.1).1 with e | _
    · exact .stopped_head i [] e
    · exact .all ⟨rfl, by simp [Ledger.Entry.isControl]⟩

namespace Chain

variable {check : Act σ Unit} {ts : List (Transaction σ)}

/-- Transactions take their units as steps, in order. -/
theorem takes_runAll (hunits : ∀ t ∈ ts, ∀ u ∈ t.units, u.run.Spares isOpen) :
    (ledger isOpen).Takes ((ts.flatMap (·.units)).map some)
      (Chain.runAll (ts.map (·.observed))) := by
  induction ts with
  | nil => exact .pure
  | cons t rest ih =>
    obtain ⟨ht, hrest⟩ := List.forall_mem_cons.1 hunits
    rw [List.flatMap_cons, List.map_append]
    refine Ledger.Takes.andThen ?_ (ih hrest)
    rw [Transaction.run, t.units_observed]
    exact Ledger.Takes.runAll fun u hu => (ht u hu).takes (some u)

/-- The history of a fair chain takes one of the courses of a chain. -/
theorem IsFair.course (h : IsFair isOpen check ts) (s : σ) :
    ∃ lines, lines.Nodup ∧ (∀ id ∈ lines, isOpen id s = false) ∧
      Ledger.Course (ledger isOpen) (s, []) (ts.map (·.observed)) (steps ts) lines
        ((Chain.execute check ts).perform s).1 (history check ts s) := by
  have hnew : ∀ t ∈ ts.map (·.observed), ∀ g ∈ t.strands, g.isOwned = false := by
    simp only [List.forall_mem_map, Transaction.strands_observed]
    intro t ht g hg
    obtain ⟨units, hunits⟩ := h.fresh t ht
    exact hunits.isNew.isOwned g hg
  have hserves : ∀ t ∈ ts.map (·.observed), ∀ g ∈ t.strands,
      ∃ id, (ledger isOpen).Serves id g.connection := by
    simp only [List.forall_mem_map, Transaction.strands_observed]
    intro t ht g hg
    obtain ⟨units, hunits⟩ := h.fresh t ht
    obtain ⟨u, hu, hconnection⟩ := hunits.isNew.connection g hg
    have hu' := hunits.isNew.units.mem_iff.2 hu
    exact ⟨g.connection.id, (h.connections t ht u hu' _ hconnection).serves⟩
  obtain ⟨lines, es, hes, hnodup, hclosed, hcourse⟩ := Ledger.execute_course hnew hserves
    ((takes_runAll h.units).andThen (h.check.takes none)) (s, [])
  refine ⟨lines, hnodup, hclosed, ?_⟩
  obtain ⟨history', heq⟩ := observe_eq check ts s []
  have hresult : ((observe check ts).perform (s, [])).1 = ((execute check ts).perform s).1 := by
    rw [heq]
  rw [← hresult, history]
  change ((observe check ts).perform (s, [])).2.2 = [] ++ es at hes
  rw [hes]
  exact hcourse

end Chain

end RecordStore
