import RecordStore.Proofs.Transaction.Joining
import RecordStore.Proofs.Save.Moves

/-!
# Saves inside a transaction

A save whose line is in a transaction already asks the line neither to begin nor to end one: it
*stays* inside (`Ledger.Stays`). So does every save that is nested in it, through whichever route, as
long as all routes write through connections to the line and the code of the models leaves its
transaction alone (`SaveEngine.IsOn`).

The reason is the same on every level, that of the chain included which a hook may run: a
transaction of the line that is open is joined (`Chain.execute_stays`). By induction on how deep
saves may nest, all of them stay (`SaveEngine.IsOn.save_stays`).
-/

namespace RecordStore

variable {κ ι μ σ τ α : Type}

namespace Ledger

variable [DecidableEq κ]

/-- Whether an entry tells of this line. -/
def Entry.concerns (k : κ) : Entry κ ι → Bool
  | control j _ _ => j = k
  | statement j => j = k
  | step _ _ => false

theorem Entry.concerns_of_asks {q : Request} {k : κ} {x : Entry κ ι} (h : x.asks q k) :
    x.concerns k := by
  cases x with
  | control j q' r => exact decide_eq_true (of_decide_eq_true h).1
  | statement | step => simp [asks] at h

/-- These entries do not tell of the line. -/
def Silent (k : κ) (es : List (Entry κ ι)) : Prop := ∀ x ∈ es, x.concerns k = false

/-- In these entries, the line is not asked to begin or end its transaction. -/
def Unasked (k : κ) (es : List (Entry κ ι)) : Prop := ∀ x ∈ es, ∀ q, x.asks q k = false

theorem Silent.unasked {k : κ} {es : List (Entry κ ι)} (h : Silent k es) : Unasked k es :=
  fun x hx _ => Bool.eq_false_iff.2 fun hasks =>
    Bool.eq_false_iff.1 (h x hx) (Entry.concerns_of_asks hasks)

variable (L : Ledger κ ι σ) (k : κ)

/-- Nothing happens on the line. -/
def Rests (s s' : σ) : Prop :=
  L.isOpen k s' = L.isOpen k s ∧ ∃ es, L.entries s' = L.entries s ++ es ∧ Silent k es

/-- If the line is in a transaction, it stays in this one. -/
def Stays (s s' : σ) : Prop :=
  L.isOpen k s = true →
    L.isOpen k s' = true ∧ ∃ es, L.entries s' = L.entries s ++ es ∧ Unasked k es

variable {L k}

theorem Rests.stays {s s' : σ} (h : L.Rests k s s') : L.Stays k s s' := by
  intro hopen
  obtain ⟨hsame, es, hes, hsilent⟩ := h
  exact ⟨hsame.trans hopen, es, hes, hsilent.unasked⟩

instance : Std.Refl (L.Rests k) := ⟨fun s => ⟨rfl, [], by simp, by simp [Silent]⟩⟩

instance : IsTrans σ (L.Rests k) where
  trans := by
    rintro s s₁ s' ⟨hopen, es, hes, hsilent⟩ ⟨hopen', es', hes', hsilent'⟩
    refine ⟨hopen'.trans hopen, es ++ es', ?_, List.forall_mem_append.2 ⟨hsilent, hsilent'⟩⟩
    rw [hes', hes, List.append_assoc]

instance : Std.Refl (L.Stays k) := ⟨fun s hopen => ⟨hopen, [], by simp, by simp [Unasked]⟩⟩

instance : IsTrans σ (L.Stays k) where
  trans := by
    intro s s₁ s' h h' hopen
    obtain ⟨hopen₁, es, hes, hunasked⟩ := h hopen
    obtain ⟨hopen', es', hes', hunasked'⟩ := h' hopen₁
    refine ⟨hopen', es ++ es', ?_, List.forall_mem_append.2 ⟨hunasked, hunasked'⟩⟩
    rw [hes', hes, List.append_assoc]

/-- A connection that leads to this line, where its statements are entered. -/
structure Carries (L : Ledger κ ι σ) (k : κ) (c : Connection σ) : Prop extends L.Serves k c where
  execute : ∀ sql params s,
    L.isOpen k ((c.execute sql params).perform s).2 = L.isOpen k s ∧
      L.entries ((c.execute sql params).perform s).2 = L.entries s ++ [.statement k]
  lastInsertId : ∀ s, L.Rests k s (c.lastInsertId.perform s).2

theorem Carries.execute_stays {c : Connection σ} (h : L.Carries k c) (sql : String)
    (params : List Param) : (c.execute sql params).Moves (L.Stays k) fun s => s := by
  intro s hopen
  obtain ⟨hsame, hentries⟩ := h.execute sql params s
  exact ⟨hsame.trans hopen, _, hentries, by simp [Unasked, Entry.asks]⟩

theorem Carries.lastInsertId_stays {c : Connection σ} (h : L.Carries k c) :
    c.lastInsertId.Moves (L.Stays k) fun s => s := fun s => (h.lastInsertId s).stays

end Ledger

/-! ### Chains -/

variable [DecidableEq κ] {L : Ledger κ ι σ} {k : κ} {view : τ → σ}

/-- A chain of new transactions on connections to a line stays inside its transaction, if the units
    and the check do. -/
theorem Chain.execute_stays {ts : List (Transaction τ)} {check : Act τ Unit}
    (hnew : ∀ t ∈ ts, ∀ g ∈ t.strands, g.isOwned = false)
    (hline : ∀ t ∈ ts, ∀ g ∈ t.strands, (L.comap view).Serves k g.connection)
    (hunits : ∀ t ∈ ts, ∀ u ∈ t.units, u.run.Moves (L.Stays k) view)
    (hcheck : check.Moves (L.Stays k) view) : (execute check ts).Moves (L.Stays k) view := by
  intro t hopen
  have hjoined : ∀ t' ∈ ts, ∀ g ∈ t'.strands, g.connection.inTransaction t = true :=
    fun t' ht' g hg => ((hline t' ht' g hg).inTransaction t).trans hopen
  -- No strand comes to own anything, so there is nothing to commit or to roll back.
  rw [execute_of_inTransaction check hnew hjoined]
  exact (runAll_moves hunits).bind (fun _ => hcheck) t hopen

namespace TransactionScheme

/-- Hooks may run chains of units on connections to a line, which join its transaction. -/
theorem standard_chainsMove (L : Ledger κ ι σ) (k : κ) (α : Type) :
    Program.ChainsMove (L.Stays k) (L.Serves k) α := by
  intro units check hunits hline hcheck t
  simp only [executeChecked, Act.perform_bind, Act.perform_ofExcept]
  rcases hts : standard.transactions units with e | ts
  · exact Std.Refl.refl _
  · have hfresh := standard_isFresh hts
    have hmoves : (Chain.execute check ts).Moves (L.Stays k) Program.inScope := by
      refine Chain.execute_stays ?_ ?_ ?_ hcheck
      · intro t' ht'
        obtain ⟨group, -, ht'⟩ := hfresh t' ht'
        exact ht'.isNew.isOwned
      · intro t' ht' g hg
        obtain ⟨group, hgroup, ht'⟩ := hfresh t' ht'
        obtain ⟨u, hu, hconn⟩ := ht'.isNew.connection g hg
        obtain ⟨c, hc, heq⟩ := hline u (hgroup u hu) _ hconn
        rw [heq]
        exact hc.zoom (Lens.fst.comp Saving.worldLens)
      · intro t' ht' u hu
        obtain ⟨group, hgroup, ht'⟩ := hfresh t' ht'
        exact hunits u (hgroup u (ht'.isNew.units.mem_iff.1 hu))
    exact hmoves t

/-- A single unit makes a chain of a single transaction. -/
theorem transactions_single (scheme : TransactionScheme τ) (u : WorkUnit τ) :
    scheme.transactions [u] = (scheme.assemble u.capability [u]).map ([·]) := by
  change [(u.capability, [u])].mapM (fun p => scheme.assemble p.1 p.2) = _
  rw [List.mapM_cons]
  rcases scheme.assemble u.capability [u] with e | t <;> rfl

end TransactionScheme

/-- Of one unit with a connection, a transaction on this connection is made. -/
def Assembly.Connects (assembly : Assembly τ) : Prop :=
  ∀ u c t, u.connection = some c → assembly [u] = .ok t →
    ∃ rounds, t = .connected [{ connection := c, units := List.replicate rounds u }]

/-- Of one unit with a connection, a transaction is made that is on this connection, or one that only
    runs the unit. -/
def Assembly.ConnectsOrRuns (assembly : Assembly τ) : Prop :=
  ∀ u c t, u.connection = some c → assembly [u] = .ok t →
    t = .plain [u] ∨
      ∃ rounds, t = .connected [{ connection := c, units := List.replicate rounds u }]

theorem Assembly.Connects.connectsOrRuns {assembly : Assembly τ} (h : assembly.Connects) :
    assembly.ConnectsOrRuns := fun u c t hu ht => .inr (h u c t hu ht)

/-- A single unit has a strand of its own. -/
theorem Strand.ofUnits_single {u : WorkUnit τ} {c : Connection τ} (hu : u.connection = some c) :
    ofUnits [u] = .ok [{ connection := c, units := [u] }] := by
  rw [ofUnits, List.foldlM_cons, hu]
  rfl

theorem Transaction.ofConnected_connects : Assembly.Connects (@ofConnected τ) := by
  intro u c t hu ht
  rw [ofConnected, Strand.ofUnits_single hu] at ht
  cases ht
  exact ⟨1, rfl⟩

theorem Transaction.ofPlain_connectsOrRuns : Assembly.ConnectsOrRuns (@ofPlain τ) := by
  intro u c t _ ht
  cases ht
  exact .inl rfl

/-- A single unit on a connection to a line stays inside its transaction. -/
theorem TransactionScheme.execute_single_stays {scheme : TransactionScheme τ} {u : WorkUnit τ}
    {c : Connection τ} (hscheme : (scheme.assemble u.capability).ConnectsOrRuns)
    (hu : u.connection = some c) (hline : (L.comap view).Serves k c)
    (hrun : u.run.Moves (L.Stays k) view) : (scheme.execute [u]).Moves (L.Stays k) view := by
  intro t
  simp only [execute, executeChecked, Act.perform_bind, Act.perform_ofExcept,
    transactions_single]
  rcases hmade : scheme.assemble u.capability [u] with e | made
  · exact Std.Refl.refl _
  · refine Chain.execute_stays ?_ ?_ ?_ (Act.moves_pure ()) t <;>
      rcases hscheme u c made hu hmade with rfl | ⟨rounds, rfl⟩ <;>
      simp [Transaction.strands, Transaction.units, hline, hrun]

/-! ### Saves -/

namespace SaveEngine

variable [Model μ] {e : SaveEngine μ σ} {saver : Saver μ σ}

/-- All routes write to one line, where the code of the models leaves its transaction alone. -/
structure IsOn (e : SaveEngine μ σ) (L : Ledger κ ι σ) (k : κ) : Prop where
  store : ∀ route, ∃ t : TableStore σ,
    (e.routes route).writer = t.modelWriter ∧ L.Carries k t.connection
  scheme : ∀ route, ((e.routes route).scheme.assemble .connected).ConnectsOrRuns
  /-- Before validation, the code has nothing to do with the line. -/
  beforeValidate : e.behaviour.beforeValidate.Along (L.Rests k) (fun _ => False) False
  beforeSave : e.behaviour.beforeSave.Along (L.Stays k) (L.Serves k) True
  afterSave : e.behaviour.afterSave.Along (L.Stays k) (L.Serves k) True
  before : ∀ m, ∀ hook ∈ e.behaviour.hooks m, hook.before.Along (L.Stays k) (L.Serves k) True
  after : ∀ m, ∀ hook ∈ e.behaviour.hooks m, hook.after.Along (L.Stays k) (L.Serves k) True

/-- The unit of work that a batch is. -/
def batchUnit (e : SaveEngine μ σ) (saver : Saver μ σ) (route bound : Nat) :
    WorkUnit (BatchWorld μ σ) :=
  .connectedTask ((e.routes route).writer.connection.zoom (Lens.fst.comp Saving.worldLens))
    (e.runPhases saver route bound)

namespace IsOn

variable (h : e.IsOn L k)

include h

theorem carries (route : Nat) : L.Carries k (e.routes route).writer.connection := by
  obtain ⟨t, ht, hcarries⟩ := h.store route
  rw [ht]
  exact hcarries

theorem beforeValidate_stays : (e.behaviour.beforeValidate.run saver firstRoute).Moves
    (L.Stays k) Program.inScope :=
  (h.beforeValidate.moves False.elim False.elim firstRoute).mono fun _ _ => Ledger.Rests.stays

theorem write_stays (route : Nat) :
    (e.routes route).writer.write.Moves (L.Stays k) fun p => p.1 := by
  obtain ⟨t, ht, hcarries⟩ := h.store route
  rw [ht]
  exact TableStore.write_moves hcarries.execute_stays hcarries.lastInsertId_stays

variable (hsaver : ∀ route, (saver route).Moves (L.Stays k) inSave)

include hsaver

theorem isSteady : e.IsSteady saver (L.Stays k) := by
  have hruns : ∀ {p : Program μ μ σ} (own : Nat), p.Along (L.Stays k) (L.Serves k) True →
      (p.run saver own).Moves (L.Stays k) Program.inScope := fun own hp =>
    hp.moves (fun _ => hsaver) (fun _ => TransactionScheme.standard_chainsMove L k μ) own
  exact {
    write := h.write_stays
    beforeValidate := h.beforeValidate_stays
    beforeSave := hruns _ h.beforeSave
    afterSave := fun route => hruns route h.afterSave
    before := fun m hook hhook => hruns _ (h.before m hook hhook)
    after := fun m hook hhook route => hruns route (h.after m hook hhook) }

theorem commitBatch_stays (route bound : Nat) :
    (e.commitBatch saver route bound).Moves (L.Stays k) inSave := by
  have hbatch : ((e.routes route).scheme.execute [e.batchUnit saver route bound]).Moves
      (L.Stays k) inSave :=
    TransactionScheme.execute_single_stays (h.scheme route) rfl
      ((h.carries route).toServes.zoom (Lens.fst.comp Saving.worldLens))
      ((h.isSteady hsaver).runPhases route bound)
  exact fun t => hbatch (t.1, _)

theorem saveWith_stays (bound route : Nat) :
    (e.saveWith saver bound route).Moves (L.Stays k) inSave := by
  have hpending := ((h.isSteady hsaver).writePending route).forEach
  have hfully : (e.saveFully saver route bound).Moves (L.Stays k) inSave := by
    refine Act.Moves.bind ?_ fun _ => Act.Moves.bind ?_ fun _ => ?_
    · exact (phaseMove_moves route .validate).zoom fun _ => rfl
    · exact (validateModel_moves h.beforeValidate_stays).forEach
    · exact h.commitBatch_stays hsaver route bound
  rintro ⟨s, models⟩
  simp only [saveWith, Act.perform_make]
  split
  · exact hpending (s, models)
  · split
    · exact Std.Refl.refl (r := L.Stays k) s.world
    · exact hfully (s.setPhase route .idle, models)

omit hsaver in
/-- Inside a transaction of its line, a save stays there, with all saves nested in it. -/
theorem save_stays (bound route : Nat) : (e.save bound route).Moves (L.Stays k) inSave := by
  -- By induction on the depth; a nested save may take any route.
  induction bound generalizing route with
  | zero => exact Act.moves_fail boundReached
  | succ bound ih => exact h.saveWith_stays ih bound route

end IsOn

end SaveEngine

end RecordStore
