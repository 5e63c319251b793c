import RecordStore.Proofs.Save.Stage
import RecordStore.Proofs.Transaction.Pairing

/-!
# The transaction of a save

What a save does on a line that is in no transaction is *enclosed* in one (`Ledger.Encloses`): a
transaction is begun at most once, every statement is sent after that and before the end, and there
is one end, a commit if the save succeeds and a rollback if it fails. That holds with all saves that
are nested in it, since these stay inside (`SaveEngine.IsOn.save_stays`).

The save itself is what runs in the transaction of its batch. What it enters has a *bracket*
(`Ledger.Bracket`): the begin of the transaction and, last of all, its end. What comes before has
nothing to do with the line, and what is in between does not turn it.

That a save has a transaction of its own depends on two things: its route must not be in the
after-save phase, where only pending edits are written, and its scheme must make a transaction on
the connection (`Assembly.Connects`), as the standard scheme does.
-/

namespace RecordStore

variable {κ ι μ σ τ : Type} [DecidableEq κ]

namespace Ledger

variable {k : κ} {r : Except StoreError Unit} {es fs : List (Entry κ ι)}

/-! ### Brackets -/

/-- The transaction of the line neither begins nor ends. -/
def Unturned (k : κ) (es : List (Entry κ ι)) : Prop :=
  ∀ x ∈ es, x.grants .begin k = false ∧ x.ends k = false

/-- Nothing happens on the line that needs a transaction or is one. -/
structure Outside (k : κ) (es : List (Entry κ ι)) : Prop where
  unturned : Unturned k es
  unwritten : .statement k ∉ es

theorem Unasked.unturned (h : Unasked k es) : Unturned k es := by
  intro x hx
  have hgrants : ∀ q, x.grants q k = false := fun q => Entry.grants_eq_false (h x hx q)
  exact ⟨hgrants _, by rw [Entry.ends, hgrants, h x hx, Bool.or_false]⟩

theorem outside_nil : Outside k ([] : List (Entry κ ι)) := ⟨by simp [Unturned], by simp⟩

theorem Silent.outside (h : Silent k es) : Outside k es where
  unturned := h.unasked.unturned
  unwritten hmem := by simpa [Entry.concerns] using h _ hmem

theorem Outside.append (h : Outside k es) (h' : Outside k fs) : Outside k (es ++ fs) where
  unturned := List.forall_mem_append.2 ⟨h.unturned, h'.unturned⟩
  unwritten hmem := (List.mem_append.1 hmem).elim h.unwritten h'.unwritten

/-- What is entered of a line by work that ends with this result and has a transaction of its own. -/
inductive Bracket (k : κ) : Except StoreError Unit → List (Entry κ ι) → Prop
  /-- It did not come to a transaction. -/
  | outside {e : StoreError} {es : List (Entry κ ι)} (h : Outside k es) : Bracket k (.error e) es
  | committed {es mid : List (Entry κ ι)} (h : Outside k es) (hmid : Unturned k mid) :
    Bracket k (.ok ()) (es ++ (.begun k :: (mid ++ [.committed k])))
  | undone {e : StoreError} {r : Except StoreError Unit} {es mid : List (Entry κ ι)}
    (h : Outside k es) (hmid : Unturned k mid) :
    Bracket k (.error e) (es ++ (.begun k :: (mid ++ [.control k .rollback r])))

theorem Bracket.prepend (hb : Bracket k r es) (h : Outside k fs) : Bracket k r (fs ++ es) := by
  cases hb with
  | outside h' => exact .outside (h.append h')
  | committed h' hmid =>
    rw [← List.append_assoc]
    exact .committed (h.append h') hmid
  | undone h' hmid =>
    rw [← List.append_assoc]
    exact .undone (h.append h') hmid

/-! ### Enclosure -/

/-- What happens on a line is enclosed in one transaction, which ends as the result says. -/
structure Encloses (k : κ) (r : Except StoreError Unit) (es : List (Entry κ ι)) : Prop where
  begun : es.countP (·.grants .begin k) ≤ 1
  /-- Every statement comes after the begin and before the end. -/
  statements : ∀ before after, es = before ++ .statement k :: after →
    before.countP (·.grants .begin k) = 1 ∧ before.countP (·.ends k) = 0 ∧
      after.countP (·.ends k) = 1
  /-- The end comes after the begin. -/
  order : ∀ before x after, es = before ++ x :: after → x.ends k = true →
    before.countP (·.grants .begin k) = 1
  committed : r = .ok () → es.countP (·.grants .commit k) = es.countP (·.grants .begin k) ∧
    es.countP (·.asks .rollback k) = 0
  undone : ∀ e, r = .error e → es.countP (·.asks .rollback k) = es.countP (·.grants .begin k) ∧
    es.countP (·.grants .commit k) = 0

section Counts

variable (h : Unturned k es)

include h

theorem Unturned.countP_begun : es.countP (·.grants .begin k) = 0 :=
  List.countP_eq_zero.2 fun x hx => Bool.eq_false_iff.1 (h x hx).1

theorem Unturned.countP_ends : es.countP (·.ends k) = 0 :=
  List.countP_eq_zero.2 fun x hx => Bool.eq_false_iff.1 (h x hx).2

theorem Unturned.countP_committed : es.countP (·.grants .commit k) = 0 :=
  List.countP_eq_zero.2 fun x hx => Bool.eq_false_iff.1 (Bool.or_eq_false_iff.1 (h x hx).2).1

theorem Unturned.countP_rollback : es.countP (·.asks .rollback k) = 0 :=
  List.countP_eq_zero.2 fun x hx => Bool.eq_false_iff.1 (Bool.or_eq_false_iff.1 (h x hx).2).2

end Counts

theorem Outside.encloses (h : Outside k es) (r : Except StoreError Unit) :
    Encloses k r es where
  begun := by simp [h.unturned.countP_begun]
  statements before after heq := absurd (by simp [heq]) h.unwritten
  order before x after heq hx := by
    rw [(h.unturned x (by simp [heq])).2] at hx
    cases hx
  committed _ := by simp [h.unturned.countP_begun, h.unturned.countP_committed,
    h.unturned.countP_rollback]
  undone _ _ := by simp [h.unturned.countP_begun, h.unturned.countP_committed,
    h.unturned.countP_rollback]

section Between

variable {mid before after : List (Entry κ ι)} {last : Entry κ ι} (h : Outside k es)
  (hmid : Unturned k mid) (hbegin : last.grants .begin k = false)

include h hmid hbegin

theorem countP_begun_bracket :
    (es ++ (.begun k :: (mid ++ [last]))).countP (·.grants .begin k) = 1 := by
  simp [h.unturned.countP_begun, hmid.countP_begun, hbegin]

/-- What stands between the begin and the end comes after the one and before the other. -/
theorem statements_bracket (hlast : last.ends k = true)
    (heq : es ++ (.begun k :: (mid ++ [last])) = before ++ .statement k :: after) :
    before.countP (·.grants .begin k) = 1 ∧ before.countP (·.ends k) = 0 ∧
      after.countP (·.ends k) = 1 := by
  obtain ⟨front, rfl, hfront⟩ := exists_append_of_notMem heq h.unwritten
  have hother : Entry.statement k ∉ [last] := by
    rw [List.mem_singleton]
    rintro rfl
    cases hlast
  obtain ⟨inner, rfl, hinner⟩ :=
    exists_append_of_notMem (l := [Entry.begun k]) hfront (by simp)
  obtain ⟨rest, rfl, rfl⟩ := exists_append_of_notMem_right hinner hother
  have hinner : Unturned k inner := fun x hx => hmid x (List.mem_append_left _ hx)
  have hrest : Unturned k rest := fun x hx =>
    hmid x (List.mem_append_right _ (List.mem_cons_of_mem _ hx))
  simp [h.unturned.countP_begun, h.unturned.countP_ends, hinner.countP_begun, hinner.countP_ends,
    hrest.countP_ends, hlast]

/-- Nothing ends before the begin. -/
theorem order_bracket {x : Entry κ ι} (hx : x.ends k = true)
    (heq : es ++ (.begun k :: (mid ++ [last])) = before ++ x :: after) :
    before.countP (·.grants .begin k) = 1 := by
  have hall := countP_begun_bracket h hmid hbegin
  have hes : x ∉ es := fun hmem => by
    rw [(h.unturned x hmem).2] at hx
    cases hx
  have hbegun : x ∉ [Entry.begun k] := by
    rw [List.mem_singleton]
    rintro rfl
    simp at hx
  obtain ⟨front, hfront, heq'⟩ := exists_append_of_notMem heq hes
  -- The begin stands before it, and there is no second one.
  obtain ⟨inner, rfl, -⟩ := exists_append_of_notMem (l := [Entry.begun k]) heq' hbegun
  rw [heq, List.countP_append] at hall
  have hone : 1 ≤ before.countP (·.grants .begin k) :=
    List.countP_pos_iff.2 ⟨.begun k, by simp [hfront], by simp⟩
  omega

end Between

/-- A bracket is a transaction that encloses what stands between its ends. -/
theorem Bracket.encloses (hb : Bracket k r es) : Encloses k r es := by
  cases hb with
  | outside h => exact h.encloses _
  | @committed es mid h hmid =>
    have hbegin : (Entry.committed k : Entry κ ι).grants .begin k = false := by simp
    have hall := countP_begun_bracket h hmid hbegin
    exact {
      begun := Nat.le_of_eq hall
      statements := fun before after => statements_bracket h hmid hbegin (by simp)
      order := fun before x after heq hx => order_bracket h hmid hbegin hx heq
      committed := fun _ => by
        rw [hall]
        simp [h.unturned.countP_committed, h.unturned.countP_rollback, hmid.countP_committed,
          hmid.countP_rollback]
      undone := fun _ hr => by cases hr }
  | @undone e r es mid h hmid =>
    have hbegin : (Entry.control k .rollback r : Entry κ ι).grants .begin k = false := by simp
    have hall := countP_begun_bracket h hmid hbegin
    exact {
      begun := Nat.le_of_eq hall
      statements := fun before after => statements_bracket h hmid hbegin (by simp)
      order := fun before x after heq hx => order_bracket h hmid hbegin hx heq
      committed := fun hr => by cases hr
      undone := fun _ _ => by
        rw [hall]
        simp [h.unturned.countP_committed, h.unturned.countP_rollback, hmid.countP_committed,
          hmid.countP_rollback] }

theorem Bracket.countP_begun (hb : Bracket k (.ok ()) es) : es.countP (·.grants .begin k) = 1 := by
  cases hb with
  | committed h hmid => exact countP_begun_bracket h hmid (by simp)

end Ledger

variable {L : Ledger κ ι σ} {k : κ} {view : τ → σ}

/-! ### Work with a transaction of its own -/

/-- Where the line is in no transaction, what the action enters has a bracket. -/
def Act.Brackets (L : Ledger κ ι σ) (k : κ) (view : τ → σ) (f : Act τ Unit) : Prop :=
  ∀ t, L.isOpen k (view t) = false →
    ∃ es, L.entries (view (f.perform t).2) = L.entries (view t) ++ es ∧
      Ledger.Bracket k (f.perform t).1 es

theorem Act.brackets_fail (e : StoreError) : (Act.fail e).Brackets L k view := fun _ _ =>
  ⟨[], by simp, .outside Ledger.outside_nil⟩

/-- Work may be preceded by something that has nothing to do with the line. -/
theorem Act.Brackets.after_rest {f g : Act τ Unit} (hg : g.Brackets L k view)
    (hf : f.Moves (L.Rests k) view) : (do f; g : Act τ Unit).Brackets L k view := by
  intro t hclosed
  obtain ⟨hsame, es, hes, hsilent⟩ := hf t
  rw [perform_bind]
  rcases h : f.perform t with ⟨e | _, t'⟩ <;> rw [h] at hsame hes
  · exact ⟨es, hes, .outside hsilent.outside⟩
  · obtain ⟨fs, hfs, hb⟩ := hg t' (hsame.trans hclosed)
    exact ⟨es ++ fs, by rw [hfs, hes, List.append_assoc], hb.prepend hsilent.outside⟩

/-- A chain of one transaction on one connection begins it, stays inside, and ends it. -/
theorem Chain.execute_single_brackets {c : Connection τ} {units : List (WorkUnit τ)}
    {check : Act τ Unit} (hline : (L.comap view).Serves k c)
    (hrun : ∀ u ∈ units, u.run.Moves (L.Stays k) view) (hcheck : check.Moves (L.Stays k) view) :
    (execute check [.connected [{ connection := c, units := units }]]).Brackets L k view := by
  intro t hclosed
  rw [execute_single check units ((hline.inTransaction t).trans hclosed)]
  have hbody : (do WorkUnit.runAll units; check : Act τ Unit).Moves (L.Stays k) view :=
    (WorkUnit.runAll_moves hrun).bind fun _ => hcheck
  have hbegin : L.entries (view (c.begin.perform t).2) =
      L.entries (view t) ++ [.control k .begin (c.begin.perform t).1] := hline.begin.entries t
  have hgranted : _ → L.isOpen k (view (c.begin.perform t).2) = true := hline.begin.granted t
  have hcommit : ∀ t, L.entries (view (c.commit.perform t).2) =
      L.entries (view t) ++ [.control k .commit (c.commit.perform t).1] := hline.commit.entries
  have hrollback : ∀ t, L.entries (view (c.rollback.perform t).2) =
      L.entries (view t) ++ [.control k .rollback (c.rollback.perform t).1] :=
    hline.rollback.entries
  rcases h : c.begin.perform t with ⟨e | _, t₁⟩ <;> simp only [h] at hbegin hgranted
  · refine ⟨_, hbegin, .outside ⟨?_, by simp⟩⟩
    simp [Ledger.Unturned]
  · obtain ⟨-, mid, hmid, hunasked⟩ := hbody t₁ (hgranted trivial)
    rcases h : (do WorkUnit.runAll units; check : Act τ Unit).perform t₁ with ⟨e | _, t₂⟩ <;> simp only [h] at hmid ⊢
    · refine ⟨.begun k :: (mid ++ [.control k .rollback (c.rollback.perform t₂).1]), ?_,
        .undone Ledger.outside_nil hunasked.unturned⟩
      simp [hrollback, hmid, hbegin]
    · have hended := hcommit t₂
      rcases h : c.commit.perform t₂ with ⟨e | _, t₃⟩ <;> simp only [h] at hended ⊢
      -- A commit that fails is followed by a rollback.
      · refine ⟨.begun k :: ((mid ++ [.control k .commit (.error e)]) ++
          [.control k .rollback (c.rollback.perform t₃).1]), ?_, .undone Ledger.outside_nil ?_⟩
        · simp [hrollback, hended, hmid, hbegin]
        · exact List.forall_mem_append.2 ⟨hunasked.unturned, by simp⟩
      · refine ⟨.begun k :: (mid ++ [Ledger.Entry.committed k]), ?_,
          .committed Ledger.outside_nil hunasked.unturned⟩
        simp [hended, hmid, hbegin]

/-- A single unit is such a chain, if its scheme makes a transaction on its connection. -/
theorem TransactionScheme.execute_single_brackets {scheme : TransactionScheme τ} {u : WorkUnit τ}
    {c : Connection τ} (hscheme : (scheme.assemble u.capability).Connects)
    (hu : u.connection = some c) (hline : (L.comap view).Serves k c)
    (hrun : u.run.Moves (L.Stays k) view) : (scheme.execute [u]).Brackets L k view := by
  intro t hclosed
  simp only [execute, executeChecked, Act.perform_bind, Act.perform_ofExcept,
    transactions_single]
  rcases hmade : scheme.assemble u.capability [u] with e | made
  · exact Act.brackets_fail e t hclosed
  · obtain ⟨rounds, rfl⟩ := hscheme u c made hu hmade
    have hunits : ∀ u' ∈ List.replicate rounds u, u'.run.Moves (L.Stays k) view := fun u' hu' =>
      List.eq_of_mem_replicate hu' ▸ hrun
    exact Chain.execute_single_brackets hline hunits (Act.moves_pure ()) t hclosed

/-! ### Saves -/

namespace SaveEngine.IsOn

variable [Model μ] {e : SaveEngine μ σ} {saver : Saver μ σ} (h : e.IsOn L k)
  (hsaver : ∀ route, (saver route).Moves (L.Stays k) inSave) {route : Nat}
  (hscheme : ((e.routes route).scheme.assemble .connected).Connects)

include h hsaver hscheme

/-- A batch runs in a transaction of its own. -/
theorem commitBatch_brackets (bound : Nat) :
    (e.commitBatch saver route bound).Brackets L k inSave := by
  have hbatch : ((e.routes route).scheme.execute [e.batchUnit saver route bound]).Brackets
      L k inSave :=
    TransactionScheme.execute_single_brackets hscheme rfl
      ((h.carries route).toServes.zoom (Lens.fst.comp Saving.worldLens))
      ((h.isSteady hsaver).runPhases route bound)
  exact fun t => hbatch (t.1, _)

theorem saveFully_brackets (bound : Nat) :
    (e.saveFully saver route bound).Brackets L k inSave := by
  have hvalidate : (e.validateModel saver).Moves (L.Rests k) inSave :=
    validateModel_moves (h.beforeValidate.moves False.elim False.elim firstRoute)
  refine Act.Brackets.after_rest (Act.Brackets.after_rest ?_ ?_) ?_
  · exact h.commitBatch_brackets hsaver hscheme bound
  · exact hvalidate.forEach
  · exact (phaseMove_moves route .validate).zoom fun _ => rfl

omit hsaver in
theorem save_bracket (bound : Nat) {models : List μ} {s : Saving σ} (hmodels : models ≠ [])
    (hclosed : L.isOpen k s.world = false) (hphase : s.phases route ≠ .afterSave) :
    ∃ es, L.entries ((e.save bound route).perform (s, models)).2.1.world = L.entries s.world ++ es ∧
      Ledger.Bracket k ((e.save bound route).perform (s, models)).1 es := by
  cases bound with
  | zero =>
    have hfail : (Act.fail boundReached).Brackets L k (inSave : Saving σ × List μ → σ) :=
      Act.brackets_fail boundReached
    exact hfail (s, models) hclosed
  | succ bound =>
    have hfully := h.saveFully_brackets (h.save_stays bound) hscheme bound
      (s.setPhase route .idle, models) hclosed
    simp only [save, saveWith, Act.perform_make, hphase, hmodels, List.isEmpty_iff, if_false]
    exact hfully

omit hsaver hscheme in
/-- A save on a line that is in a transaction makes no request to it. Otherwise, unless it only
    writes pending edits, or its scheme makes no transaction on the connection, all that happens on
    the line is enclosed in one transaction, which is committed if the save succeeds and
    rolled back if it fails. -/
theorem save_encloses (bound route : Nat) (models : List μ) (s : Saving σ) :
    (L.isOpen k s.world = true →
      ∃ es, L.entries ((e.save bound route).perform (s, models)).2.1.world =
          L.entries s.world ++ es ∧
        ∀ x ∈ es, ∀ q, x.asks q k = false) ∧
    (L.isOpen k s.world = false → s.phases route ≠ .afterSave →
      ((e.routes route).scheme.assemble .connected).Connects →
      ∃ es, L.entries ((e.save bound route).perform (s, models)).2.1.world =
          L.entries s.world ++ es ∧
        Ledger.Encloses k ((e.save bound route).perform (s, models)).1 es ∧
        (models ≠ [] → ((e.save bound route).perform (s, models)).1 = .ok () →
          es.countP (·.grants .begin k) = 1)) := by
  refine ⟨fun hopen => (h.save_stays bound route (s, models) hopen).2, ?_⟩
  intro hclosed hphase hscheme
  by_cases hmodels : models = []
  · subst hmodels
    refine ⟨[], ?_, Ledger.outside_nil.encloses _, by simp⟩
    cases bound <;> simp [save, saveWith, hphase]
  · obtain ⟨es, hes, hb⟩ := h.save_bracket hscheme bound hmodels hclosed hphase
    exact ⟨es, hes, hb.encloses, fun _ hok => (hok ▸ hb).countP_begun⟩

end SaveEngine.IsOn

namespace Rehearsal.Stage

/-- An order is saved with its part in one transaction, although the part is saved along a route
    without transactions. -/
theorem order_encloses :
    itemEngine.IsOn ledger 0 ∧
      ∃ es, ledger.entries ((itemEngine.save 2 0).perform (emptyStage, [item "order"])).2.1.world =
          es ∧ Ledger.Encloses 0 (.ok ()) es ∧ es.countP (·.grants .begin 0) = 1 ∧
        es.countP (·.concerns 0) = 4 := by
  have hresult : ((itemEngine.save 2 0).perform (emptyStage, [item "order"])).1 = .ok () := by
    decide +kernel
  have hcount : (ledger.entries ((itemEngine.save 2 0).perform
      (emptyStage, [item "order"])).2.1.world).countP (·.concerns 0) = 4 := by
    decide +kernel
  obtain ⟨es, hes, hencloses, hbegun⟩ :=
    (itemEngine_isOn.save_encloses 2 0 [item "order"] emptyStage).2 rfl nofun
      Transaction.ofConnected_connects
  rw [hes] at hcount ⊢
  rw [hresult] at hencloses hbegun
  exact ⟨itemEngine_isOn, es, rfl, hencloses, hbegun nofun rfl, hcount⟩

/-- Along a route without transactions, an item is saved by a statement before which nothing is
    begun. -/
theorem item_unenclosed :
    itemEngine.IsOn ledger 0 ∧ ledger.isOpen 0 emptyStage.world = false ∧
      emptyStage.phases 1 ≠ .afterSave ∧
      ((itemEngine.save 2 1).perform (emptyStage, [item "part"])).1 = .ok () ∧
      ∃ before after, ledger.entries ((itemEngine.save 2 1).perform
          (emptyStage, [item "part"])).2.1.world =
          ledger.entries emptyStage.world ++ (before ++ .statement 0 :: after) ∧
        before.countP (·.grants .begin 0) = 0 := by
  refine ⟨itemEngine_isOn, rfl, nofun, by decide +kernel, ?_⟩
  have hwritten : (ledger.entries ((itemEngine.save 2 1).perform
      (emptyStage, [item "part"])).2.1.world).any
        (fun x => x.concerns 0 && !x.isControl) = true := by
    decide +kernel
  have hbegun : (ledger.entries ((itemEngine.save 2 1).perform
      (emptyStage, [item "part"])).2.1.world).countP (·.grants .begin 0) = 0 := by
    decide +kernel
  obtain ⟨x, hmem, hx⟩ := List.any_eq_true.1 hwritten
  obtain ⟨before, after, heq⟩ := List.append_of_mem hmem
  rw [heq, List.countP_append, Nat.add_eq_zero_iff] at hbegun
  cases x with
  | statement j =>
    obtain ⟨rfl, -⟩ : j = 0 ∧ _ := by simpa [Ledger.Entry.concerns] using hx
    exact ⟨before, after, heq, hbegun.1⟩
  | control | step => simp [Ledger.Entry.concerns, Ledger.Entry.isControl] at hx

end Rehearsal.Stage

end RecordStore
