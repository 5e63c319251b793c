import RecordStore.Proofs.Transaction.Arrangement
import RecordStore.Proofs.Transaction.Moves
import RecordStore.Proofs.Transaction.PartialCommit

/-!
# What a chain does in order

The history of a chain of new transactions says in which order lines are begun, units run and lines
committed. Nothing is assumed here of connections and units: a connection may fail as it likes, tell
what it likes of its transaction, and open or close others, and so may a unit. What remains is the
*chronicle* of the chain (`Chain.Chronicle`, `Chain.history_chronicle`):

* the strands are begun in their order, each unless its connection is then in a transaction
  (`Connection.unopened`), up to the first that fails;
* the units run in their order, up to the first that fails;
* what was begun is committed in the same order, and rolled back if anything has failed.

With the order in which a scheme arranges units, this says what becomes of units under the standard
scheme (`TransactionScheme.standard_runs_in_order`).
-/

namespace RecordStore

variable {σ τ α : Type}

/-! ### Beginning -/

/-- The connections that are begun, if nothing fails, when one after the other is begun unless it is
    in a transaction. -/
def Connection.unopened : List (Connection σ) → σ → List ConnectionId
  | [], _ => []
  | c :: rest, s =>
    if c.inTransaction s then unopened rest s else c.id :: unopened rest (c.begin.perform s).2

/-- If no connection opens or closes the transaction of a later one, those are begun that are in no
    transaction at the beginning. -/
theorem Connection.unopened_eq_filter {cs : List (Connection σ)}
    (h : cs.Pairwise fun c c' =>
      ∀ s, c'.inTransaction (c.begin.perform s).2 = c'.inTransaction s) (s : σ) :
    unopened cs s = (cs.filter (!·.inTransaction s)).map (·.id) := by
  induction cs generalizing s with
  | nil => rfl
  | cons c rest ih =>
    obtain ⟨hc, hrest⟩ := List.pairwise_cons.1 h
    rw [unopened]
    split
    · next hopen => rw [ih hrest, List.filter_cons_of_neg (by simp [hopen])]
    · next hclosed =>
      rw [ih hrest, List.filter_cons_of_pos (by simpa using hclosed), List.map_cons]
      congr 2
      exact List.filter_congr fun c' hc' => by rw [hc c' hc' s]

theorem Act.each_append (f : Act (τ × α) Unit) (as bs : List α) (t : τ) :
    each f (as ++ bs) t =
      match each f as t with
      | (.error e, t', as') => (.error e, t', as' ++ bs)
      | (.ok _, t', as') => ((each f bs t').1, (each f bs t').2.1, as' ++ (each f bs t').2.2) := by
  induction as generalizing t with
  | nil => rfl
  | cons a rest ih =>
    rw [List.cons_append, each, each]
    rcases f.perform (t, a) with ⟨_ | _, t', a'⟩
    · rfl
    · simp only [ih]
      rcases each f rest t' with ⟨_ | _, t'', rest'⟩ <;> rfl

/-- Transactions are begun strand by strand. -/
theorem Chain.each_begin_flatMap (ts : List (Transaction τ)) (t : τ) :
    Act.each Strand.begin (ts.flatMap (·.strands)) t =
      ((Act.each Transaction.begin ts t).1, (Act.each Transaction.begin ts t).2.1,
        (Act.each Transaction.begin ts t).2.2.flatMap (·.strands)) := by
  induction ts generalizing t with
  | nil => rfl
  | cons tr rest ih =>
    rw [List.flatMap_cons, Act.each_append, Act.each]
    cases tr with
    | plain units => exact ih t
    | connected gs =>
      have hbegin : Transaction.begin.perform (t, .connected gs) =
          ((Act.each Strand.begin gs t).1, (Act.each Strand.begin gs t).2.1,
            .connected (Act.each Strand.begin gs t).2.2) := rfl
      have hstrands : (Transaction.connected gs).strands = gs := rfl
      rw [hbegin, hstrands]
      rcases Act.each Strand.begin gs t with ⟨_ | _, t', gs'⟩
      · rfl
      · simp only [ih]
        rfl

/-- Beginning a transaction changes neither what it runs nor its kind. -/
theorem Transaction.body_begin (t : τ) (tr : Transaction τ) :
    ((begin.perform (t, tr)).2.2.run, (begin.perform (t, tr)).2.2.isConnected) =
      (tr.run, tr.isConnected) := by
  rw [run_begin]
  cases tr <;> rfl

/-! ### Failures -/

/-- A list that ends in nothing is split at one of the others. -/
theorem eq_append_of_map_some {as : List α} {a : α} {done rest : List (Option α)}
    (h : as.map some ++ [none] = done ++ some a :: rest) :
    ∃ before after, as = before ++ a :: after ∧ done = before.map some := by
  induction as generalizing done with
  | nil => cases done <;> simp at h
  | cons b as ih =>
    cases done with
    | nil =>
      simp only [List.map_cons, List.cons_append, List.nil_append, List.cons.injEq,
        Option.some.injEq] at h
      exact ⟨[], as, by rw [h.1, List.nil_append], rfl⟩
    | cons d done =>
      simp only [List.map_cons, List.cons_append, List.cons.injEq] at h
      obtain ⟨before, after, hsplit, hdone⟩ := ih h.2
      exact ⟨b :: before, after, by rw [hsplit, List.cons_append],
        by rw [← h.1, hdone, List.map_cons]⟩

/-- A longer list of results for the first of these, all but the last of which are well. -/
theorem eq_append_of_initial {ε : Type} {results : List (α × Except ε Unit)} {done rest : List α}
    {a : α} (hinitial : results.map (·.1) <+: done ++ a :: rest)
    (hok : ∀ x ∈ results.dropLast, x.2 = .ok ()) (hlength : done.length < results.length) :
    ∃ r others, results = done.map (·, .ok ()) ++ (a, r) :: others := by
  induction done generalizing results with
  | nil =>
    obtain ⟨x, others, rfl⟩ := List.exists_cons_of_length_pos hlength
    rw [List.map_cons, List.nil_append, List.cons_prefix_cons] at hinitial
    exact ⟨x.2, others, by rw [← hinitial.1]; rfl⟩
  | cons b done ih =>
    obtain ⟨x, results, rfl⟩ := List.exists_cons_of_length_pos (Nat.zero_lt_of_lt hlength)
    rw [List.map_cons, List.cons_append, List.cons_prefix_cons] at hinitial
    have hpos : results ≠ [] := by
      rintro rfl
      simp at hlength
    rw [List.dropLast_cons_of_ne_nil hpos] at hok
    obtain ⟨hx, hok⟩ := List.forall_mem_cons.1 hok
    obtain ⟨r, others, rfl⟩ := ih hinitial.2 hok (Nat.lt_of_succ_lt_succ hlength)
    exact ⟨r, others, by rw [List.map_cons, List.cons_append, ← hinitial.1, ← hx]⟩

namespace Ledger

variable {κ ι : Type} {ts : List (Transaction σ)} {steps : List ι} {lines : List κ}
  {r : Except StoreError Unit} {begun es before after : List (Entry κ ι)}

/-- Between what came off and what is rolled back there is one failure. -/
theorem failure_unique {a b : Entry κ ι} (h : begun ++ a :: es = before ++ b :: after)
    (hbegun : ∀ x ∈ begun, x.failure? = none) (hes : ∀ x ∈ es, x.isRollback = true)
    (hfailure : b.failure? ≠ none) (hrollback : b.isRollback = false) :
    begun = before ∧ a = b ∧ es = after := by
  refine (List.append_cons_inj_of_notMem (fun hb => hfailure (hbegun b hb)) fun hb => ?_).1 h
  exact Bool.false_ne_true (hrollback.symm.trans (hes b hb))

/-- What has failed when the lines have been begun: a step, after those before it have succeeded, or
    a commit. -/
theorem Sequel.failure_cases (h : Sequel ts steps lines r es)
    (hbegun : ∀ x ∈ begun, x.failure? = none) {b : Entry κ ι}
    (hsplit : begun ++ es = before ++ b :: after) (hfailure : b.failure? ≠ none)
    (hrollback : b.isRollback = false) :
    (∀ x ∈ after, x.isRollback = true) ∧
      ((∃ done i rest e ran, b = .step i (.error e) ∧ steps = done ++ i :: rest ∧ Went done ran ∧
        before = begun ++ ran) ∨
      ∃ k e, b = .control k .commit (.error e)) := by
  cases h with
  | @stepFailed done rest i e ran undo hsteps hwent hundo =>
    rw [← List.append_assoc] at hsplit
    obtain ⟨hbefore, hb, hafter⟩ := failure_unique hsplit
      (List.forall_mem_append.2 ⟨hbegun, hwent.unfailing⟩) hundo.isRollback hfailure hrollback
    exact ⟨hafter ▸ hundo.isRollback, .inl ⟨done, i, rest, e, ran, hb.symm, hsteps, hwent,
      hbefore.symm⟩⟩
  | @commitFailed done rest k e report ran undo hlines hwent hblame hundo =>
    rw [← List.append_assoc, ← List.append_assoc] at hsplit
    obtain ⟨-, hb, hafter⟩ := failure_unique hsplit (List.forall_mem_append.2
      ⟨List.forall_mem_append.2 ⟨hbegun, hwent.unfailing⟩, failure?_map_control done .commit⟩)
      hundo.isRollback hfailure hrollback
    exact ⟨hafter ▸ hundo.isRollback, .inr ⟨k, e, hb.symm⟩⟩
  | @succeeded ran hwent =>
    have hb : b ∈ begun ++ (ran ++ lines.map .committed) := by simp [hsplit]
    refine absurd ?_ hfailure
    rcases List.mem_append.1 hb with hb | hb
    · exact hbegun b hb
    · rcases List.mem_append.1 hb with hb | hb
      · exact hwent.unfailing b hb
      · exact failure?_map_control lines .commit b hb

theorem Went.taken (h : Went steps es) : (es.filterMap Entry.step?).map (·.1) = steps ∧
    ∀ x ∈ es.filterMap Entry.step?, x.2 = .ok () := by
  rw [h.steps]
  exact ⟨by simp [Function.comp_def], by simp⟩

/-- The steps that were taken are the first ones, and all but the last of them have succeeded. -/
theorem Sequel.steps_taken (h : Sequel ts steps lines r es) :
    (es.filterMap Entry.step?).map (·.1) <+: steps ∧
      ∀ x ∈ (es.filterMap Entry.step?).dropLast, x.2 = .ok () := by
  cases h with
  | @stepFailed done rest i e ran undo hsteps hwent hundo =>
    obtain ⟨hdone, hok⟩ := hwent.taken
    rw [List.filterMap_append, List.filterMap_cons, Entry.step?,
      List.filterMap_eq_nil_iff.2 hundo.step?_eq_none, List.map_append, hdone, List.dropLast_concat]
    exact ⟨⟨rest, by simp [hsteps]⟩, hok⟩
  | @commitFailed done _ _ _ _ ran undo _ hwent _ hundo =>
    obtain ⟨hdone, hok⟩ := hwent.taken
    rw [List.filterMap_append, List.filterMap_append, filterMap_step?_map_control,
      List.filterMap_cons_none rfl, List.filterMap_eq_nil_iff.2 hundo.step?_eq_none,
      List.append_nil, List.append_nil, hdone]
    exact ⟨List.prefix_rfl, fun x hx => hok x (List.dropLast_subset _ hx)⟩
  | @succeeded ran hwent =>
    obtain ⟨hdone, hok⟩ := hwent.taken
    rw [List.filterMap_append, filterMap_step?_map_control, List.append_nil, hdone]
    exact ⟨List.prefix_rfl, fun x hx => hok x (List.dropLast_subset _ hx)⟩

end Ledger

/-! ### The history of a chain -/

namespace Chain

/-- A history by itself, as a ledger on which nothing is ever open. -/
abbrev record : Ledger ConnectionId (Option (WorkUnit σ)) (Observed σ) := ledger fun _ _ => false

theorem record_records (c : Connection σ) : record.Records c.id c.observed :=
  ⟨fun _ => rfl, fun _ => rfl⟩

/-- What is entered when these lines are begun in order, up to the first that fails. The lines that
    were begun come second. -/
inductive Started (lines : List ConnectionId) :
    List ConnectionId → Except StoreError Unit → List (ChainEvent σ) → Prop
  | all : Started lines lines (.ok ()) (lines.map .begun)
  | stopped {done rest : List ConnectionId} {k : ConnectionId} {e : StoreError} :
    lines = done ++ k :: rest →
    Started lines done (.error e) (done.map .begun ++ [.control k .begin (.error e)])

theorem Started.cons {lines done : List ConnectionId} {r : Except StoreError Unit}
    {es : List (ChainEvent σ)} (h : Started lines done r es) (k : ConnectionId) :
    Started (k :: lines) (k :: done) r (.begun k :: es) := by
  cases h with
  | all => exact .all
  | stopped hlines => exact .stopped (congrArg (k :: ·) hlines)

/-- What is entered when strands are begun that own nothing. -/
theorem strands_started {gs : List (Strand σ)} (hnew : ∀ g ∈ gs, g.isOwned = false) (s : σ)
    (h : List (ChainEvent σ)) :
    ∃ done es, (Act.each Strand.begin (gs.map (·.observed)) (s, h)).2.1.2 = h ++ es ∧
      Started (Connection.unopened (gs.map (·.connection)) s) done
        (Act.each Strand.begin (gs.map (·.observed)) (s, h)).1 es ∧
      record.Owned (Act.each Strand.begin (gs.map (·.observed)) (s, h)).2.2 done := by
  induction gs generalizing s h with
  | nil => exact ⟨[], [], by simp [Act.each], .all, .nil⟩
  | cons g rest ih =>
    obtain ⟨hg, hrest⟩ := List.forall_mem_cons.1 hnew
    have hobserved : g.observed.isOwned = false := hg
    simp only [List.map_cons, Act.each, Strand.begin, Act.perform_make,
      Strand.inTransaction_observed, Connection.unopened]
    by_cases hopen : g.connection.inTransaction s = true
    · -- The transaction is the caller's.
      obtain ⟨done, es, hes, hstarted, howned⟩ := ih hrest s h
      simp only [hopen, if_true]
      exact ⟨done, es, hes, hstarted, (Ledger.owned_cons_iff_of_not_owned hobserved).2 howned⟩
    · simp only [hopen, Strand.begin_observed]
      rcases g.connection.begin.perform s with ⟨e | _, s'⟩
      · refine ⟨[], [.control g.connection.id .begin (.error e)], rfl, .stopped rfl, ?_⟩
        refine Ledger.owned_nil_of_forall (List.forall_mem_cons.2 ⟨hobserved, ?_⟩)
        exact List.forall_mem_map.2 hrest
      · obtain ⟨done, es, hes, hstarted, howned⟩ := ih hrest s' (h ++ [.begun g.connection.id])
        exact ⟨g.connection.id :: done, .begun g.connection.id :: es,
          hes.trans (List.append_assoc h [_] es), hstarted.cons g.connection.id,
          .cons (record_records g.connection) howned⟩

variable {ts : List (Transaction σ)}

/-- What is entered when transactions are begun that own nothing. -/
theorem transactions_started (hnew : ∀ t ∈ ts, ∀ g ∈ t.strands, g.isOwned = false) (s : σ)
    (h : List (ChainEvent σ)) :
    ∃ done es, (Act.each Transaction.begin (ts.map (·.observed)) (s, h)).2.1.2 = h ++ es ∧
      Started (Connection.unopened ((ts.flatMap (·.strands)).map (·.connection)) s) done
        (Act.each Transaction.begin (ts.map (·.observed)) (s, h)).1 es ∧
      record.Owned ((Act.each Transaction.begin (ts.map (·.observed)) (s, h)).2.2.flatMap
        (·.strands)) done := by
  have hstrands : (ts.flatMap (·.strands)).map (·.observed) =
      (ts.map (·.observed)).flatMap (·.strands) := by
    rw [List.flatMap_map, List.map_flatMap]
    exact List.flatMap_congr fun t _ => t.strands_observed.symm
  have hnewStrands : ∀ g ∈ ts.flatMap (·.strands), g.isOwned = false := fun g hg => by
    obtain ⟨t, ht, hg⟩ := List.mem_flatMap.1 hg
    exact hnew t ht g hg
  have hstarted := strands_started hnewStrands s h
  rwa [hstrands, each_begin_flatMap] at hstarted

/-- What happens when these lines are begun and these steps taken:

* nothing, if no transaction can be made;
* if a line cannot be begun, those before it are rolled back;
* otherwise the steps are taken and the lines are ended. -/
inductive Chronicle (steps : List (Option (WorkUnit σ))) (lines : List ConnectionId) :
    Except StoreError Unit → List (ChainEvent σ) → Prop
  | unmade {e : StoreError} : Chronicle steps lines (.error e) []
  | unbegun {done rest : List ConnectionId} {k : ConnectionId} {e : StoreError}
    {undo : List (ChainEvent σ)} : lines = done ++ k :: rest → Ledger.Undoing done undo →
    Chronicle steps lines (.error e) (done.map .begun ++ .control k .begin (.error e) :: undo)
  | begun {ts : List (Transaction (Observed σ))} {r : Except StoreError Unit}
    {es : List (ChainEvent σ)} : Ledger.Sequel ts steps lines r es →
    Chronicle steps lines r (lines.map .begun ++ es)

/-- The chronicle of a chain of new transactions. -/
theorem history_chronicle (hnew : ∀ t ∈ ts, ∀ g ∈ t.strands, g.isOwned = false)
    (check : Act σ Unit) (s : σ) :
    Chronicle (steps ts) (Connection.unopened ((ts.flatMap (·.strands)).map (·.connection)) s)
      ((execute check ts).perform s).1 (history check ts s) := by
  obtain ⟨h', hobserve⟩ := observe_eq check ts s []
  have hresult : ((observe check ts).perform (s, [])).1 = ((execute check ts).perform s).1 := by
    rw [hobserve]
  rw [← hresult, history]
  obtain ⟨done, es, hes, hstarted, howned⟩ := transactions_started hnew s []
  have hbody := @Act.map_each _ _ _ _ (fun t : Transaction (Observed σ) => (t.run, t.isConnected))
    Transaction.body_begin (ts.map (·.observed)) (s, [])
  rcases hbegin : Act.each Transaction.begin (ts.map (·.observed)) (s, []) with
    ⟨e | _, ⟨s₁, h₁⟩, ts₁⟩ <;> rw [hbegin] at hes hstarted howned hbody <;> cases hes
  · obtain ⟨hfailed, undo, hundo, hundoing⟩ := @Ledger.execute_of_unbegun _ _ _ record _ _
      (check.observed (.step none)) _ _ _ _ hbegin howned
    generalize Connection.unopened ((ts.flatMap (·.strands)).map (·.connection)) s = lines
      at hstarted
    cases hstarted with
    | @stopped _ rest k _ hsplit =>
      have hhistory : ((observe check ts).perform (s, [])).2.2 =
          done.map .begun ++ .control k .begin (.error e) :: undo := by
        refine Eq.trans hundo ?_
        simp [ledger]
      rw [hhistory, observe, hfailed]
      exact .unbegun hsplit hundoing
  · -- Nothing is open in a record, so nothing that is done opens or closes it.
    have hspares : ∀ f : Act σ Unit, f.Spares fun _ _ => false := fun _ _ _ => rfl
    have hrun := takes_runAll fun t (_ : t ∈ ts) u _ => hspares u.run
    have hsteps := hrun.andThen ((hspares check).takes none)
    obtain ⟨es', hes', hsequel⟩ := Ledger.execute_of_begun hbegin howned hbody hsteps
    generalize Connection.unopened ((ts.flatMap (·.strands)).map (·.connection)) s = lines
      at hstarted ⊢
    cases hstarted
    have hhistory : ((observe check ts).perform (s, [])).2.2 = done.map .begun ++ es' := hes'
    rw [hhistory]
    exact .begun hsequel

namespace Chronicle

variable {steps : List (Option (WorkUnit σ))} {lines : List ConnectionId}
  {r : Except StoreError Unit} {es before after : List (ChainEvent σ)}

theorem unfailing_begun (lines : List ConnectionId) :
    ∀ x ∈ lines.map .begun, (x : ChainEvent σ).failure? = none :=
  Ledger.failure?_map_control lines .begin

theorem of_ok (h : Chronicle steps lines (.ok ()) es) :
    ∃ ran, Ledger.Went steps ran ∧ es = lines.map .begun ++ ran ++ lines.map .committed := by
  cases h with
  | begun hsequel =>
    cases hsequel with
    | succeeded hwent => exact ⟨_, hwent, (List.append_assoc ..).symm⟩

/-- Before a step that fails, the lines were begun and the steps before it have succeeded. -/
theorem of_step_error {i : Option (WorkUnit σ)} {e : StoreError}
    (h : Chronicle steps lines r (before ++ .step i (.error e) :: after)) :
    ∃ done rest ran, steps = done ++ i :: rest ∧ Ledger.Went done ran ∧
      before = lines.map .begun ++ ran ∧ ∀ x ∈ after, x.isRollback = true := by
  generalize hes : before ++ .step i (.error e) :: after = es at h
  have hfailure : (.step i (.error e) : ChainEvent σ).failure? ≠ none := nofun
  cases h with
  | unmade => simp at hes
  | @unbegun done _ _ _ _ _ hundo =>
    obtain ⟨-, heq, -⟩ := Ledger.failure_unique hes.symm (unfailing_begun done) hundo.isRollback
      hfailure rfl
    cases heq
  | begun hsequel =>
    obtain ⟨hafter, ⟨done, _, rest, _, ran, hi, hsteps, hwent, hbefore⟩ | ⟨_, _, hcommit⟩⟩ :=
      hsequel.failure_cases (unfailing_begun lines) hes.symm hfailure rfl
    · cases hi
      exact ⟨done, rest, ran, hsteps, hwent, hbefore, hafter⟩
    · cases hcommit

/-- Before a line that cannot be begun, those before it were begun, and nothing else was done. -/
theorem of_begin_error {k : ConnectionId} {e : StoreError}
    (h : Chronicle steps lines r (before ++ .control k .begin (.error e) :: after)) :
    ∃ done rest, lines = done ++ k :: rest ∧ before = done.map .begun ∧
      ∀ x ∈ after, x.isRollback = true := by
  generalize hes : before ++ .control k .begin (.error e) :: after = es at h
  have hfailure : (.control k .begin (.error e) : ChainEvent σ).failure? ≠ none := nofun
  cases h with
  | unmade => simp at hes
  | @unbegun done rest _ _ _ hsplit hundo =>
    obtain ⟨hbefore, heq, hafter⟩ := Ledger.failure_unique hes.symm (unfailing_begun done)
      hundo.isRollback hfailure rfl
    cases heq
    exact ⟨done, rest, hsplit, hbefore.symm, hafter ▸ hundo.isRollback⟩
  | begun hsequel =>
    obtain ⟨-, ⟨_, _, _, _, _, hi, -⟩ | ⟨_, _, hcommit⟩⟩ :=
      hsequel.failure_cases (unfailing_begun lines) hes.symm hfailure rfl
    · cases hi
    · cases hcommit

/-- The steps that were taken are the first ones, and all but the last of them have succeeded. -/
theorem steps_taken (h : Chronicle steps lines r es) :
    (es.filterMap Ledger.Entry.step?).map (·.1) <+: steps ∧
      ∀ x ∈ (es.filterMap Ledger.Entry.step?).dropLast, x.2 = .ok () := by
  cases h with
  | unmade => exact ⟨List.nil_prefix, by simp⟩
  | @unbegun done _ _ _ _ _ hundo =>
    rw [List.filterMap_append, Ledger.filterMap_step?_map_control, List.filterMap_cons_none rfl,
      List.filterMap_eq_nil_iff.2 hundo.step?_eq_none]
    exact ⟨List.nil_prefix, by simp⟩
  | begun hsequel =>
    rw [List.filterMap_append, Ledger.filterMap_step?_map_control, List.nil_append]
    exact hsequel.steps_taken

/-- Either a step is not taken, or all steps before it have succeeded. -/
theorem step_taken (h : Chronicle steps lines r es) {done rest : List (Option (WorkUnit σ))}
    {i : Option (WorkUnit σ)} (hsteps : steps = done ++ i :: rest) :
    (es.filterMap Ledger.Entry.step?).length ≤ done.length ∨
      ∃ r' others, es.filterMap Ledger.Entry.step? =
        done.map (·, .ok ()) ++ (i, r') :: others := by
  obtain ⟨hinitial, hok⟩ := h.steps_taken
  rw [hsteps] at hinitial
  by_cases hlength : (es.filterMap Ledger.Entry.step?).length ≤ done.length
  · exact .inl hlength
  · exact .inr (eq_append_of_initial hinitial hok (Nat.lt_of_not_le hlength))

end Chronicle

end Chain

namespace TransactionScheme

variable {connects : Capability → Bool}

/-- The chronicle of units under a usual scheme. -/
theorem usual_chronicle {units : List (WorkUnit σ)} {ts : List (Transaction σ)}
    (h : (usual connects).transactions units = .ok ts) (check : Act σ Unit) (s : σ) :
    Chain.Chronicle ((runOrder connects units).map some ++ [none])
      (Connection.unopened ((ts.flatMap (·.strands)).map (·.connection)) s)
      (((usual connects).executeChecked units check).perform s).1
      ((usual connects).history units check s) := by
  have hnew : ∀ t ∈ ts, ∀ g ∈ t.strands, g.isOwned = false := fun t ht => by
    obtain ⟨group, hgroup⟩ := usual_isFresh h t ht
    exact hgroup.isNew.isOwned
  simp only [executeChecked, Act.perform_bind, Act.perform_ofExcept, history, h, ← usual_units h]
  exact Chain.history_chronicle hnew check s

/-- The connections of connected units, in the order in which they are first seen, each as its first
    unit has it. -/
def beginOrder (units : List (WorkUnit σ)) : List (Connection σ) :=
  firstOf (·.id) ((units.filter (·.capability = .connected)).filterMap (·.connection))

/-- The connections that are begun for these units: those that are found in no transaction. -/
def begunLines (units : List (WorkUnit σ)) (s : σ) : List ConnectionId :=
  Connection.unopened (beginOrder units) s

theorem standard_chronicle (units : List (WorkUnit σ)) (check : Act σ Unit) (s : σ) :
    Chain.Chronicle ((runOrder (· = .connected) units).map some ++ [none]) (begunLines units s)
      ((standard.executeChecked units check).perform s).1 (standard.history units check s) := by
  rcases hts : standard.transactions units with e | ts
  · simp only [executeChecked, Act.perform_bind, Act.perform_ofExcept, history, hts]
    exact .unmade
  · rw [begunLines, beginOrder, ← standard_connections hts]
    rw [standard_eq_usual] at hts ⊢
    exact usual_chronicle hts check s

/-- Units under the standard scheme, over any connections:

* they run in the order of `runOrder`, in which each occurs as often as it is given;
* if all goes well, the connections that are in no transaction are begun in the order in which they
  are first seen, then all units run, and then these connections are committed in the same order;
* if a unit fails, those before it in the order have run and succeeded, and what follows is rolled
  back;
* if a connection cannot be begun, those before it were begun, and what follows is rolled back: no
  unit runs;
* if no connection opens or closes the transaction of a later one, those are begun that are in no
  transaction at the start. -/
theorem standard_runs_in_order (units : List (WorkUnit σ)) (s : σ) :
    (runOrder (· = .connected) units).Perm units ∧
    (((standard.execute units).perform s).1 = .ok () → ∃ ran,
      Ledger.Went ((runOrder (· = .connected) units).map some ++ [none]) ran ∧
      standard.history units (pure ()) s =
        (begunLines units s).map .begun ++ ran ++ (begunLines units s).map .committed) ∧
    (∀ before u e after,
      standard.history units (pure ()) s = before ++ .step (some u) (.error e) :: after →
      ∃ done rest ran, runOrder (· = .connected) units = done ++ u :: rest ∧
        Ledger.Went (done.map some) ran ∧ before = (begunLines units s).map .begun ++ ran ∧
        ∀ x ∈ after, x.isRollback = true) ∧
    (∀ before k e after,
      standard.history units (pure ()) s = before ++ .control k .begin (.error e) :: after →
      ∃ done rest, begunLines units s = done ++ k :: rest ∧ before = done.map .begun ∧
        ∀ x ∈ after, x.isRollback = true) ∧
    ((beginOrder units).Pairwise (fun c c' =>
        ∀ s, c'.inTransaction (c.begin.perform s).2 = c'.inTransaction s) →
      begunLines units s = ((beginOrder units).filter (!·.inTransaction s)).map (·.id)) := by
  have hchronicle := standard_chronicle units (pure ()) s
  refine ⟨runOrder_perm _ units, fun hok => ?_, fun before u e after hes => ?_,
    fun before k e after hes => ?_, fun h => Connection.unopened_eq_filter h s⟩
  · rw [execute] at hok
    rw [hok] at hchronicle
    exact hchronicle.of_ok
  · rw [hes] at hchronicle
    obtain ⟨done, rest, ran, hsteps, hwent, hbefore, hafter⟩ := hchronicle.of_step_error
    obtain ⟨done, rest, horder, rfl⟩ := eq_append_of_map_some hsteps
    exact ⟨done, rest, ran, horder, hwent, hbefore, hafter⟩
  · rw [hes] at hchronicle
    exact hchronicle.of_begin_error

section

open Rehearsal (Stage)
open Rehearsal.Stage

/-- Units on three lines, with a note between them. -/
def mixedUnits : List (WorkUnit Stage) :=
  [statementUnit ⟨1⟩ "DELETE FROM b", noteUnit .null, statementUnit ⟨2⟩ "DELETE FROM c",
    statementUnit ⟨0⟩ "DELETE FROM a", statementUnit ⟨1⟩ "DELETE FROM d"]

/-- A stage where the caller has a transaction on line 2. -/
def lentStage : Stage where
  lines
    | 2 => { name := "c", isOpen := true }
    | _ => { name := "a" }

example : (runOrder (· = .connected) mixedUnits).map (·.connectionId?) =
    [some ⟨1⟩, some ⟨1⟩, some ⟨2⟩, some ⟨0⟩, none] := by decide

/-- The mixed units run between the beginnings and the commits of lines 1 and 0. -/
theorem mixedUnits_run_in_order :
    ∃ ran, Ledger.Went ((runOrder (· = .connected) mixedUnits).map some ++ [none]) ran ∧
      standard.history mixedUnits (pure ()) lentStage =
        [.begun ⟨1⟩, .begun ⟨0⟩] ++ ran ++ [.committed ⟨1⟩, .committed ⟨0⟩] := by
  obtain ⟨-, hok, -⟩ := standard_runs_in_order mixedUnits lentStage
  exact hok (by decide +kernel)

end

end TransactionScheme

end RecordStore
