import RecordStore.Proofs.Transaction.Ownership

/-!
# The course of a chain

What a run of a chain of new transactions enters in a ledger, from its first call to its last. A run
takes one of four courses (`Ledger.Course`): a line cannot be begun; the steps come to a failure;
the commits come to one; or nothing fails. Whatever it is, the lines that were begun come first, and
those that are still owned when something has failed are rolled back at the end
(`Ledger.execute_course`). All that is said of the pairing of calls and of the errors of chains
follows from that.
-/

namespace RecordStore

variable {κ ι σ : Type} {L : Ledger κ ι σ}

open Ledger (Entry)

namespace Ledger

/-- What a chain enters that starts at `s` and begins these lines, to take these steps in a world
    where they are open. -/
inductive Course (L : Ledger κ ι σ) (s : σ) (ts : List (Transaction σ)) (steps : List ι)
    (lines : List κ) : Except StoreError Unit → List (Entry κ ι) → Prop
  /-- A line could not be begun. -/
  | beginFailed {k : κ} {e : StoreError} {undo : List (Entry κ ι)} :
    L.isOpen k s = false → Undoing lines undo →
    Course L s ts steps lines (.error e)
      (lines.map .begun ++ .control k .begin (.error e) :: undo)
  /-- A step failed. -/
  | stepFailed {done rest : List ι} {i : ι} {e : StoreError} {ran undo : List (Entry κ ι)} :
    steps = done ++ i :: rest → Went done ran → Undoing lines undo →
    Course L s ts steps lines (.error e)
      (lines.map .begun ++ ran ++ .step i (.error e) :: undo)
  /-- A line could not be committed. -/
  | commitFailed {done rest : List κ} {k : κ} {e report : StoreError}
    {ran undo : List (Entry κ ι)} :
    lines = done ++ k :: rest → Went steps ran → ChainBlame ts 0 ts.length done.length e report →
    Undoing (k :: rest) undo →
    Course L s ts steps lines (.error report)
      (lines.map .begun ++ ran ++ done.map .committed ++ .control k .commit (.error e) :: undo)
  /-- Nothing failed. -/
  | succeeded {ran : List (Entry κ ι)} : Went steps ran →
    Course L s ts steps lines (.ok ()) (lines.map .begun ++ ran ++ lines.map .committed)

/-- What a chain enters after it has begun these lines. -/
inductive Sequel (ts : List (Transaction σ)) (steps : List ι) (lines : List κ) :
    Except StoreError Unit → List (Entry κ ι) → Prop
  | stepFailed {done rest : List ι} {i : ι} {e : StoreError} {ran undo : List (Entry κ ι)} :
    steps = done ++ i :: rest → Went done ran → Undoing lines undo →
    Sequel ts steps lines (.error e) (ran ++ .step i (.error e) :: undo)
  | commitFailed {done rest : List κ} {k : κ} {e report : StoreError}
    {ran undo : List (Entry κ ι)} :
    lines = done ++ k :: rest → Went steps ran → ChainBlame ts 0 ts.length done.length e report →
    Undoing (k :: rest) undo →
    Sequel ts steps lines (.error report)
      (ran ++ done.map .committed ++ .control k .commit (.error e) :: undo)
  | succeeded {ran : List (Entry κ ι)} : Went steps ran →
    Sequel ts steps lines (.ok ()) (ran ++ lines.map .committed)

theorem Sequel.course {s : σ} {ts : List (Transaction σ)} {steps : List ι} {lines : List κ}
    {r : Except StoreError Unit} {es : List (Entry κ ι)} (h : Sequel ts steps lines r es) :
    Course L s ts steps lines r (lines.map .begun ++ es) := by
  cases h with
  | stepFailed hsteps hwent hundo =>
    rw [← List.append_assoc]
    exact .stepFailed hsteps hwent hundo
  | commitFailed hlines hwent hblame hundo =>
    rw [← List.append_assoc, ← List.append_assoc]
    exact .commitFailed hlines hwent hblame hundo
  | succeeded hwent =>
    rw [← List.append_assoc]
    exact .succeeded hwent

/-- The report of a failed commit depends on the number of transactions and on which of them are
    connected. -/
theorem ChainBlame.congr {ts ts' : List (Transaction σ)} {index total i : Nat}
    {e report : StoreError} (h : ts.map (·.isConnected) = ts'.map (·.isConnected))
    (hb : ChainBlame ts index total i e report) : ChainBlame ts' index total i e report := by
  cases hb with
  | intro hj hn hi hzero => exact .intro (h ▸ hj) hn hi hzero

section Execute

variable {ts ts' : List (Transaction σ)} {check : Act σ Unit} {steps : List ι} {lines : List κ}
  {s s₁ : σ} {e : StoreError}

/-- A chain that cannot begin rolls back the lines that it has begun. -/
theorem execute_of_unbegun (hbegin : Act.each Transaction.begin ts s = (.error e, s₁, ts'))
    (howned : L.Owned (ts'.flatMap (·.strands)) lines) :
    ((Chain.execute check ts).perform s).1 = .error e ∧
      ∃ undo, L.entries ((Chain.execute check ts).perform s).2 = L.entries s₁ ++ undo ∧
        Undoing lines undo := by
  rw [Chain.execute, Act.perform_make, hbegin]
  exact ⟨rfl, chain_undoing howned s₁⟩

/-- A chain that has begun its lines takes its steps and ends what it has begun. The transactions
    that run are those after their beginning; they run what the given ones do. -/
theorem execute_of_begun (hbegin : Act.each Transaction.begin ts s = (.ok (), s₁, ts'))
    (howned : L.Owned (ts'.flatMap (·.strands)) lines)
    (hbody : ts'.map (fun t => (t.run, t.isConnected)) = ts.map fun t => (t.run, t.isConnected))
    (hsteps : L.Takes steps (do Chain.runAll ts; check)) :
    ∃ es, L.entries ((Chain.execute check ts).perform s).2 = L.entries s₁ ++ es ∧
      Sequel ts steps lines ((Chain.execute check ts).perform s).1 es := by
  have hrun : Chain.runAll ts' = Chain.runAll ts := by
    refine Chain.runAll_congr ?_
    have hfst := congrArg (List.map Prod.fst) hbody
    rwa [List.map_map, List.map_map] at hfst
  have hkinds : ts'.map (·.isConnected) = ts.map (·.isConnected) := by
    have hsnd := congrArg (List.map Prod.snd) hbody
    rwa [List.map_map, List.map_map] at hsnd
  obtain ⟨ran, hran, hprogress⟩ := hsteps.entries s₁
  simp only [Chain.execute, Act.perform_make, hbegin, hrun]
  rcases hperform : (do Chain.runAll ts; check : Act σ Unit).perform s₁ with ⟨e | _, s₂⟩ <;>
    rw [hperform] at hran hprogress
  · -- A step fails while all lines are owned.
    obtain ⟨undo, hundo, hundoing⟩ := chain_undoing howned s₂
    cases hprogress with
    | @stopped done rest i _ ran hwent =>
      refine ⟨ran ++ .step i (.error e) :: undo, ?_, .stepFailed rfl hwent hundoing⟩
      simp [hundo, hran]
  · cases hprogress with
    | all hwent =>
      obtain ⟨es, left, hes, hclosing, howned'⟩ := chain_closing howned 0 ts'.length s₂
      rcases hcommit : Chain.commitAll ts'.length 0 ts' s₂ with ⟨report | _, s₃, ts''⟩ <;>
        rw [hcommit] at hes hclosing howned' <;> simp only [hcommit]
      · -- A commit fails; only the lines that are left are rolled back.
        obtain ⟨undo, hundo, hundoing⟩ := chain_undoing howned' s₃
        cases hclosing with
        | @stopped done rest k e _ hlines hblame =>
          have hlength : ts'.length = ts.length := by simpa using congrArg List.length hkinds
          rw [hlength] at hblame
          refine ⟨ran ++ done.map .committed ++ .control k .commit (.error e) :: undo, ?_,
            .commitFailed hlines hwent (hblame.congr hkinds) hundoing⟩
          simp [hundo, hes, hran]
      · cases hclosing
        refine ⟨ran ++ lines.map .committed, ?_, .succeeded hwent⟩
        simp [hes, hran]

end Execute

/-- The lines that a chain begins, and the course that it takes with them. -/
theorem execute_course {ts : List (Transaction σ)} {check : Act σ Unit} {steps : List ι}
    (hnew : ∀ t ∈ ts, ∀ g ∈ t.strands, g.isOwned = false)
    (hserves : ∀ t ∈ ts, ∀ g ∈ t.strands, ∃ k, L.Serves k g.connection)
    (hsteps : L.Takes steps (do Chain.runAll ts; check)) (s : σ) :
    ∃ lines es, L.entries ((Chain.execute check ts).perform s).2 = L.entries s ++ es ∧
      lines.Nodup ∧ (∀ k ∈ lines, L.isOpen k s = false) ∧
      Course L s ts steps lines ((Chain.execute check ts).perform s).1 es := by
  obtain ⟨lines, hopening, howned, hbody⟩ := each_opening Transaction.begin
    Transaction.strands (fun t => (t.run, t.isConnected))
    (fun t ht => owned_nil_of_forall (hnew t ht))
    (fun t ht => transactionBegin_opening (hnew t ht) (hserves t ht)) s
  obtain ⟨begun, hbegun, hbegins⟩ := hopening.entries
  -- The lines are those that the beginning opens, whatever follows.
  suffices ∃ es, L.entries ((Chain.execute check ts).perform s).2 = L.entries s ++ es ∧
      Course L s ts steps lines ((Chain.execute check ts).perform s).1 es by
    obtain ⟨es, hes, hcourse⟩ := this
    exact ⟨lines, es, hes, hopening.nodup, hopening.closed, hcourse⟩
  rcases h : Act.each Transaction.begin ts s with ⟨e | _, s₁, ts'⟩ <;>
    rw [h] at hbegun hbegins howned hbody
  · obtain ⟨hresult, undo, hundo, hundoing⟩ :=
      @execute_of_unbegun κ ι σ L ts ts' check lines s s₁ e h howned
    rw [hresult, hundo]
    cases hbegins with
    | @stopped k _ hclosed =>
      refine ⟨lines.map .begun ++ .control k .begin (.error e) :: undo, ?_,
        .beginFailed hclosed hundoing⟩
      simp [hbegun]
  · obtain ⟨es, hes, hsequel⟩ := execute_of_begun h howned hbody hsteps
    cases hbegins
    exact ⟨lines.map .begun ++ es, by rw [hes, hbegun, List.append_assoc], hsequel.course⟩

end Ledger

end RecordStore
