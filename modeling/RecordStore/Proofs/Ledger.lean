import RecordStore.Transaction.Chain
import Mathlib.Data.List.Forall2

/-!
# Ledgers

What an observer can tell of the connections of a world: on which of them a transaction is open,
and what has happened so far. Connections lead to *lines*, and several connections may lead to the
same one. A *ledger* (`Ledger`) reads both off a world: whether the transaction of a line is open,
and the list of *entries* (`Ledger.Entry`), one for every call that began or ended a transaction,
one for every statement, and one for every step of the program that has come to its end.

* A connection *serves* a line (`Ledger.Serves`) if it tells whether the line's transaction is
  open, and if each of its calls is entered with its outcome, opens or closes the line if it
  succeeds, leaves it if it fails, and leaves all other lines in any case. Nothing is said of when
  calls fail.
* An action *takes steps* (`Ledger.Takes`) if it leaves all transactions alone and enters every
  step that it takes with its outcome, the first that fails being the last. Units of work and
  checks take steps; so does whatever is made of them in sequence.
-/

namespace RecordStore

namespace Ledger

/-- What a line may be asked to do with its transaction. -/
inductive Request where
  | begin
  | commit
  | rollback
  deriving DecidableEq

/-- Something that happened, on a line of `κ` or to a step of `ι`. -/
inductive Entry (κ ι : Type) where
  /-- A line was asked to begin or end its transaction. -/
  | control (line : κ) (request : Request) (outcome : Except StoreError Unit)
  /-- A statement was sent to a line. -/
  | statement (line : κ)
  /-- A step came to its end. -/
  | step (label : ι) (outcome : Except StoreError Unit)

namespace Entry

variable {κ ι : Type}

/-- A line's transaction was opened. -/
abbrev begun (k : κ) : Entry κ ι := control k .begin (.ok ())

/-- A line's transaction was committed. -/
abbrev committed (k : κ) : Entry κ ι := control k .commit (.ok ())

/-- Whether a line was asked to begin or end its transaction. -/
def isControl : Entry κ ι → Bool
  | control .. => true
  | _ => false

/-- Whether a line was asked to roll back. -/
def isRollback : Entry κ ι → Bool
  | control _ .rollback _ => true
  | _ => false

/-- The error that something ended with. -/
def failure? : Entry κ ι → Option StoreError
  | control _ _ (.error e) => some e
  | step _ (.error e) => some e
  | _ => none

/-- The step that came to its end, with its outcome. -/
def step? : Entry κ ι → Option (ι × Except StoreError Unit)
  | step i r => some (i, r)
  | _ => none

variable [DecidableEq κ]

/-- Whether this line received this request. -/
def asks (q : Request) (k : κ) : Entry κ ι → Bool
  | control j q' _ => j = k ∧ q' = q
  | _ => false

/-- Whether this line received this request, and it succeeded. -/
def grants (q : Request) (k : κ) : Entry κ ι → Bool
  | control j q' (.ok _) => j = k ∧ q' = q
  | _ => false

section Control

variable (q q' : Request) (j k : κ)

@[simp]
theorem asks_control (r : Except StoreError Unit) :
    (control j q' r : Entry κ ι).asks q k = decide (j = k ∧ q' = q) := rfl

@[simp]
theorem grants_control_ok :
    (control j q' (.ok ()) : Entry κ ι).grants q k = decide (j = k ∧ q' = q) := rfl

@[simp]
theorem grants_control_error (e : StoreError) :
    (control j q' (.error e) : Entry κ ι).grants q k = false := rfl

@[simp]
theorem grants_control_of_ne {q q' : Request} (h : q' ≠ q) (r : Except StoreError Unit) :
    (control j q' r : Entry κ ι).grants q k = false := by
  cases r <;> simp [grants, h]

end Control

theorem asks_of_grants {q : Request} {k : κ} {x : Entry κ ι} (h : x.grants q k) :
    x.asks q k := by
  rcases x with ⟨j, q', _ | _⟩ | _ | _
  · simp [grants] at h
  · exact h
  all_goals simp [grants] at h

theorem grants_eq_false {q : Request} {k : κ} {x : Entry κ ι} (h : x.asks q k = false) :
    x.grants q k = false :=
  Bool.eq_false_iff.2 fun hgrants => Bool.eq_false_iff.1 h (asks_of_grants hgrants)

theorem isControl_of_asks {q : Request} {k : κ} {x : Entry κ ι} (h : x.asks q k) :
    x.isControl := by
  cases x with
  | control => rfl
  | statement | step => simp [asks] at h

end Entry

end Ledger

/-- A view of a world `σ`: which lines have a transaction open, and what has happened. -/
structure Ledger (κ ι σ : Type) where
  isOpen : κ → σ → Bool
  entries : σ → List (Ledger.Entry κ ι)

namespace Ledger

variable {κ ι σ τ α : Type}

/-- The ledger of a world that can be seen from another. -/
def comap (view : τ → σ) (L : Ledger κ ι σ) : Ledger κ ι τ where
  isOpen k t := L.isOpen k (view t)
  entries t := L.entries (view t)

/-- Every call of an action is this request to this line. -/
structure Enters (L : Ledger κ ι σ) (k : κ) (q : Request) (f : Act σ Unit) : Prop where
  entries : ∀ s, L.entries (f.perform s).2 = L.entries s ++ [.control k q (f.perform s).1]
  granted : ∀ s, (f.perform s).1 = .ok () → L.isOpen k (f.perform s).2 = decide (q = .begin)
  failed : ∀ s e, (f.perform s).1 = .error e → L.isOpen k (f.perform s).2 = L.isOpen k s
  others : ∀ s j, j ≠ k → L.isOpen j (f.perform s).2 = L.isOpen j s

/-- A connection that leads to this line. -/
structure Serves (L : Ledger κ ι σ) (k : κ) (c : Connection σ) : Prop where
  inTransaction : ∀ s, c.inTransaction s = L.isOpen k s
  begin : L.Enters k .begin c.begin
  commit : L.Enters k .commit c.commit
  rollback : L.Enters k .rollback c.rollback

variable {L : Ledger κ ι σ} {k : κ}

theorem Enters.zoom {q : Request} {f : Act σ Unit} (h : L.Enters k q f) (l : Lens τ σ) :
    (L.comap l.get).Enters k q (f.zoom l) where
  entries t := by
    simp only [comap, Act.perform_zoom, l.get_set]
    exact h.entries (l.get t)
  granted t ht := by
    simp only [comap, Act.perform_zoom, l.get_set]
    exact h.granted (l.get t) ht
  failed t e ht := by
    simp only [comap, Act.perform_zoom, l.get_set]
    exact h.failed (l.get t) e ht
  others t j hj := by
    simp only [comap, Act.perform_zoom, l.get_set]
    exact h.others (l.get t) j hj

theorem Serves.zoom {c : Connection σ} (h : L.Serves k c) (l : Lens τ σ) :
    (L.comap l.get).Serves k (c.zoom l) where
  inTransaction t := h.inTransaction (l.get t)
  begin := h.begin.zoom l
  commit := h.commit.zoom l
  rollback := h.rollback.zoom l

/-! ### Steps -/

/-- These entries tell of exactly these steps, all of which succeeded, and of no request. -/
structure Went (steps : List ι) (es : List (Entry κ ι)) : Prop where
  steps : es.filterMap Entry.step? = steps.map (·, .ok ())
  quiet : ∀ x ∈ es, x.isControl = false

/-- How far a sequence of steps came: to its end, or to the first step that failed. -/
inductive Progress : List ι → Except StoreError Unit → List (Entry κ ι) → Prop
  | all {steps : List ι} {es : List (Entry κ ι)} : Went steps es → Progress steps (.ok ()) es
  | stopped {done rest : List ι} {i : ι} {e : StoreError} {es : List (Entry κ ι)} :
    Went done es → Progress (done ++ i :: rest) (.error e) (es ++ [.step i (.error e)])

theorem Progress.stopped_head (i : ι) (rest : List ι) (e : StoreError) :
    Progress (i :: rest) (.error e) ([.step i (.error e)] : List (Entry κ ι)) :=
  @stopped κ ι [] rest i e [] ⟨rfl, by simp⟩

/-- An action that leaves all transactions alone and enters its steps. -/
structure Takes (L : Ledger κ ι σ) (steps : List ι) (f : Act σ Unit) : Prop where
  isOpen : ∀ s k, L.isOpen k (f.perform s).2 = L.isOpen k s
  entries : ∀ s, ∃ es, L.entries (f.perform s).2 = L.entries s ++ es ∧
    Progress steps (f.perform s).1 es

theorem Went.nil : Went ([] : List ι) ([] : List (Entry κ ι)) := ⟨rfl, by simp⟩

theorem Went.append {l m : List ι} {es fs : List (Entry κ ι)} (h : Went l es) (h' : Went m fs) :
    Went (l ++ m) (es ++ fs) where
  steps := by rw [List.filterMap_append, h.steps, h'.steps, List.map_append]
  quiet x hx := (List.mem_append.1 hx).elim (h.quiet x) (h'.quiet x)

/-- Nothing fails on the way. -/
theorem Went.unfailing {steps : List ι} {es : List (Entry κ ι)} (h : Went steps es) :
    ∀ x ∈ es, x.failure? = none := by
  intro x hx
  cases x with
  | control => exact absurd (h.quiet _ hx) (by simp [Entry.isControl])
  | statement => rfl
  | step i r =>
    have hi : (i, r) ∈ es.filterMap Entry.step? := List.mem_filterMap.2 ⟨_, hx, rfl⟩
    rw [h.steps, List.mem_map] at hi
    obtain ⟨_, _, hr⟩ := hi
    cases hr
    rfl

theorem Takes.pure : L.Takes [] (pure ()) where
  isOpen _ _ := rfl
  entries _ := ⟨[], by simp, .all .nil⟩

/-- Steps in sequence: the second action takes its own if the first has come to its end. -/
theorem Takes.andThen {l m : List ι} {f g : Act σ Unit} (hf : L.Takes l f) (hg : L.Takes m g) :
    L.Takes (l ++ m) (do f; g) where
  isOpen s k := by
    have hs := hf.isOpen s k
    rw [Act.perform_bind]
    rcases h : f.perform s with ⟨_ | _, s'⟩ <;> rw [h] at hs
    · exact hs
    · exact (hg.isOpen s' k).trans hs
  entries s := by
    obtain ⟨es, hes, hp⟩ := hf.entries s
    rw [Act.perform_bind]
    rcases h : f.perform s with ⟨_ | _, s'⟩ <;> rw [h] at hes hp
    · cases hp with
      | stopped hw =>
        exact ⟨_, hes, by rw [List.append_assoc, List.cons_append]; exact .stopped hw⟩
    · cases hp with
      | all hw =>
        obtain ⟨fs, hfs, hp⟩ := hg.entries s'
        refine ⟨es ++ fs, by rw [hfs, hes, List.append_assoc], ?_⟩
        generalize (g.perform s').1 = r at hp
        cases hp with
        | all hw' => exact .all (hw.append hw')
        | stopped hw' =>
          rw [← List.append_assoc, ← List.append_assoc]
          exact .stopped (hw.append hw')

/-- Units of work that are one step each take these steps in order. -/
theorem Takes.runAll {unit : α → WorkUnit σ} {label : α → ι} {as : List α}
    (h : ∀ a ∈ as, L.Takes [label a] (unit a).run) :
    L.Takes (as.map label) (WorkUnit.runAll (as.map unit)) := by
  induction as with
  | nil => exact .pure
  | cons a rest ih =>
    exact (h a List.mem_cons_self).andThen (ih fun b hb => h b (List.mem_cons_of_mem _ hb))

end Ledger

end RecordStore
