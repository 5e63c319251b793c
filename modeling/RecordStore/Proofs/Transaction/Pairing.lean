import RecordStore.Proofs.Rehearsal

/-!
# Every transaction that is begun is ended

In the history of a chain, whatever fails in it, a connection that is begun is *ended* exactly once
afterwards: it is committed, or is asked to roll back (`Ledger.Entry.ends`). Connections that were in
a transaction before are not asked for anything, no connection is begun twice, and before the first
commit all units of work and the check have come to their end without failing
(`Chain.IsFair.ends_what_it_begins`).

All this is read off the course of a chain: it begins distinct lines, each of which was closed, and
the rest of it begins none and ends each of them once (`Ledger.Course.exists_rest`).
-/

namespace RecordStore

variable {κ ι σ : Type} {L : Ledger κ ι σ}

namespace Ledger

section Ends

variable [DecidableEq κ]

namespace Entry

/-- Whether the transaction of a line came to its end, committed or asked to roll back. -/
def ends (k : κ) (x : Entry κ ι) : Bool := x.grants .commit k || x.asks .rollback k

theorem isControl_of_ends {k : κ} {x : Entry κ ι} (h : x.ends k) : x.isControl := by
  rw [ends, Bool.or_eq_true] at h
  exact h.elim (fun h => isControl_of_asks (asks_of_grants h)) isControl_of_asks

variable (j k : κ)

@[simp]
theorem ends_begin (r : Except StoreError Unit) : (control j .begin r : Entry κ ι).ends k = false := by
  cases r <;> simp [ends, grants, asks]

@[simp]
theorem ends_committed : (committed j : Entry κ ι).ends k = decide (j = k) := by
  simp [ends, grants, asks]

@[simp]
theorem ends_commit_error (e : StoreError) :
    (control j .commit (.error e) : Entry κ ι).ends k = false := by
  simp [ends, grants, asks]

@[simp]
theorem ends_rollback (r : Except StoreError Unit) :
    (control j .rollback r : Entry κ ι).ends k = decide (j = k) := by
  cases r <;> simp [ends, grants, asks]

@[simp]
theorem ends_step (i : ι) (r : Except StoreError Unit) : (step i r : Entry κ ι).ends k = false :=
  rfl

end Entry

theorem countP_grants_begun (lines : List κ) (k : κ) :
    (lines.map (.begun : κ → Entry κ ι)).countP (·.grants .begin k) = lines.count k := by
  rw [List.countP_map, List.count]
  exact List.countP_congr fun j _ => by simp

theorem countP_ends_begun (lines : List κ) (k : κ) :
    (lines.map (.begun : κ → Entry κ ι)).countP (·.ends k) = 0 := by
  simp [List.countP_eq_zero]

theorem countP_ends_committed (lines : List κ) (k : κ) :
    (lines.map (.committed : κ → Entry κ ι)).countP (·.ends k) = lines.count k := by
  rw [List.countP_map, List.count]
  exact List.countP_congr fun j _ => by simp

theorem Undoing.countP_ends {lines : List κ} {es : List (Entry κ ι)} (h : Undoing lines es)
    (k : κ) : es.countP (·.ends k) = lines.count k := by
  induction h with
  | nil => rfl
  | cons hx _ ih =>
    obtain ⟨r, rfl⟩ := hx
    rw [List.countP_cons, List.count_cons, ih]
    simp

theorem Went.countP_ends {steps : List ι} {es : List (Entry κ ι)} (h : Went steps es) (k : κ) :
    es.countP (·.ends k) = 0 := by
  refine List.countP_eq_zero.2 fun x hx hends => ?_
  exact Bool.false_ne_true ((h.quiet x hx).symm.trans (Entry.isControl_of_ends hends))

end Ends

theorem Undoing.exists_of_mem {lines : List κ} {es : List (Entry κ ι)} {x : Entry κ ι}
    (h : Undoing lines es) (hx : x ∈ es) : ∃ k ∈ lines, ∃ r, x = .control k .rollback r := by
  induction h with
  | nil => simp at hx
  | @cons k y lines es hy _ ih =>
    rcases List.mem_cons.1 hx with rfl | hx
    · exact ⟨k, List.mem_cons_self, hy⟩
    · obtain ⟨j, hj, hx⟩ := ih hx
      exact ⟨j, List.mem_cons_of_mem _ hj, hx⟩

theorem filterMap_step?_map_control (lines : List κ) (q : Request) (r : Except StoreError Unit) :
    (lines.map fun k => (.control k q r : Entry κ ι)).filterMap Entry.step? = [] := by
  simp [List.filterMap_eq_nil_iff, Entry.step?]

theorem Undoing.step?_eq_none {lines : List κ} {es : List (Entry κ ι)} (h : Undoing lines es) :
    ∀ x ∈ es, x.step? = none := by
  intro x hx
  obtain ⟨k, -, r, rfl⟩ := h.exists_of_mem hx
  rfl

/-- An element that is not in the first part of a list stands in the second. -/
theorem exists_append_of_notMem {α : Type} {l m before after : List α} {x : α}
    (h : l ++ m = before ++ x :: after) (hx : x ∉ l) :
    ∃ mid, before = l ++ mid ∧ m = mid ++ x :: after := by
  rcases List.append_eq_append_iff.1 h with ⟨mid, rfl, rfl⟩ | ⟨mid, rfl, hmid⟩
  · exact ⟨mid, rfl, rfl⟩
  · cases mid with
    | nil => exact ⟨[], by simp, by simpa using hmid.symm⟩
    | cons y mid =>
      obtain ⟨rfl, -⟩ := List.cons.inj hmid
      simp at hx

/-- An element that is not in the second part of a list stands in the first. -/
theorem exists_append_of_notMem_right {α : Type} {l m before after : List α} {x : α}
    (h : l ++ m = before ++ x :: after) (hx : x ∉ m) :
    ∃ mid, l = before ++ x :: mid ∧ after = mid ++ m := by
  rcases List.append_eq_append_iff.1 h with ⟨mid, rfl, rfl⟩ | ⟨mid, rfl, hmid⟩
  · simp at hx
  · cases mid with
    | nil =>
      rw [List.nil_append] at hmid
      simp [← hmid] at hx
    | cons y mid =>
      obtain ⟨rfl, rfl⟩ := List.cons.inj hmid
      exact ⟨mid, rfl, rfl⟩

section Course

variable [DecidableEq κ] {s : σ} {ts : List (Transaction σ)} {steps : List ι} {lines : List κ}
  {r : Except StoreError Unit} {es : List (Entry κ ι)}

/-! ### What a course begins and ends -/

theorem Went.asks_eq_false (h : Went steps es) :
    ∀ x ∈ es, ∀ q k, x.asks q k = false := by
  intro x hx q k
  refine Bool.eq_false_iff.2 fun hasks => ?_
  exact Bool.false_ne_true ((h.quiet x hx).symm.trans (Entry.isControl_of_asks hasks))

theorem Went.grants_eq_false (h : Went steps es) (q : Request) :
    ∀ x ∈ es, ∀ k, x.grants q k = false := fun x hx k =>
  Entry.grants_eq_false (h.asks_eq_false x hx q k)

theorem Undoing.grants_begin_eq_false (h : Undoing lines es) :
    ∀ x ∈ es, ∀ k, x.grants .begin k = false := by
  intro x hx k
  obtain ⟨j, -, _ | _, rfl⟩ := h.exists_of_mem hx <;> simp

theorem Undoing.asks_commit_eq_false (h : Undoing lines es) :
    ∀ x ∈ es, ∀ k, x.asks .commit k = false := by
  intro x hx k
  obtain ⟨j, -, r, rfl⟩ := h.exists_of_mem hx
  simp

theorem grants_begin_committed (lines : List κ) :
    ∀ x ∈ lines.map (.committed : κ → Entry κ ι), ∀ k, x.grants .begin k = false := by
  simp

/-- What follows the beginning of the lines begins none and ends each of them once. -/
theorem Course.exists_rest (h : Course L s ts steps lines r es) :
    ∃ rest, es = lines.map .begun ++ rest ∧ (∀ x ∈ rest, ∀ k, x.grants .begin k = false) ∧
      ∀ k, rest.countP (·.ends k) = lines.count k := by
  cases h with
  | @beginFailed k e undo _ hundo =>
    refine ⟨_, rfl, ?_, fun j => ?_⟩
    · exact List.forall_mem_cons.2 ⟨fun _ => rfl, hundo.grants_begin_eq_false⟩
    · rw [List.countP_cons, hundo.countP_ends]
      simp
  | @stepFailed done rest i e ran undo _ hwent hundo =>
    refine ⟨ran ++ .step i (.error e) :: undo, by rw [List.append_assoc], ?_, fun j => ?_⟩
    · rw [List.forall_mem_append, List.forall_mem_cons]
      exact ⟨hwent.grants_eq_false _, fun _ => rfl, hundo.grants_begin_eq_false⟩
    · rw [List.countP_append, List.countP_cons, hwent.countP_ends, hundo.countP_ends]
      simp
  | @commitFailed done rest k e report ran undo hlines hwent _ hundo =>
    refine ⟨ran ++ (done.map .committed ++ .control k .commit (.error e) :: undo),
      by simp only [List.append_assoc], ?_, fun j => ?_⟩
    · rw [List.forall_mem_append, List.forall_mem_append, List.forall_mem_cons]
      exact ⟨hwent.grants_eq_false _, grants_begin_committed done, fun _ => rfl,
        hundo.grants_begin_eq_false⟩
    · rw [List.countP_append, List.countP_append, List.countP_cons, hwent.countP_ends,
        countP_ends_committed, hundo.countP_ends, hlines, List.count_append]
      simp
  | @succeeded ran hwent =>
    refine ⟨ran ++ lines.map .committed, by rw [List.append_assoc], ?_, fun j => ?_⟩
    · rw [List.forall_mem_append]
      exact ⟨hwent.grants_eq_false _, grants_begin_committed lines⟩
    · rw [List.countP_append, hwent.countP_ends, countP_ends_committed, Nat.zero_add]

theorem Course.mem_of_begun (h : Course L s ts steps lines r es) {x : Entry κ ι} (hx : x ∈ es)
    {k : κ} (hbegun : x.grants .begin k = true) : k ∈ lines := by
  obtain ⟨rest, rfl, hrest, -⟩ := h.exists_rest
  rcases List.mem_append.1 hx with hx | hx
  · obtain ⟨j, hj, rfl⟩ := List.mem_map.1 hx
    obtain rfl : j = k := by simpa using hbegun
    exact hj
  · exact absurd ((hrest x hx k).symm.trans hbegun) Bool.false_ne_true

theorem Course.countP_grants_begin_le (h : Course L s ts steps lines r es) (hnodup : lines.Nodup)
    (k : κ) : es.countP (·.grants .begin k) ≤ 1 := by
  obtain ⟨rest, heq, hrest, -⟩ := h.exists_rest
  have hnone : rest.countP (·.grants .begin k) = 0 :=
    List.countP_eq_zero.2 fun x hx => by simp [hrest x hx k]
  rw [heq, List.countP_append, hnone, countP_grants_begun]
  exact List.nodup_iff_count_le_one.1 hnodup k

/-- A line that was begun is ended once in what comes after. -/
theorem Course.countP_ends_of_begun (h : Course L s ts steps lines r es) (hnodup : lines.Nodup)
    {before after : List (Entry κ ι)} {x : Entry κ ι} (heq : es = before ++ x :: after) {k : κ}
    (hx : x.grants .begin k = true) : after.countP (·.ends k) = 1 := by
  obtain ⟨rest, heq', hrest, hends⟩ := h.exists_rest
  -- The entry is one of the begins at the front, and until the rest nothing is ended.
  have hnot : x ∉ rest := fun hmem => Bool.false_ne_true ((hrest x hmem k).symm.trans hx)
  obtain ⟨mid, hbegun, rfl⟩ := exists_append_of_notMem_right (heq'.symm.trans heq) hnot
  have hk : k ∈ lines := h.mem_of_begun (by simp [heq]) hx
  have hmid : mid.countP (·.ends k) = 0 := by
    have hall := countP_ends_begun (ι := ι) lines k
    rw [hbegun, List.countP_append, List.countP_cons] at hall
    omega
  rw [List.countP_append, hmid, hends k, Nat.zero_add]
  exact List.count_eq_one_of_mem hnodup hk

/-- Only lines with this property are asked for anything. -/
def AsksOnly (p : κ → Prop) (es : List (Entry κ ι)) : Prop :=
  ∀ x ∈ es, ∀ q k, x.asks q k = true → p k

theorem asksOnly_append {p : κ → Prop} {es fs : List (Entry κ ι)} :
    AsksOnly p (es ++ fs) ↔ AsksOnly p es ∧ AsksOnly p fs := List.forall_mem_append

theorem AsksOnly.control_cons {p : κ → Prop} (h : AsksOnly p es) {k : κ} (hk : p k) (q : Request)
    (r : Except StoreError Unit) : AsksOnly p (.control k q r :: es) := by
  refine List.forall_mem_cons.2 ⟨fun q' j hasks => ?_, h⟩
  obtain ⟨rfl, -⟩ : k = j ∧ _ := by simpa using hasks
  exact hk

theorem AsksOnly.step_cons {p : κ → Prop} (h : AsksOnly p es) (i : ι)
    (r : Except StoreError Unit) : AsksOnly p (.step i r :: es) :=
  List.forall_mem_cons.2 ⟨by simp [Entry.asks], h⟩

theorem asksOnly_map_control {p : κ → Prop} {lines : List κ} (h : ∀ k ∈ lines, p k) (q : Request)
    (r : Except StoreError Unit) :
    AsksOnly p (lines.map fun k => (.control k q r : Entry κ ι)) := by
  induction lines with
  | nil => simp [AsksOnly]
  | cons k rest ih =>
    obtain ⟨hk, hrest⟩ := List.forall_mem_cons.1 h
    exact (ih hrest).control_cons hk q r

theorem Undoing.asksOnly {p : κ → Prop} (h : Undoing lines es) (hp : ∀ k ∈ lines, p k) :
    AsksOnly p es := by
  induction h with
  | nil => simp [AsksOnly]
  | cons hx _ ih =>
    obtain ⟨hk, hrest⟩ := List.forall_mem_cons.1 hp
    obtain ⟨r, rfl⟩ := hx
    exact (ih hrest).control_cons hk .rollback r

theorem asksOnly_of_quiet {p : κ → Prop} (h : ∀ x ∈ es, x.isControl = false) :
    AsksOnly p es := fun x hx _ _ hasks =>
  absurd ((h x hx).symm.trans (Entry.isControl_of_asks hasks)) Bool.false_ne_true

/-- A course asks nothing of lines that were open before. -/
theorem Course.asksOnly (h : Course L s ts steps lines r es)
    (hclosed : ∀ k ∈ lines, L.isOpen k s = false) :
    AsksOnly (fun k => L.isOpen k s = false) es := by
  have hbegun : AsksOnly (fun k => L.isOpen k s = false)
      (lines.map (.begun : κ → Entry κ ι)) := asksOnly_map_control hclosed _ _
  cases h with
  | beginFailed hk hundo =>
    exact asksOnly_append.2 ⟨hbegun, (hundo.asksOnly hclosed).control_cons hk _ _⟩
  | @stepFailed done rest i e ran undo _ hwent hundo =>
    rw [asksOnly_append, asksOnly_append]
    exact ⟨⟨hbegun, asksOnly_of_quiet hwent.quiet⟩, (hundo.asksOnly hclosed).step_cons i _⟩
  | @commitFailed done rest k e report ran undo hlines hwent _ hundo =>
    rw [hlines, List.forall_mem_append] at hclosed
    obtain ⟨hdone, hleft⟩ := hclosed
    rw [asksOnly_append, asksOnly_append, asksOnly_append]
    exact ⟨⟨⟨hbegun, asksOnly_of_quiet hwent.quiet⟩, asksOnly_map_control hdone _ _⟩,
      (hundo.asksOnly hleft).control_cons (hleft k List.mem_cons_self) _ _⟩
  | succeeded hwent =>
    rw [asksOnly_append, asksOnly_append]
    exact ⟨⟨hbegun, asksOnly_of_quiet hwent.quiet⟩, asksOnly_map_control hclosed _ _⟩

/-! ### The order of calls -/

/-- If only the second part asks a line to commit, and only the first takes steps, then all steps
    are taken before a line is asked to commit. -/
theorem filterMap_step?_of_commit {taken es : List (Entry κ ι)} {k : κ}
    (htaken : ∀ y ∈ taken, y.asks .commit k = false) (hes : ∀ y ∈ es, y.step? = none)
    {before after : List (Entry κ ι)} {x : Entry κ ι} (heq : taken ++ es = before ++ x :: after)
    (hx : x.asks .commit k = true) :
    before.filterMap Entry.step? = taken.filterMap Entry.step? := by
  have hnot : x ∉ taken := fun hmem => Bool.false_ne_true ((htaken x hmem).symm.trans hx)
  obtain ⟨mid, rfl, rfl⟩ := exists_append_of_notMem heq hnot
  have hmid : mid.filterMap Entry.step? = [] :=
    List.filterMap_eq_nil_iff.2 fun y hy => hes y (List.mem_append_left _ hy)
  rw [List.filterMap_append, hmid, List.append_nil]

/-- When a line is asked to commit, all steps have been taken. -/
theorem Course.steps_of_commit (h : Course L s ts steps lines r es)
    {before after : List (Entry κ ι)} {x : Entry κ ι} (heq : es = before ++ x :: after) {k : κ}
    (hx : x.asks .commit k = true) :
    before.filterMap Entry.step? = steps.map (·, .ok ()) := by
  have hbegun : ∀ y ∈ lines.map (.begun : κ → Entry κ ι), y.asks .commit k = false := by
    simp [Entry.asks]
  have htaken : ∀ {steps ran}, Went steps ran → ∀ y ∈ lines.map .begun ++ ran,
      y.asks .commit k = false := fun hwent =>
    List.forall_mem_append.2 ⟨hbegun, fun y hy => hwent.asks_eq_false y hy .commit k⟩
  have hsteps : ∀ {ran : List (Entry κ ι)}, Went steps ran →
      (lines.map Entry.begun ++ ran).filterMap Entry.step? = steps.map (·, .ok ()) := by
    intro ran hwent
    rw [List.filterMap_append, hwent.steps, filterMap_step?_map_control, List.nil_append]
  -- The first two courses do not come to a commit.
  have hnever : (∀ y ∈ es, y.asks .commit k = false) → False := fun hall =>
    Bool.false_ne_true ((hall x (by simp [heq])).symm.trans hx)
  cases h with
  | beginFailed _ hundo =>
    refine (hnever ?_).elim
    rw [List.forall_mem_append, List.forall_mem_cons]
    exact ⟨hbegun, by simp, fun y hy => hundo.asks_commit_eq_false y hy k⟩
  | stepFailed _ hwent hundo =>
    refine (hnever ?_).elim
    rw [List.forall_mem_append, List.forall_mem_cons]
    exact ⟨htaken hwent, rfl, fun y hy => hundo.asks_commit_eq_false y hy k⟩
  | @commitFailed done rest j e report ran undo _ hwent _ hundo =>
    rw [List.append_assoc] at heq
    rw [filterMap_step?_of_commit (htaken hwent) ?_ heq hx, hsteps hwent]
    rw [List.forall_mem_append, List.forall_mem_cons]
    exact ⟨by simp [Entry.step?], rfl, hundo.step?_eq_none⟩
  | @succeeded ran hwent =>
    rw [filterMap_step?_of_commit (htaken hwent) (by simp [Entry.step?]) heq hx, hsteps hwent]

end Course

end Ledger

namespace Chain

variable {isOpen : ConnectionId → σ → Bool} {check : Act σ Unit} {ts : List (Transaction σ)}

/-- Connections that are in a transaction before a chain starts are not asked to begin or end one;
    the others are begun at most once; what is begun is committed or asked to roll back afterwards,
    one of them, and once; and nothing is committed before all units and the check have
    succeeded. -/
theorem IsFair.ends_what_it_begins (h : IsFair isOpen check ts) (s : σ) :
    (∀ id, isOpen id s = true → ∀ x ∈ history check ts s, ∀ q, x.asks q id = false) ∧
    (∀ id, (history check ts s).countP (·.grants .begin id) ≤ 1) ∧
    (∀ id before x after, history check ts s = before ++ x :: after →
      x.grants .begin id = true → after.countP (·.ends id) = 1) ∧
    ∀ id before x after, history check ts s = before ++ x :: after →
      x.asks .commit id = true →
      before.filterMap Ledger.Entry.step? = (steps ts).map (·, .ok ()) := by
  obtain ⟨lines, hnodup, hclosed, hcourse⟩ := h.course s
  refine ⟨fun id hopen x hx q => ?_, hcourse.countP_grants_begin_le hnodup, ?_, ?_⟩
  · refine Bool.eq_false_iff.2 fun hasks => ?_
    have hfalse := hcourse.asksOnly hclosed x hx q id hasks
    exact Bool.false_ne_true (hfalse.symm.trans hopen)
  · intro id before x after heq hx
    exact hcourse.countP_ends_of_begun hnodup heq hx
  · intro id before x after heq hx
    exact hcourse.steps_of_commit heq hx

open Rehearsal.Stage in
/-- On a torn stage, a shared line is begun once, and the caller's transaction is left alone. -/
theorem sharedChain_ends_what_it_begins :
    IsFair isOpenOn (pure ()) sharedChain ∧ isOpenOn ⟨2⟩ tornStage = true ∧
      (∀ x ∈ history (pure ()) sharedChain tornStage, ∀ q, x.asks q ⟨2⟩ = false) ∧
      (history (pure ()) sharedChain tornStage).countP (·.grants .begin ⟨0⟩) ≤ 1 := by
  obtain ⟨hasks, hbegun, -, -⟩ := IsFair.ends_what_it_begins sharedChain_isFair tornStage
  exact ⟨sharedChain_isFair, rfl, hasks ⟨2⟩ rfl, hbegun ⟨0⟩⟩

end Chain

end RecordStore
