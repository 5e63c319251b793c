import RecordStore.Proofs.Ledger
import RecordStore.Proofs.Transaction.Grouping

/-!
# What a chain does to its lines

Every loop of a chain of transactions goes over the strands of its transactions and makes one call
on a line: beginning calls those lines that are closed, committing and rolling back those that a
strand owns. Here each loop is told in the terms of a ledger, with the *owned lines* in the order
of their strands (`Owned`).

* Beginning (`Opening`): the lines that are owned afterwards were closed before, are pairwise
  distinct, and are the only ones that are open now and were not. Each has one entry, and a call
  that failed has the last.
* Committing (`Closing`): the owned lines are committed in order, up to the first call that fails.
  The lines that are still owned are those from that one on.
* Rolling back (`Undoing`): each owned line has one entry, whatever comes of it.
-/

namespace RecordStore

variable {κ ι σ α β : Type} {L : Ledger κ ι σ}

open Ledger (Entry)

namespace StoreError

/-- The error of a commit that failed after `n` others of `total` had succeeded. -/
def afterCommits (n total : Nat) (e : StoreError) : StoreError :=
  if n = 0 then e else .partialCommit n (n + 1) total e

@[simp]
theorem afterCommits_zero (total : Nat) (e : StoreError) : afterCommits 0 total e = e := rfl

theorem afterCommits_of_ne {n : Nat} (h : n ≠ 0) (total : Nat) (e : StoreError) :
    afterCommits n total e = .partialCommit n (n + 1) total e := if_neg h

end StoreError

namespace Ledger

/-- A connection whose calls that end a transaction are entered for this line, whatever they do. -/
structure Records (L : Ledger κ ι σ) (k : κ) (c : Connection σ) : Prop where
  commit : ∀ s, L.entries (c.commit.perform s).2 =
    L.entries s ++ [.control k .commit (c.commit.perform s).1]
  rollback : ∀ s, L.entries (c.rollback.perform s).2 =
    L.entries s ++ [.control k .rollback (c.rollback.perform s).1]

theorem Serves.records {k : κ} {c : Connection σ} (h : L.Serves k c) : L.Records k c :=
  ⟨h.commit.entries, h.rollback.entries⟩

/-- The lines of the owned strands, in order. -/
def Owned (L : Ledger κ ι σ) (gs : List (Strand σ)) (lines : List κ) : Prop :=
  List.Forall₂ (fun g k => L.Records k g.connection) (gs.filter (·.isOwned)) lines

theorem Owned.nil : L.Owned [] [] := List.Forall₂.nil

theorem owned_nil_of_forall {gs : List (Strand σ)} (h : ∀ g ∈ gs, g.isOwned = false) :
    L.Owned gs [] := by
  rw [Owned, List.filter_eq_nil_iff.2 fun g hg => by simp [h g hg]]
  exact .nil

theorem Owned.append {gs gs' : List (Strand σ)} {l l' : List κ} (h : L.Owned gs l)
    (h' : L.Owned gs' l') : L.Owned (gs ++ gs') (l ++ l') := by
  rw [Owned, List.filter_append]
  exact List.rel_append h h'

theorem Owned.exists_append {gs gs' : List (Strand σ)} {lines : List κ}
    (h : L.Owned (gs ++ gs') lines) :
    ∃ l l', lines = l ++ l' ∧ L.Owned gs l ∧ L.Owned gs' l' := by
  rw [Owned, List.filter_append] at h
  refine ⟨lines.take (gs.filter (·.isOwned)).length, lines.drop (gs.filter (·.isOwned)).length,
    (List.take_append_drop ..).symm, ?_, ?_⟩
  · simpa [Owned] using List.forall₂_take (gs.filter (·.isOwned)).length h
  · simpa [Owned] using List.forall₂_drop (gs.filter (·.isOwned)).length h

theorem Owned.length_eq {gs : List (Strand σ)} {lines : List κ} (h : L.Owned gs lines) :
    (gs.filter (·.isOwned)).length = lines.length := List.Forall₂.length_eq h

theorem owned_cons_of_owned {g : Strand σ} {gs : List (Strand σ)} {lines : List κ}
    (hg : g.isOwned = true) (h : L.Owned (g :: gs) lines) :
    ∃ k rest, lines = k :: rest ∧ L.Records k g.connection ∧ L.Owned gs rest := by
  rw [Owned, List.filter_cons_of_pos (by simpa using hg), List.forall₂_cons_left_iff] at h
  obtain ⟨k, rest, hk, hrest, rfl⟩ := h
  exact ⟨k, rest, rfl, hk, hrest⟩

theorem owned_cons_iff_of_not_owned {g : Strand σ} {gs : List (Strand σ)} {lines : List κ}
    (hg : g.isOwned = false) : L.Owned (g :: gs) lines ↔ L.Owned gs lines := by
  rw [Owned, List.filter_cons_of_neg (by simp [hg]), Owned]

/-! ### Beginning -/

/-- The entries of lines that were begun in order, up to the first failure. -/
inductive Begins (L : Ledger κ ι σ) (s : σ) (lines : List κ) :
    Except StoreError Unit → List (Entry κ ι) → Prop
  | all : Begins L s lines (.ok ()) (lines.map .begun)
  | stopped {k : κ} {e : StoreError} : L.isOpen k s = false →
    Begins L s lines (.error e) (lines.map .begun ++ [.control k .begin (.error e)])

/-- Between `s` and `s'` these lines were opened, all of which were closed. -/
structure Opening (L : Ledger κ ι σ) (lines : List κ) (r : Except StoreError Unit)
    (s s' : σ) : Prop where
  nodup : lines.Nodup
  closed : ∀ k ∈ lines, L.isOpen k s = false
  isOpen : ∀ k, L.isOpen k s' = true ↔ L.isOpen k s = true ∨ k ∈ lines
  entries : ∃ es, L.entries s' = L.entries s ++ es ∧ Begins L s lines r es

theorem Opening.refl (s : σ) : L.Opening [] (.ok ()) s s where
  nodup := .nil
  closed := by simp
  isOpen := by simp
  entries := ⟨[], by simp, .all⟩

/-- Lines that are opened one after the other are distinct, since the first ones are open when the
    others are found closed. -/
theorem Opening.append {l l' : List κ} {r : Except StoreError Unit} {s s₁ s' : σ}
    (h : L.Opening l (.ok ()) s s₁) (h' : L.Opening l' r s₁ s') :
    L.Opening (l ++ l') r s s' where
  nodup := by
    refine List.nodup_append.2 ⟨h.nodup, h'.nodup, ?_⟩
    rintro k hk _ hk' rfl
    have hopen := (h.isOpen k).2 (.inr hk)
    rw [h'.closed k hk'] at hopen
    exact Bool.false_ne_true hopen
  closed k hk := by
    rcases List.mem_append.1 hk with hk | hk
    · exact h.closed k hk
    · have hk := h'.closed k hk
      exact Bool.eq_false_iff.2 fun hopen =>
        Bool.eq_false_iff.1 hk ((h.isOpen k).2 (.inl hopen))
  isOpen k := by rw [h'.isOpen k, h.isOpen k, List.mem_append, or_assoc]
  entries := by
    obtain ⟨es, hes, hb⟩ := h.entries
    obtain ⟨es', hes', hb'⟩ := h'.entries
    refine ⟨es ++ es', by rw [hes', hes, List.append_assoc], ?_⟩
    cases hb
    cases hb' with
    | all =>
      rw [← List.map_append]
      exact .all
    | stopped hk =>
      rw [← List.append_assoc, ← List.map_append]
      refine .stopped (Bool.eq_false_iff.2 fun hopen => ?_)
      exact Bool.eq_false_iff.1 hk ((h.isOpen _).2 (.inl hopen))

theorem Enters.opening {k : κ} {f : Act σ Unit} (h : L.Enters k .begin f) {s s' : σ}
    (hclosed : L.isOpen k s = false) (hf : f.perform s = (.ok (), s')) :
    L.Opening [k] (.ok ()) s s' where
  nodup := by simp
  closed j hj := by rwa [List.mem_singleton.1 hj]
  isOpen j := by
    have hgranted := h.granted s (by rw [hf])
    have hothers := h.others s j
    rw [hf] at hgranted hothers
    by_cases hj : j = k
    · subst hj
      simp [hgranted]
    · simp [hothers hj, hj]
  entries := by
    have hes := h.entries s
    rw [hf] at hes
    exact ⟨_, hes, .all⟩

theorem Enters.opening_failed {k : κ} {f : Act σ Unit} (h : L.Enters k .begin f) {s s' : σ}
    {e : StoreError} (hclosed : L.isOpen k s = false) (hf : f.perform s = (.error e, s')) :
    L.Opening [] (.error e) s s' where
  nodup := .nil
  closed := by simp
  isOpen j := by
    have hfailed := h.failed s e (by rw [hf])
    have hothers := h.others s j
    rw [hf] at hfailed hothers
    by_cases hj : j = k
    · subst hj
      simp [hfailed]
    · simp [hothers hj]
  entries := by
    have hes := h.entries s
    rw [hf] at hes
    exact ⟨_, hes, @Begins.stopped κ ι σ L s [] k e hclosed⟩

theorem owned_flatMap_nil {strands : α → List (Strand σ)} {as : List α}
    (h : ∀ a ∈ as, L.Owned (strands a) []) : L.Owned (as.flatMap strands) [] := by
  induction as with
  | nil => exact Owned.nil
  | cons a rest ih =>
    exact (h a List.mem_cons_self).append (ih fun b hb => h b (List.mem_cons_of_mem _ hb))

/-- A loop opens what its rounds open. Every element stands for strands that own nothing before its
    round, and keeps its body. -/
theorem each_opening (f : Act (σ × α) Unit) (strands : α → List (Strand σ)) (body : α → β)
    {as : List α} (hnew : ∀ a ∈ as, L.Owned (strands a) [])
    (hone : ∀ a ∈ as, ∀ s, ∃ lines, L.Opening lines (f.perform (s, a)).1 s (f.perform (s, a)).2.1 ∧
      L.Owned (strands (f.perform (s, a)).2.2) lines ∧ body (f.perform (s, a)).2.2 = body a)
    (s : σ) :
    ∃ lines, L.Opening lines (Act.each f as s).1 s (Act.each f as s).2.1 ∧
      L.Owned ((Act.each f as s).2.2.flatMap strands) lines ∧
      (Act.each f as s).2.2.map body = as.map body := by
  induction as generalizing s with
  | nil => exact ⟨[], .refl s, Owned.nil, rfl⟩
  | cons a rest ih =>
    obtain ⟨l, hl, howned, hbody⟩ := hone a List.mem_cons_self s
    rcases h : f.perform (s, a) with ⟨_ | _, s₁, a₁⟩ <;> rw [h] at hl howned hbody
    · -- The loop ends here, and the elements after this one own nothing.
      refine ⟨l, by simpa only [Act.each, h] using hl, ?_, by simp [Act.each, h, hbody]⟩
      have hrest := owned_flatMap_nil fun b hb => hnew b (List.mem_cons_of_mem a hb)
      simpa only [Act.each, h, List.flatMap_cons, List.append_nil] using howned.append hrest
    · obtain ⟨l', hl', howned', hbody'⟩ := ih (fun b hb => hnew b (List.mem_cons_of_mem _ hb))
        (fun b hb => hone b (List.mem_cons_of_mem _ hb)) s₁
      refine ⟨l ++ l', ?_, ?_, by simp [Act.each, h, hbody, hbody']⟩
      · simpa only [Act.each, h] using hl.append hl'
      · simpa only [Act.each, h, List.flatMap_cons] using howned.append howned'

/-- A strand opens its line if that is closed, and then owns it. -/
theorem begin_opening {g : Strand σ} {k : κ} (hk : L.Serves k g.connection)
    (hg : g.isOwned = false) (s : σ) :
    ∃ lines, L.Opening lines (Strand.begin.perform (s, g)).1 s (Strand.begin.perform (s, g)).2.1 ∧
      L.Owned [(Strand.begin.perform (s, g)).2.2] lines ∧
      (Strand.begin.perform (s, g)).2.2.units = g.units := by
  have hnone : L.Owned [g] [] := owned_nil_of_forall (by simpa using hg)
  simp only [Strand.begin, Act.perform_make, hk.inTransaction]
  split
  · -- The transaction is the caller's.
    exact ⟨[], .refl s, hnone, rfl⟩
  · next hclosed =>
    rw [Bool.not_eq_true] at hclosed
    rcases hf : g.connection.begin.perform s with ⟨_ | _, s'⟩
    · exact ⟨[], hk.begin.opening_failed hclosed hf, hnone, rfl⟩
    · exact ⟨[k], hk.begin.opening hclosed hf, .cons hk.records .nil, rfl⟩

/-- What beginning a transaction does, given that its strands are new. -/
theorem transactionBegin_opening {t : Transaction σ} (hnew : ∀ g ∈ t.strands, g.isOwned = false)
    (hserves : ∀ g ∈ t.strands, ∃ k, L.Serves k g.connection) (s : σ) :
    ∃ lines, L.Opening lines (Transaction.begin.perform (s, t)).1 s
        (Transaction.begin.perform (s, t)).2.1 ∧
      L.Owned (Transaction.begin.perform (s, t)).2.2.strands lines ∧
      ((Transaction.begin.perform (s, t)).2.2.run,
        (Transaction.begin.perform (s, t)).2.2.isConnected) = (t.run, t.isConnected) := by
  cases t with
  | plain units => exact ⟨[], .refl s, Owned.nil, rfl⟩
  | connected strands =>
    obtain ⟨lines, hl, howned, hunits⟩ := each_opening Strand.begin (fun g => [g])
      (·.units)
      (fun g hg => owned_nil_of_forall (by simpa using hnew g hg))
      (fun g hg s => by
        obtain ⟨k, hk⟩ := hserves g hg
        exact begin_opening hk (hnew g hg) s) s
    rw [List.flatMap_singleton'] at howned
    refine ⟨lines, hl, howned, ?_⟩
    exact congrArg (fun units : List (List (WorkUnit σ)) =>
      (WorkUnit.runAll units.flatten, true)) hunits

/-! ### Committing -/

/-- The entries of owned lines that were committed in order, up to the first failure, whose error is
    reported as `blame` says for the number of lines that were committed before. The lines that are
    still owned come third. -/
inductive Closing (lines : List κ) (blame : Nat → StoreError → StoreError → Prop) :
    Except StoreError Unit → List (Entry κ ι) → List κ → Prop
  | all : Closing lines blame (.ok ()) (lines.map .committed) []
  | stopped {done rest : List κ} {k : κ} {e report : StoreError} :
    lines = done ++ k :: rest → blame done.length e report →
    Closing lines blame (.error report) (done.map .committed ++ [.control k .commit (.error e)])
      (k :: rest)

/-- Lines that were committed before, and lines that are not reached. -/
theorem Closing.append {l : List κ} {blame blame' : Nat → StoreError → StoreError → Prop}
    {r : Except StoreError Unit} {es : List (Entry κ ι)} {left : List κ} (before : List κ)
    (h : Closing l blame r es left)
    (hblame : ∀ n e report, blame n e report → blame' (before.length + n) e report) :
    Closing (before ++ l) blame' r (before.map .committed ++ es) left := by
  cases h with
  | all =>
    rw [← List.map_append]
    exact .all
  | @stopped done rest k e report hl hb =>
    rw [← List.append_assoc, ← List.map_append]
    refine .stopped (by rw [hl, List.append_assoc]) ?_
    rw [List.length_append]
    exact hblame _ _ _ hb

/-- The report of a commit that failed among strands, `n` of which were committed before. -/
def StrandBlame (n total : Nat) (i : Nat) (e report : StoreError) : Prop :=
  report = e.afterCommits (n + i) total

theorem strands_closing {gs : List (Strand σ)} {lines : List κ} (h : L.Owned gs lines)
    (total n : Nat) (s : σ) :
    ∃ es left, L.entries (Strand.commitAll total n gs s).2.1 = L.entries s ++ es ∧
      Closing lines (StrandBlame n total) (Strand.commitAll total n gs s).1 es left ∧
      L.Owned (Strand.commitAll total n gs s).2.2 left := by
  induction gs generalizing n lines s with
  | nil =>
    cases h
    exact ⟨[], [], by simp [Strand.commitAll], .all, Owned.nil⟩
  | cons g rest ih =>
    by_cases hg : g.isOwned = true
    · obtain ⟨k, lines, rfl, hk, hrest⟩ := owned_cons_of_owned hg h
      have hentry := hk.commit s
      rcases hf : g.connection.commit.perform s with ⟨e | _, s'⟩ <;> rw [hf] at hentry
      · -- The line that fails is still owned, and so are those after it.
        refine ⟨[.control k .commit (.error e)], k :: lines, ?_, ?_, ?_⟩
        · simpa [Strand.commitAll, hg, hf] using hentry
        · simp only [Strand.commitAll, hg, hf, if_true]
          exact @Closing.stopped κ ι _ _ [] lines k e _ rfl rfl
        · simpa only [Strand.commitAll, hg, hf, if_true] using h
      · -- The line is given up, and counts in the reports of those after it.
        obtain ⟨es, left, hes, hclosing, howned⟩ := ih hrest (n + 1) s'
        refine ⟨.committed k :: es, left, ?_, ?_, ?_⟩
        · simp [Strand.commitAll, hg, hf, hes, hentry]
        · simp only [Strand.commitAll, hg, hf, if_true]
          refine hclosing.append [k] fun i e report hb => ?_
          rw [StrandBlame, hb, List.length_singleton, Nat.add_assoc]
        · simp only [Strand.commitAll, hg, hf, if_true]
          exact (owned_cons_iff_of_not_owned rfl).2 howned
    · rw [Bool.not_eq_true] at hg
      obtain ⟨es, left, hes, hclosing, howned⟩ :=
        ih ((owned_cons_iff_of_not_owned hg).1 h) n s
      refine ⟨es, left, ?_, ?_, ?_⟩
      · simpa [Strand.commitAll, hg] using hes
      · simpa [Strand.commitAll, hg] using hclosing
      · simpa [Strand.commitAll, hg, owned_cons_iff_of_not_owned hg] using howned

/-- What committing a transaction does. Only a connected one can fail, and its report counts the
    lines that it owns. -/
theorem transactionCommit_closing {t : Transaction σ} {lines : List κ} (h : L.Owned t.strands lines)
    (s : σ) :
    ∃ es left, L.entries (Transaction.commit.perform (s, t)).2.1 = L.entries s ++ es ∧
      Closing lines (StrandBlame 0 lines.length) (Transaction.commit.perform (s, t)).1 es left ∧
      L.Owned (Transaction.commit.perform (s, t)).2.2.strands left := by
  cases t with
  | plain units =>
    cases h
    exact ⟨[], [], by simp [Transaction.commit], .all, Owned.nil⟩
  | connected strands =>
    obtain ⟨es, left, hes, hclosing, howned⟩ := strands_closing h lines.length 0 s
    rw [← h.length_eq] at hes hclosing howned ⊢
    exact ⟨es, left, hes, hclosing, howned⟩

/-- The report of a commit that failed in a chain of which `index` transactions of `total` were
    committed before, and `i` of its own lines: the transaction of the failing line has number `j`,
    and `n` of its `size` lines were committed. -/
inductive ChainBlame (ts : List (Transaction σ)) (index total i : Nat) (e : StoreError) :
    StoreError → Prop
  | intro {j n size : Nat} : (ts.map (·.isConnected))[j]? = some true → n < size → n ≤ i →
    (j = 0 → n = i) →
    ChainBlame ts index total i e ((e.afterCommits n size).afterCommits (index + j) total)

theorem chain_closing {ts : List (Transaction σ)} {lines : List κ}
    (h : L.Owned (ts.flatMap (·.strands)) lines) (index total : Nat) (s : σ) :
    ∃ es left, L.entries (Chain.commitAll total index ts s).2.1 = L.entries s ++ es ∧
      Closing lines (ChainBlame ts index total) (Chain.commitAll total index ts s).1 es left ∧
      L.Owned ((Chain.commitAll total index ts s).2.2.flatMap (·.strands)) left := by
  induction ts generalizing index lines s with
  | nil =>
    cases h
    exact ⟨[], [], by simp [Chain.commitAll], .all, Owned.nil⟩
  | cons t rest ih =>
    rw [List.flatMap_cons] at h
    obtain ⟨l, l', rfl, hl, hl'⟩ := h.exists_append
    obtain ⟨es, left, hes, hclosing, howned⟩ := transactionCommit_closing hl s
    rcases hf : Transaction.commit.perform (s, t) with ⟨e | _, s₁, t₁⟩ <;>
      rw [hf] at hes hclosing howned
    · -- The line of the failing call is the first of `t` that is still owned.
      cases hclosing with
      | @stopped done left' k e' _ hlines hb =>
        refine ⟨_, k :: (left' ++ l'), by simpa [Chain.commitAll, hf] using hes, ?_, ?_⟩
        · simp only [Chain.commitAll, hf]
          refine .stopped (by rw [hlines, List.append_assoc, List.cons_append]) ?_
          have hconnected : t.isConnected = true := by
            cases t with
            | connected strands => rfl
            | plain units =>
              cases hl
              simp at hlines
          have hsize : done.length < l.length := by simp [hlines]
          rw [StrandBlame, Nat.zero_add] at hb
          have hblame : ChainBlame (t :: rest) index total done.length e'
              ((e'.afterCommits done.length l.length).afterCommits (index + 0) total) :=
            .intro (by simp [hconnected]) hsize (Nat.le_refl _) fun _ => rfl
          rwa [← hb, Nat.add_zero] at hblame
        · simpa only [Chain.commitAll, hf, List.flatMap_cons, List.cons_append]
            using howned.append hl'
    · cases hclosing with
      | all =>
        -- All lines of `t` are committed, so a later transaction fails after `t`.
        obtain ⟨es', left', hes', hclosing', howned'⟩ := ih hl' (index + 1) s₁
        refine ⟨l.map .committed ++ es', left', ?_, ?_, ?_⟩
        · simp [Chain.commitAll, hf, hes', hes]
        · simp only [Chain.commitAll, hf]
          refine hclosing'.append l fun i e report hb => ?_
          cases hb with
          | @intro j n size hj hn hi hzero =>
            rw [Nat.add_assoc, Nat.add_comm 1 j]
            exact .intro (by rwa [List.map_cons, List.getElem?_cons_succ]) hn (by omega) (by omega)
        · simpa only [Chain.commitAll, hf, List.flatMap_cons, List.nil_append]
            using howned.append howned'

/-! ### Rolling back -/

/-- The entries of owned lines that were rolled back in order, whatever came of each. -/
def Undoing (lines : List κ) (es : List (Entry κ ι)) : Prop :=
  List.Forall₂ (fun k x => ∃ r, x = .control k .rollback r) lines es

theorem strands_undoing {gs : List (Strand σ)} {lines : List κ} (h : L.Owned gs lines) (s : σ) :
    ∃ es, L.entries (Strand.undoAll gs s).2.1 = L.entries s ++ es ∧ Undoing lines es := by
  induction gs generalizing lines s with
  | nil =>
    cases h
    exact ⟨[], by simp [Strand.undoAll], .nil⟩
  | cons g rest ih =>
    by_cases hg : g.isOwned = true
    · obtain ⟨k, lines, rfl, hk, hrest⟩ := owned_cons_of_owned hg h
      -- The loop goes on whatever comes of the call.
      obtain ⟨es, hes, hundoing⟩ := ih hrest (g.connection.rollback.perform s).2
      refine ⟨_ :: es, ?_, .cons ⟨(g.connection.rollback.perform s).1, rfl⟩ hundoing⟩
      simp [Strand.undoAll, hg, hes, hk.rollback s]
    · rw [Bool.not_eq_true] at hg
      obtain ⟨es, hes, hundoing⟩ := ih ((owned_cons_iff_of_not_owned hg).1 h) s
      exact ⟨es, by simpa [Strand.undoAll, hg] using hes, hundoing⟩

theorem chain_undoing {ts : List (Transaction σ)} {lines : List κ}
    (h : L.Owned (ts.flatMap (·.strands)) lines) (s : σ) :
    ∃ es, L.entries (Chain.undoAll ts s) = L.entries s ++ es ∧ Undoing lines es := by
  induction ts generalizing lines s with
  | nil =>
    cases h
    exact ⟨[], by simp [Chain.undoAll], .nil⟩
  | cons t rest ih =>
    rw [List.flatMap_cons] at h
    obtain ⟨l, l', rfl, hl, hl'⟩ := h.exists_append
    have ht : ∃ es, L.entries (Transaction.rollback.perform (s, t)).2.1 = L.entries s ++ es ∧
        Undoing l es := by
      cases t with
      | plain units =>
        cases hl
        exact ⟨[], by simp [Transaction.rollback], .nil⟩
      | connected strands => exact strands_undoing hl s
    obtain ⟨es, hes, hundoing⟩ := ht
    obtain ⟨es', hes', hundoing'⟩ := ih hl' (Transaction.rollback.perform (s, t)).2.1
    exact ⟨es ++ es', by rw [Chain.undoAll, hes', hes, List.append_assoc],
      List.rel_append hundoing hundoing'⟩

end Ledger

end RecordStore
