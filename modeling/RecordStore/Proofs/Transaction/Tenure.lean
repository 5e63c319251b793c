import RecordStore.Proofs.Transaction.Arrangement
import RecordStore.Proofs.Transaction.Pairing

/-!
# Who holds a connection

A connected transaction may be called in any order and any number of times: begun once more after a
beginning that failed, committed again after a commit that stopped half-way, rolled back twice. It
keeps to one rule all the same. A connection is *held* from the last beginning that succeeded up to
a commit that succeeds or an attempt to roll back (`Ledger.IsHeld`); it is owned as long as it is
held, and only while it is held it is asked to commit or to roll back
(`Transaction.owns_while_held`).

* What one line goes through is a *tenure* (`Ledger.Tenure`), a run of two states. Its end is told
  by the entries alone (`Ledger.Tenure.isHeld_iff`).
* One strand's turn in a loop is a tenure of its line and leaves the others alone, and turns on
  different lines go together (`Ledger.Manages.cons`). So each of the loops that begin, commit and
  roll back is a tenure of every line, and so is any sequence of calls (`Ledger.Manages.trans`).
* A connection that is in a transaction of somebody else is not held, so nothing is asked of it,
  and it is still in that transaction after each call.
-/

namespace RecordStore

variable {ι σ : Type}

namespace Ledger

section Tenure

variable {κ : Type} [DecidableEq κ]

/-- Whether this line received a request. -/
def Entry.asksAny (k : κ) : Entry κ ι → Bool
  | .control j _ _ => j = k
  | _ => false

@[simp]
theorem Entry.asksAny_control (j k : κ) (q : Request) (r : Except StoreError Unit) :
    (control j q r : Entry κ ι).asksAny k = decide (j = k) := rfl

/-- A line is neither begun nor ended. -/
def Untouched (k : κ) (es : List (Entry κ ι)) : Prop :=
  ∀ x ∈ es, x.grants .begin k = false ∧ x.ends k = false

/-- A line was begun, and has been neither begun nor ended since. -/
def IsHeld (k : κ) (es : List (Entry κ ι)) : Prop :=
  ∃ before x after, es = before ++ x :: after ∧ x.grants .begin k = true ∧ Untouched k after

/-- What a line goes through, from whether it is held to whether it is held. A line that is not held
    is neither committed nor rolled back. -/
inductive Tenure (k : κ) : Bool → List (Entry κ ι) → Bool → Prop
  | nil {held : Bool} : Tenure k held [] held
  | other {held held' : Bool} {x : Entry κ ι} {es : List (Entry κ ι)} : x.asksAny k = false →
    Tenure k held es held' → Tenure k held (x :: es) held'
  | begun {held held' : Bool} {es : List (Entry κ ι)} :
    Tenure k true es held' → Tenure k held (.begun k :: es) held'
  | refused {held held' : Bool} {e : StoreError} {es : List (Entry κ ι)} :
    Tenure k held es held' → Tenure k held (.control k .begin (.error e) :: es) held'
  | committed {held' : Bool} {es : List (Entry κ ι)} :
    Tenure k false es held' → Tenure k true (.committed k :: es) held'
  | kept {held' : Bool} {e : StoreError} {es : List (Entry κ ι)} :
    Tenure k true es held' → Tenure k true (.control k .commit (.error e) :: es) held'
  | undone {held' : Bool} {r : Except StoreError Unit} {es : List (Entry κ ι)} :
    Tenure k false es held' → Tenure k true (.control k .rollback r :: es) held'

variable {k : κ} {held held' : Bool} {x : Entry κ ι} {es fs : List (Entry κ ι)}

theorem Entry.asks_of_asksAny (h : x.asksAny k = false) (q : Request) : x.asks q k = false := by
  cases x with
  | control j q' r => simp_all
  | statement | step => rfl

theorem Entry.untouched_of_asksAny (h : x.asksAny k = false) :
    x.grants .begin k = false ∧ x.ends k = false := by
  refine ⟨grants_eq_false (asks_of_asksAny h .begin), ?_⟩
  rw [ends, grants_eq_false (asks_of_asksAny h .commit), asks_of_asksAny h .rollback]
  rfl

theorem Entry.asksAny_of_quiet (h : x.isControl = false) (k : κ) : x.asksAny k = false := by
  cases x with
  | control => simp [isControl] at h
  | statement | step => rfl

@[simp]
theorem untouched_nil (k : κ) : Untouched k ([] : List (Entry κ ι)) := fun _ hx => by simp at hx

@[simp]
theorem untouched_cons : Untouched k (x :: es) ↔
    (x.grants .begin k = false ∧ x.ends k = false) ∧ Untouched k es := List.forall_mem_cons

@[simp]
theorem not_isHeld_nil (k : κ) : ¬ IsHeld k ([] : List (Entry κ ι)) := by
  rintro ⟨before, x, after, heq, -⟩
  simp at heq

theorem isHeld_cons :
    IsHeld k (x :: es) ↔ IsHeld k es ∨ (x.grants .begin k = true ∧ Untouched k es) := by
  constructor
  · rintro ⟨before, y, after, heq, hy, hafter⟩
    cases before with
    | nil =>
      obtain ⟨rfl, rfl⟩ := List.cons.inj heq
      exact .inr ⟨hy, hafter⟩
    | cons z before => exact .inl ⟨before, y, after, (List.cons.inj heq).2, hy, hafter⟩
  · rintro (⟨before, y, after, rfl, hy, hafter⟩ | ⟨hx, hes⟩)
    · exact ⟨x :: before, y, after, rfl, hy, hafter⟩
    · exact ⟨[], x, es, rfl, hx, hes⟩

namespace Tenure

theorem append {mid : Bool} (h : Tenure k held es mid) (h' : Tenure k mid fs held') :
    Tenure k held (es ++ fs) held' := by
  induction h with
  | nil => exact h'
  | other hx _ ih => exact .other hx (ih h')
  | begun _ ih => exact .begun (ih h')
  | refused _ ih => exact .refused (ih h')
  | committed _ ih => exact .committed (ih h')
  | kept _ ih => exact .kept (ih h')
  | undone _ ih => exact .undone (ih h')

theorem of_unasked (h : ∀ x ∈ es, x.asksAny k = false) : Tenure k held es held := by
  induction es with
  | nil => exact .nil
  | cons x es ih =>
    obtain ⟨hx, hes⟩ := List.forall_mem_cons.1 h
    exact .other hx (ih hes)

theorem exists_mid (h : Tenure k held (es ++ fs) held') :
    ∃ mid, Tenure k held es mid ∧ Tenure k mid fs held' := by
  induction es generalizing held with
  | nil => exact ⟨held, .nil, h⟩
  | cons x es ih =>
    cases h with
    | other hx h => exact (ih h).imp fun _ => And.imp_left (.other hx)
    | begun h => exact (ih h).imp fun _ => And.imp_left .begun
    | refused h => exact (ih h).imp fun _ => And.imp_left .refused
    | committed h => exact (ih h).imp fun _ => And.imp_left .committed
    | kept h => exact (ih h).imp fun _ => And.imp_left .kept
    | undone h => exact (ih h).imp fun _ => And.imp_left .undone

/-- Whether a line is held at the end: it was begun and is held since, or it was held before and has
    not been touched. -/
theorem isHeld_iff (h : Tenure k held es held') :
    held' = true ↔ IsHeld k es ∨ (held = true ∧ Untouched k es) := by
  -- What the first entry makes of the line counts only if the rest does not touch it.
  induction h with
  | nil => simp
  | other hx _ ih => rw [ih, isHeld_cons, untouched_cons]; simp [Entry.untouched_of_asksAny hx]
  | begun _ ih => rw [ih, isHeld_cons, untouched_cons]; simp
  | refused _ ih => rw [ih, isHeld_cons, untouched_cons]; simp
  | committed _ ih => rw [ih, isHeld_cons, untouched_cons]; simp
  | kept _ ih => rw [ih, isHeld_cons, untouched_cons]; simp
  | undone _ ih => rw [ih, isHeld_cons, untouched_cons]; simp

/-- A line that is asked to commit or to roll back is held. -/
theorem held_of_asks (h : Tenure k held (x :: es) held')
    (hx : x.asks .commit k = true ∨ x.asks .rollback k = true) : held = true := by
  cases h with
  | other hasks => simp [Entry.asks_of_asksAny hasks] at hx
  | begun | refused => simp at hx
  | committed | kept | undone => rfl

end Tenure

end Tenure

/-! ### What is known of connections -/

variable {L : Ledger ConnectionId ι σ}

/-- A call that is entered as this request to this line, and ends no transaction of another one. -/
structure Notes (L : Ledger ConnectionId ι σ) (id : ConnectionId) (q : Request)
    (f : Act σ Unit) : Prop where
  entries : ∀ s, L.entries (f.perform s).2 = L.entries s ++ [.control id q (f.perform s).1]
  others : ∀ s id', id' ≠ id → L.isOpen id' s = true → L.isOpen id' (f.perform s).2 = true

/-- A connection whose calls are entered for its identity. It may be in a transaction without being
    counted as open, but not the other way round. Nothing is said of what its calls do to its own
    transaction. -/
structure Watches (L : Ledger ConnectionId ι σ) (c : Connection σ) : Prop where
  inTransaction : ∀ s, L.isOpen c.id s = true → c.inTransaction s = true
  begin : L.Notes c.id .begin c.begin
  commit : L.Notes c.id .commit c.commit
  rollback : L.Notes c.id .rollback c.rollback

/-- Work that leaves all transactions as they are and asks nothing of any line. -/
structure IsQuiet (L : Ledger ConnectionId ι σ) (f : Act σ Unit) : Prop where
  isOpen : ∀ s id, L.isOpen id (f.perform s).2 = L.isOpen id s
  entries : ∀ s, ∃ es, L.entries (f.perform s).2 = L.entries s ++ es ∧
    ∀ x ∈ es, x.isControl = false

theorem isQuiet_pure : L.IsQuiet (pure ()) :=
  ⟨fun _ _ => rfl, fun _ => ⟨[], (List.append_nil _).symm, fun _ hx => absurd hx List.not_mem_nil⟩⟩

theorem IsQuiet.andThen {f g : Act σ Unit} (hf : L.IsQuiet f) (hg : L.IsQuiet g) :
    L.IsQuiet (do f; g) where
  isOpen s id := by
    have hfirst := hf.isOpen s id
    rw [Act.perform_bind]
    rcases h : f.perform s with ⟨_ | _, s'⟩ <;> rw [h] at hfirst
    · exact hfirst
    · exact (hg.isOpen s' id).trans hfirst
  entries s := by
    obtain ⟨es, hes, hquiet⟩ := hf.entries s
    rw [Act.perform_bind]
    rcases h : f.perform s with ⟨_ | _, s'⟩ <;> rw [h] at hes
    · exact ⟨es, hes, hquiet⟩
    · obtain ⟨fs, hfs, hquiet'⟩ := hg.entries s'
      refine ⟨es ++ fs, ?_, List.forall_mem_append.2 ⟨hquiet, hquiet'⟩⟩
      rw [hfs, hes, List.append_assoc]

theorem isQuiet_runAll {units : List (WorkUnit σ)} (h : ∀ u ∈ units, L.IsQuiet u.run) :
    L.IsQuiet (WorkUnit.runAll units) := by
  induction units with
  | nil => exact isQuiet_pure
  | cons u rest ih =>
    obtain ⟨hu, hrest⟩ := List.forall_mem_cons.1 h
    exact hu.andThen (ih hrest)

/-- Whether one of the strands owns a connection. -/
def anyOwns (gs : List (Strand σ)) (id : ConnectionId) : Bool :=
  gs.any fun g => g.isOwned && g.connection.id = id

@[simp]
theorem anyOwns_cons (g : Strand σ) (gs : List (Strand σ)) (id : ConnectionId) :
    anyOwns (g :: gs) id = (g.isOwned && decide (g.connection.id = id) || anyOwns gs id) :=
  List.any_cons

theorem anyOwns_eq_false {gs : List (Strand σ)} {id : ConnectionId}
    (h : id ∉ gs.map (·.connection.id)) : anyOwns gs id = false := by
  refine List.any_eq_false.2 fun g hg howns => h (List.mem_map.2 ⟨g, hg, ?_⟩)
  rw [Bool.and_eq_true] at howns
  exact of_decide_eq_true howns.2

/-- What strands do with their lines between `s` and `s'`, which is told by these entries. -/
structure Manages (L : Ledger ConnectionId ι σ) (gs : List (Strand σ)) (s : σ)
    (es : List (Entry ConnectionId ι)) (gs' : List (Strand σ)) (s' : σ) : Prop where
  entries : L.entries s' = L.entries s ++ es
  bodies : gs'.map (fun g => (g.connection, g.units)) = gs.map fun g => (g.connection, g.units)
  tenure : ∀ id, Tenure id (anyOwns gs id) es (anyOwns gs' id)
  outside : ∀ id ∉ gs.map (·.connection.id), ∀ x ∈ es, x.asksAny id = false
  spared : ∀ id, anyOwns gs id = false → L.isOpen id s = true →
    L.isOpen id s' = true ∧ ∀ x ∈ es, x.asksAny id = false

variable {gs gs' rest rest' : List (Strand σ)} {g g' : Strand σ} {s s₁ s' : σ}
  {es fs : List (Entry ConnectionId ι)}

namespace Manages

theorem refl (gs : List (Strand σ)) (s : σ) : L.Manages gs s [] gs s where
  entries := (List.append_nil _).symm
  bodies := rfl
  tenure _ := .nil
  outside _ _ _ hx := absurd hx List.not_mem_nil
  spared _ _ hopen := ⟨hopen, fun _ hx => absurd hx List.not_mem_nil⟩

theorem ids (h : L.Manages gs s es gs' s') :
    gs'.map (·.connection.id) = gs.map (·.connection.id) := by
  have hids := congrArg (List.map fun body => body.1.id) h.bodies
  rwa [List.map_map, List.map_map] at hids

theorem trans (h : L.Manages gs s es gs' s₁) {gs'' : List (Strand σ)}
    (h' : L.Manages gs' s₁ fs gs'' s') : L.Manages gs s (es ++ fs) gs'' s' where
  entries := by rw [h'.entries, h.entries, List.append_assoc]
  bodies := h'.bodies.trans h.bodies
  tenure id := (h.tenure id).append (h'.tenure id)
  outside id hid := List.forall_mem_append.2 ⟨h.outside id hid, h'.outside id (h.ids ▸ hid)⟩
  spared id howns hopen := by
    obtain ⟨hopen', hes⟩ := h.spared id howns hopen
    have howns' : anyOwns gs' id = false := by
      -- A line that is not asked for anything keeps its state.
      have hheld := (h.tenure id).isHeld_iff
      rw [howns] at hheld
      refine Bool.eq_false_iff.2 fun hall => ?_
      rcases hheld.1 hall with ⟨before, x, after, rfl, hx, -⟩ | ⟨hfalse, -⟩
      · have hquiet := Entry.untouched_of_asksAny (hes x (by simp))
        exact Bool.false_ne_true (hquiet.1.symm.trans hx)
      · exact Bool.false_ne_true hfalse
    obtain ⟨hopen'', hfs⟩ := h'.spared id howns' hopen'
    exact ⟨hopen'', List.forall_mem_append.2 ⟨hes, hfs⟩⟩

/-- One strand takes its turn, and then the others, which are on other lines. -/
theorem cons (h : L.Manages [g] s es [g'] s₁) (h' : L.Manages rest s₁ fs rest' s')
    (hid : g.connection.id ∉ rest.map (·.connection.id)) :
    L.Manages (g :: rest) s (es ++ fs) (g' :: rest') s' := by
  have hg' : g'.connection.id = g.connection.id := by simpa using h.ids
  refine ⟨by rw [h'.entries, h.entries, List.append_assoc], ?_, fun id => ?_, fun id hout => ?_,
    fun id howns hopen => ?_⟩
  · rw [List.map_cons, List.map_cons, h'.bodies]
    exact congrArg (· :: _) (List.cons.inj h.bodies).1
  · -- The others do not ask for anything on the line of this strand, nor it on theirs.
    by_cases heq : g.connection.id = id
    · subst heq
      have htenure := h.tenure g.connection.id
      have hquiet := h'.outside g.connection.id hid
      rw [anyOwns_cons, anyOwns_cons, anyOwns_eq_false hid, anyOwns_eq_false (h'.ids ▸ hid)]
      exact htenure.append (.of_unasked hquiet)
    · have hquiet := h.outside id (by simpa using Ne.symm heq)
      have htenure := h'.tenure id
      rw [anyOwns_cons, anyOwns_cons, hg', decide_eq_false heq, Bool.and_false, Bool.and_false,
        Bool.false_or, Bool.false_or]
      exact (Tenure.of_unasked hquiet).append htenure
  · rw [List.map_cons, List.mem_cons, not_or] at hout
    exact List.forall_mem_append.2 ⟨h.outside id (by simpa using hout.1), h'.outside id hout.2⟩
  · rw [anyOwns_cons, Bool.or_eq_false_iff] at howns
    obtain ⟨hopen', hes⟩ := h.spared id (by simpa [anyOwns] using howns.1) hopen
    obtain ⟨hopen'', hfs⟩ := h'.spared id howns.2 hopen'
    exact ⟨hopen'', List.forall_mem_append.2 ⟨hes, hfs⟩⟩

theorem of_isQuiet {f : Act σ Unit} (h : L.IsQuiet f) (gs : List (Strand σ)) (s : σ) :
    ∃ es, L.Manages gs s es gs (f.perform s).2 := by
  obtain ⟨es, hes, hquiet⟩ := h.entries s
  have hunasked : ∀ id, ∀ x ∈ es, x.asksAny id = false := fun id x hx =>
    Entry.asksAny_of_quiet (hquiet x hx) id
  exact ⟨es, hes, rfl, fun id => .of_unasked (hunasked id), fun id _ => hunasked id,
    fun id _ hopen => ⟨(h.isOpen s id).trans hopen, hunasked id⟩⟩

end Manages

/-- A call of a strand on its line, after which the strand owns the line or not, as the tenure of
    that line says. A line that is open and not owned is not called. -/
theorem Notes.manages {q : Request} {f : Act σ Unit} (h : L.Notes g.connection.id q f)
    (isOwned : Bool) (hopen : g.isOwned = false → L.isOpen g.connection.id s = false)
    (htenure : Tenure g.connection.id g.isOwned
      [(.control g.connection.id q (f.perform s).1 : Entry ConnectionId ι)] isOwned) :
    L.Manages [g] s [.control g.connection.id q (f.perform s).1] [{ g with isOwned }]
      (f.perform s).2 where
  entries := h.entries s
  bodies := rfl
  tenure id := by
    by_cases heq : g.connection.id = id
    · subst heq
      simpa [anyOwns] using htenure
    · simpa [anyOwns, heq] using Tenure.of_unasked (by simpa using heq)
  outside id hid := by
    rw [List.map_singleton, List.mem_singleton] at hid
    simpa using Ne.symm hid
  spared id howns hid := by
    have hne : id ≠ g.connection.id := by
      rintro rfl
      have hg : g.isOwned = false := by simpa [anyOwns] using howns
      exact Bool.false_ne_true ((hopen hg).symm.trans hid)
    exact ⟨h.others s id hne hid, by simpa using hne.symm⟩

/-! ### The loops over the strands -/

theorem begin_manages (hg : L.Watches g.connection) (s : σ) :
    ∃ es, L.Manages [g] s es [(Strand.begin.perform (s, g)).2.2]
      (Strand.begin.perform (s, g)).2.1 := by
  simp only [Strand.begin, Act.perform_make]
  by_cases hin : g.connection.inTransaction s = true
  · -- The transaction is another's, or was opened here before.
    rw [if_pos hin]
    exact ⟨[], .refl [g] s⟩
  · have hclosed : L.isOpen g.connection.id s = false :=
      Bool.eq_false_iff.2 (mt (hg.inTransaction s) hin)
    rw [if_neg hin]
    have hmanages := fun isOwned => @hg.begin.manages _ _ _ g s _ _ isOwned fun _ => hclosed
    rcases hf : g.connection.begin.perform s with ⟨e | _, s'⟩ <;> rw [hf] at hmanages
    · exact ⟨_, hmanages g.isOwned (.refused .nil)⟩
    · exact ⟨_, hmanages true (.begun .nil)⟩

/-- A loop over strands manages their lines if each of its rounds does. -/
theorem beginAll_manages (hnodup : (gs.map (·.connection.id)).Nodup)
    (hgs : ∀ g ∈ gs, L.Watches g.connection) (s : σ) :
    ∃ es, L.Manages gs s es (Act.each Strand.begin gs s).2.2
      (Act.each Strand.begin gs s).2.1 := by
  induction gs generalizing s with
  | nil => exact ⟨[], .refl [] s⟩
  | cons g rest ih =>
    obtain ⟨hid, hnodup⟩ := List.nodup_cons.1 hnodup
    obtain ⟨hg, hrest⟩ := List.forall_mem_cons.1 hgs
    obtain ⟨es, hes⟩ := begin_manages hg s
    rcases hf : Strand.begin.perform (s, g) with ⟨_ | _, s₁, g'⟩ <;> rw [hf] at hes <;>
      simp only [Act.each, hf]
    · exact ⟨_, hes.cons (.refl rest s₁) hid⟩
    · obtain ⟨fs, hfs⟩ := ih hnodup hrest s₁
      exact ⟨_, hes.cons hfs hid⟩

theorem commitAll_manages (hnodup : (gs.map (·.connection.id)).Nodup)
    (hgs : ∀ g ∈ gs, L.Watches g.connection) (total n : Nat) (s : σ) :
    ∃ es, L.Manages gs s es (Strand.commitAll total n gs s).2.2
      (Strand.commitAll total n gs s).2.1 := by
  induction gs generalizing n s with
  | nil => exact ⟨[], .refl [] s⟩
  | cons g rest ih =>
    obtain ⟨hid, hnodup⟩ := List.nodup_cons.1 hnodup
    obtain ⟨hg, hrest⟩ := List.forall_mem_cons.1 hgs
    by_cases howned : g.isOwned = true
    · have hmanages := fun isOwned => @hg.commit.manages _ _ _ g s _ _ isOwned fun hfalse =>
        absurd (hfalse.symm.trans howned) Bool.false_ne_true
      rw [howned] at hmanages
      rcases hf : g.connection.commit.perform s with ⟨e | _, s₁⟩ <;> rw [hf] at hmanages <;>
        simp only [Strand.commitAll, howned, hf, if_true]
      · -- A commit that failed ends the loop, and leaves the strand its line.
        have hkept := hmanages true (.kept .nil)
        rw [← howned] at hkept
        exact ⟨_, hkept.cons (.refl rest s₁) hid⟩
      · obtain ⟨fs, hfs⟩ := ih hnodup hrest (n + 1) s₁
        exact ⟨_, (hmanages false (.committed .nil)).cons hfs hid⟩
    · obtain ⟨fs, hfs⟩ := ih hnodup hrest n s
      simp only [Strand.commitAll, howned]
      exact ⟨_, (Manages.refl [g] s).cons hfs hid⟩

theorem undoAll_manages (hnodup : (gs.map (·.connection.id)).Nodup)
    (hgs : ∀ g ∈ gs, L.Watches g.connection) (s : σ) :
    ∃ es, L.Manages gs s es (Strand.undoAll gs s).2.2 (Strand.undoAll gs s).2.1 := by
  induction gs generalizing s with
  | nil => exact ⟨[], .refl [] s⟩
  | cons g rest ih =>
    obtain ⟨hid, hnodup⟩ := List.nodup_cons.1 hnodup
    obtain ⟨hg, hrest⟩ := List.forall_mem_cons.1 hgs
    by_cases howned : g.isOwned = true
    · have hmanages := @hg.rollback.manages _ _ _ g s _ _ false (fun hfalse =>
        absurd (hfalse.symm.trans howned) Bool.false_ne_true) (howned ▸ .undone .nil)
      obtain ⟨fs, hfs⟩ := ih hnodup hrest (g.connection.rollback.perform s).2
      simp only [Strand.undoAll, howned, if_true]
      exact ⟨_, hmanages.cons hfs hid⟩
    · obtain ⟨fs, hfs⟩ := ih hnodup hrest s
      simp only [Strand.undoAll, howned]
      exact ⟨_, (Manages.refl [g] s).cons hfs hid⟩

end Ledger

/-! ### Calls in any order -/

namespace Transaction

/-- What may be done with a transaction, and between two such calls. -/
inductive Call (σ : Type) where
  | begin
  | run
  | commit
  | rollback
  /-- Something else happens meanwhile. -/
  | meanwhile (f : Act σ Unit)

namespace Call

/-- The call as an action. Whoever calls goes on after a failure. -/
def act : Call σ → Act (σ × Transaction σ) Unit
  | begin => Transaction.begin
  | run => Act.make fun w => (w.2.run.zoom Lens.fst).perform w
  | commit => Transaction.commit
  | rollback => Transaction.rollback
  | meanwhile f => f.zoom Lens.fst

/-- Makes calls one after the other, whatever comes of each. -/
def playAll (calls : List (Call σ)) (w : σ × Transaction σ) : σ × Transaction σ :=
  calls.foldl (fun w call => (call.act.perform w).2) w

/-- A call in a world with its history. What happens meanwhile is not entered. -/
def observed : Call σ → Call (Observed σ)
  | begin => begin
  | run => run
  | commit => commit
  | rollback => rollback
  | meanwhile f => meanwhile (f.zoom Lens.fst)

/-- What happens while these calls are made on a transaction. -/
def history (calls : List (Call σ)) (t : Transaction σ) (s : σ) : List (ChainEvent σ) :=
  (playAll (calls.map observed) ((s, []), t.observed)).1.2

theorem showsOutcome_act (call : Call σ) (t : Transaction σ) (s : σ) (h : List (ChainEvent σ)) :
    ShowsOutcome Transaction.observed (call.observed.act.perform ((s, h), t.observed))
      (call.act.perform (s, t)) := by
  cases call with
  | begin => exact showsOutcome_begin t s h
  | commit => exact showsOutcome_commit t s h
  | rollback => exact showsOutcome_rollback t s h
  | run =>
    obtain ⟨h', heq⟩ := shows_run t s h
    exact ⟨h', by simp only [observed, act, Act.perform_make, Act.perform_zoom, Lens.fst, heq]⟩
  | meanwhile f => exact ⟨h, rfl⟩

/-- The calls have the same outcome when they are observed. -/
theorem playAll_observed (calls : List (Call σ)) (t : Transaction σ) (s : σ)
    (h : List (ChainEvent σ)) :
    ∃ h', playAll (calls.map observed) ((s, h), t.observed) =
      (((playAll calls (s, t)).1, h'), (playAll calls (s, t)).2.observed) := by
  induction calls generalizing t s h with
  | nil => exact ⟨h, rfl⟩
  | cons call calls ih =>
    obtain ⟨h₁, heq⟩ := showsOutcome_act call t s h
    obtain ⟨h₂, hrest⟩ := ih (call.act.perform (s, t)).2.2 (call.act.perform (s, t)).2.1 h₁
    refine ⟨h₂, ?_⟩
    rw [List.map_cons, playAll, List.foldl_cons, heq]
    exact hrest

end Call

end Transaction

namespace Ledger

variable {L : Ledger ConnectionId ι σ} {gs : List (Strand σ)} {s : σ}

/-- Strands on different lines, whose units ask nothing of any line. -/
structure Ready (L : Ledger ConnectionId ι σ) (gs : List (Strand σ)) : Prop where
  nodup : (gs.map (·.connection.id)).Nodup
  watches : ∀ g ∈ gs, L.Watches g.connection
  units : ∀ g ∈ gs, ∀ u ∈ g.units, L.IsQuiet u.run

theorem Manages.ready {gs' : List (Strand σ)} {es : List (Entry ConnectionId ι)} {s' : σ}
    (h : L.Manages gs s es gs' s') (hgs : L.Ready gs) : L.Ready gs' := by
  have hbody : ∀ g ∈ gs', ∃ g₀ ∈ gs, (g₀.connection, g₀.units) = (g.connection, g.units) := by
    intro g hg
    refine List.mem_map.1 (h.bodies ▸ ?_)
    exact List.mem_map_of_mem (f := fun g : Strand σ => (g.connection, g.units)) hg
  refine ⟨h.ids ▸ hgs.nodup, fun g hg => ?_, fun g hg => ?_⟩
  · obtain ⟨g₀, hg₀, heq⟩ := hbody g hg
    exact (Prod.mk.inj heq).1 ▸ hgs.watches g₀ hg₀
  · obtain ⟨g₀, hg₀, heq⟩ := hbody g hg
    exact (Prod.mk.inj heq).2 ▸ hgs.units g₀ hg₀

open Transaction (Call)

/-- What happens between two calls asks nothing of any line. -/
def Leaves (L : Ledger ConnectionId ι σ) (calls : List (Call σ)) : Prop :=
  ∀ f, .meanwhile f ∈ calls → L.IsQuiet f

theorem act_manages {call : Call σ} (hgs : L.Ready gs) (hcall : L.Leaves [call]) (s : σ) :
    ∃ es gs', L.Manages gs s es gs' (call.act.perform (s, .connected gs)).2.1 ∧
      (call.act.perform (s, .connected gs)).2.2 = .connected gs' := by
  cases call with
  | begin =>
    obtain ⟨es, hes⟩ := beginAll_manages hgs.nodup hgs.watches s
    exact ⟨es, _, hes, rfl⟩
  | commit =>
    obtain ⟨es, hes⟩ := commitAll_manages hgs.nodup hgs.watches
      (gs.filter (·.isOwned)).length 0 s
    exact ⟨es, _, hes, rfl⟩
  | rollback =>
    obtain ⟨es, hes⟩ := undoAll_manages hgs.nodup hgs.watches s
    exact ⟨es, _, hes, rfl⟩
  | run =>
    have hunits : ∀ u ∈ gs.flatMap (·.units), L.IsQuiet u.run := by
      simpa [List.mem_flatMap] using fun u g hg hu => hgs.units g hg u hu
    obtain ⟨es, hes⟩ := Manages.of_isQuiet (isQuiet_runAll hunits) gs s
    exact ⟨es, gs, hes, rfl⟩
  | meanwhile f =>
    obtain ⟨es, hes⟩ := Manages.of_isQuiet (hcall f List.mem_cons_self) gs s
    exact ⟨es, gs, hes, rfl⟩

/-- Any sequence of calls manages the lines of the strands. -/
theorem playAll_manages {calls : List (Call σ)} (hgs : L.Ready gs) (hcalls : L.Leaves calls)
    (s : σ) :
    ∃ es gs', L.Manages gs s es gs' (Call.playAll calls (s, .connected gs)).1 ∧
      (Call.playAll calls (s, .connected gs)).2 = .connected gs' := by
  induction calls generalizing gs s with
  | nil => exact ⟨[], gs, .refl gs s, rfl⟩
  | cons call calls ih =>
    have hcall : L.Leaves [call] := fun f hf =>
      hcalls f (List.mem_cons.2 (.inl (List.mem_singleton.1 hf)))
    obtain ⟨es, gs₁, hes, hgs₁⟩ := act_manages hgs hcall s
    obtain ⟨fs, gs', hfs, hgs'⟩ := ih (hes.ready hgs)
      (fun f hf => hcalls f (List.mem_cons_of_mem _ hf))
      (call.act.perform (s, .connected gs)).2.1
    rw [← hgs₁] at hfs hgs'
    exact ⟨es ++ fs, gs', hes.trans hfs, hgs'⟩

end Ledger

/-- A connection that is in a transaction when it is said to be open, and whose transactions are
    begun and ended without ending those of others. What its calls do to itself, and when they
    fail, is left open. -/
structure Connection.Keeps (isOpen : ConnectionId → σ → Bool) (c : Connection σ) : Prop where
  inTransaction : ∀ s, isOpen c.id s = true → c.inTransaction s = true
  begin : ∀ s id, id ≠ c.id → isOpen id s = true → isOpen id (c.begin.perform s).2 = true
  commit : ∀ s id, id ≠ c.id → isOpen id s = true → isOpen id (c.commit.perform s).2 = true
  rollback : ∀ s id, id ≠ c.id → isOpen id s = true → isOpen id (c.rollback.perform s).2 = true

theorem Connection.IsFaithful.keeps {isOpen : ConnectionId → σ → Bool} {c : Connection σ}
    (h : c.IsFaithful isOpen) : c.Keeps isOpen where
  inTransaction s hopen := (h.inTransaction s).trans hopen
  begin s id hid hopen := (h.begin.others s id hid).trans hopen
  commit s id hid hopen := (h.commit.others s id hid).trans hopen
  rollback s id hid hopen := (h.rollback.others s id hid).trans hopen

theorem Connection.Keeps.watches {isOpen : ConnectionId → σ → Bool} {c : Connection σ}
    (h : c.Keeps isOpen) : (Chain.ledger isOpen).Watches c.observed where
  inTransaction o := h.inTransaction o.1
  begin := ⟨fun _ => rfl, fun o => h.begin o.1⟩
  commit := ⟨fun _ => rfl, fun o => h.commit o.1⟩
  rollback := ⟨fun _ => rfl, fun o => h.rollback o.1⟩

namespace Transaction

/-- Nobody but the transaction begins or ends transactions on the connections of its units: neither
    the units nor what happens between the calls, and the connections do not do it to each other. -/
structure IsAlone (isOpen : ConnectionId → σ → Bool) (units : List (WorkUnit σ))
    (calls : List (Call σ)) : Prop where
  connections : ∀ u ∈ units, ∀ c, u.connection = some c → c.Keeps isOpen
  units : ∀ u ∈ units, u.run.Spares isOpen
  calls : ∀ f, .meanwhile f ∈ calls → f.Spares isOpen

variable {isOpen : ConnectionId → σ → Bool} {units : List (WorkUnit σ)} {gs : List (Strand σ)}
  {calls : List (Call σ)}

/-- If nothing is said to be open, there is nothing to keep. -/
theorem isAlone_of_closed (units : List (WorkUnit σ)) (calls : List (Call σ)) :
    IsAlone (fun _ _ => false) units calls where
  connections _ _ _ _ := ⟨fun _ h => absurd h Bool.false_ne_true,
    fun _ _ _ h => absurd h Bool.false_ne_true, fun _ _ _ h => absurd h Bool.false_ne_true,
    fun _ _ _ h => absurd h Bool.false_ne_true⟩
  units _ _ _ _ := rfl
  calls _ _ _ _ := rfl

theorem IsAlone.ready (h : IsAlone isOpen units calls) (hgs : Strand.ofUnits units = .ok gs) :
    (Chain.ledger isOpen).Ready (gs.map (·.observed)) where
  nodup := by
    have hids := nodup_firstSeen (·.connectionId?) units
    rw [← (Strand.ofUnits_laid hgs).ids] at hids
    refine List.Nodup.of_map some ?_
    rw [List.map_map, List.map_map]
    exact hids
  watches := by
    rw [List.forall_mem_map]
    intro g hg
    obtain ⟨u, hu, hconnection⟩ := (Strand.ofUnits_allNew hgs).connection g hg
    exact (h.connections u hu _ hconnection).watches
  units := by
    rw [List.forall_mem_map]
    intro g hg
    simp only [Strand.observed, List.forall_mem_map]
    intro u hu
    have hmem := (Strand.ofUnits_allNew hgs).units.mem_iff.1 (List.mem_flatMap.2 ⟨g, hg, hu⟩)
    exact ⟨fun o => h.units u hmem o.1, fun o => ⟨[_], rfl, by simp [Ledger.Entry.isControl]⟩⟩

theorem IsAlone.leaves (h : IsAlone isOpen units calls) :
    (Chain.ledger isOpen).Leaves (calls.map Call.observed) := by
  intro f hf
  obtain ⟨call, hcall, heq⟩ := List.mem_map.1 hf
  cases call with
  | meanwhile f' =>
    cases heq
    exact ⟨fun o => h.calls f' hcall o.1, fun o => ⟨[], (List.append_nil _).symm, by simp⟩⟩
  | begin | run | commit | rollback => cases heq

theorem owns_observed (t : Transaction σ) (id : ConnectionId) :
    t.observed.owns id = t.owns id := by
  cases t with
  | plain units => rfl
  | connected strands =>
    rw [observed, owns, owns, List.any_map]
    rfl

/-- A transaction manages its lines whatever is called. -/
theorem IsAlone.manages (h : IsAlone isOpen units calls) (hgs : Strand.ofUnits units = .ok gs)
    (s : σ) :
    ∃ gs', (Chain.ledger isOpen).Manages (gs.map (·.observed)) (s, [])
        (Call.history calls (.connected gs) s) gs'
        (Call.playAll (calls.map Call.observed) ((s, []), (connected gs).observed)).1 ∧
      ∀ id, (Call.playAll calls (s, .connected gs)).2.owns id = Ledger.anyOwns gs' id := by
  obtain ⟨es, gs', hes, hgs'⟩ := Ledger.playAll_manages (h.ready hgs) h.leaves (s, [])
  have hhistory : Call.history calls (.connected gs) s = es := hes.entries
  refine ⟨gs', hhistory ▸ hes, fun id => ?_⟩
  obtain ⟨h', hplay⟩ := Call.playAll_observed calls (.connected gs) s []
  rw [← owns_observed]
  change Call.playAll _ ((s, []), (connected gs).observed) = _ at hplay
  rw [show (Call.playAll calls (s, .connected gs)).2.observed = .connected gs' from ?_]
  · rfl
  · rw [← hgs']
    exact (congrArg Prod.snd hplay).symm

/-- Whatever is called on a transaction, and whatever fails: it owns a connection exactly if it holds
    it by what has happened; only connections that it holds at that time are asked to commit or to
    roll back; and as long as nobody else begins or ends transactions, nothing is asked of a
    connection that was in one before. -/
theorem owns_while_held {t : Transaction σ} (ht : ofConnected units = .ok t)
    (calls : List (Call σ)) (s : σ) :
    (∀ id, (Call.playAll calls (s, t)).2.owns id = true ↔
      Ledger.IsHeld id (Call.history calls t s)) ∧
    (∀ id before x after, Call.history calls t s = before ++ x :: after →
      x.asks .commit id = true ∨ x.asks .rollback id = true → Ledger.IsHeld id before) ∧
    ∀ isOpen, IsAlone isOpen units calls → ∀ id, isOpen id s = true →
      ∀ x ∈ Call.history calls t s, ∀ q, x.asks q id = false := by
  rw [ofConnected] at ht
  rcases hgs : Strand.ofUnits units with e | gs <;> rw [hgs] at ht <;> cases ht
  have hnew : ∀ id, Ledger.anyOwns (gs.map (·.observed)) id = false := by
    intro id
    refine List.any_eq_false.2 fun g hg howns => ?_
    obtain ⟨g₀, hg₀, rfl⟩ := List.mem_map.1 hg
    rw [Strand.isOwned_observed, (Strand.ofUnits_allNew hgs).isOwned g₀ hg₀] at howns
    exact Bool.false_ne_true howns
  -- Who has control of the connections matters only for those that are open.
  obtain ⟨gs', hmanages, howns⟩ := (isAlone_of_closed units calls).manages hgs s
  have htenure := fun id => hnew id ▸ hmanages.tenure id
  refine ⟨fun id => ?_, fun id before x after heq hx => ?_, fun isOpen halone id hopen x hx q => ?_⟩
  · rw [howns id, (htenure id).isHeld_iff]
    simp
  · obtain ⟨mid, hbefore, hafter⟩ := (heq ▸ htenure id).exists_mid
    rw [hafter.held_of_asks hx] at hbefore
    simpa using hbefore.isHeld_iff
  · obtain ⟨_, hmanages', -⟩ := halone.manages hgs s
    exact Ledger.Entry.asks_of_asksAny ((hmanages'.spared id (hnew id) hopen).2 x hx) q

end Transaction

namespace Rehearsal.Stage

/-- Units on three lines. -/
def threeLines : List (WorkUnit Stage) := [
  statementUnit ⟨0⟩ "DELETE FROM a", statementUnit ⟨1⟩ "DELETE FROM b",
  statementUnit ⟨2⟩ "DELETE FROM c"]

/-- Calls on a transaction, most of which come at the wrong time. -/
def strayCalls : List (Transaction.Call Stage) :=
  [.rollback, .begin, .run, .commit, .meanwhile (note (.log .null)), .rollback, .rollback, .begin]

theorem threeLines_isAlone : Transaction.IsAlone isOpenOn threeLines strayCalls where
  connections := by
    simp [threeLines, statementUnit, WorkUnit.connectedTask, (lineOf_isFaithful _).keeps]
  units := by simp [threeLines, statementUnit_spares]
  calls f hf := by
    obtain rfl : f = note (.log .null) := by simpa [strayCalls] using hf
    exact fun _ _ => rfl

/-- On a torn stage, a line that was committed is held again after it was begun once more, one that
    could be neither committed nor rolled back is not, and nothing is asked of the caller's line. -/
theorem threeLines_owned_while_held :
    ∃ t, Transaction.ofConnected threeLines = .ok t ∧
      Transaction.IsAlone isOpenOn threeLines strayCalls ∧ isOpenOn ⟨2⟩ tornStage = true ∧
      Ledger.IsHeld ⟨0⟩ (Transaction.Call.history strayCalls t tornStage) ∧
      ¬ Ledger.IsHeld ⟨1⟩ (Transaction.Call.history strayCalls t tornStage) ∧
      ∀ x ∈ Transaction.Call.history strayCalls t tornStage, ∀ q, x.asks q ⟨2⟩ = false := by
  obtain ⟨howns, -, hspared⟩ := @Transaction.owns_while_held _ threeLines _ rfl strayCalls tornStage
  refine ⟨_, rfl, threeLines_isAlone, rfl, (howns ⟨0⟩).1 (by decide +kernel), ?_,
    hspared isOpenOn threeLines_isAlone ⟨2⟩ rfl⟩
  rw [← howns ⟨1⟩]
  decide +kernel

end Rehearsal.Stage

end RecordStore
