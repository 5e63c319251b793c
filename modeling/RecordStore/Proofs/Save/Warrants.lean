import RecordStore.Proofs.Save.Order
import RecordStore.Proofs.Save.OwnHistory

/-!
# What entitles a save to a write

Every write of a save has a warrant in the history so far (`Warranted`). A model is written for the
first time when it has been validated and then has been through the code before the write, and it is
written as the last of that code left it (`Readied`). Any later write comes right after one more
validation.

That is so however a batch is prepared, whatever it saves in the meantime, and wherever it breaks
off: a preparation only enters ends of code, and tells of each model how far it has come and what
became of it (`Followed`); the loop of first writes finds every model ready (`Persisting`); what
comes after finds every model written (`Persisted`). So the history of any save is `WellWritten`
(`SaveEngine.save_wellWritten`).
-/

namespace RecordStore

variable {μ σ : Type}

/-! ### Warrants -/

section Warrants

variable [Model μ] (hooks : μ → List (Hook μ σ))

/-- A model that has been validated, and then left so by the code before the write. -/
inductive Readied (es : List (Happening μ)) (name : ModelName) (m : μ) : Prop
  | intro {validation before : List (Happening μ)} {outcome : Outcome μ} :
    es.filter (·.name = name) = validation ++ before → Validates name validation →
      Before hooks name before outcome → outcome.isSkip = false →
      before.getLast?.bind Happening.left? = some m → Readied es name m

/-- What entitles a save to write a model, after this history. -/
inductive Warranted (es : List (Happening μ)) (name : ModelName) (m : μ) : Prop
  | first : Readied hooks es name m → Warranted es name m
  | again {before : μ} : .wrote name before ∈ es → Model.validate m = .ok () → Warranted es name m

/-- A history of warranted writes. -/
inductive WellWritten : List (Happening μ) → Prop
  | nil : WellWritten []
  | ran {es : List (Happening μ)} {x : Happening μ} :
    WellWritten es → x.IsRun → WellWritten (es ++ [x])
  | wrote {es : List (Happening μ)} {name : ModelName} {m : μ} :
    WellWritten es → Warranted hooks es name m → WellWritten (es ++ [.wrote name m])

variable {hooks} {es es' : List (Happening μ)} {name : ModelName} {m : μ}

theorem WellWritten.addsRuns (h : WellWritten hooks es) (hadds : Adds Happening.IsRun es es') :
    WellWritten hooks es' := by
  obtain ⟨seg, rfl, hseg⟩ := hadds
  induction seg using List.reverseRecOn with
  | nil => rwa [List.append_nil]
  | append_singleton seg x ih =>
    obtain ⟨hseg, hx⟩ := List.forall_mem_append.1 hseg
    rw [← List.append_assoc]
    exact (ih hseg).ran (hx x (List.mem_singleton_self x))

omit [Model μ] in
/-- A place in a list with one more element is either that element or a place in the list. -/
theorem append_cons_of_concat {x y : Happening μ} {pre post : List (Happening μ)}
    (h : es ++ [x] = pre ++ y :: post) :
    (es = pre ∧ x = y) ∨ ∃ post', es = pre ++ y :: post' := by
  rcases List.eq_nil_or_concat post with rfl | ⟨post', z, rfl⟩
  · obtain ⟨hes, hlast⟩ := List.append_inj' h rfl
    exact .inl ⟨hes, List.singleton_inj.1 hlast⟩
  · rw [List.concat_eq_append, ← List.cons_append, ← List.append_assoc] at h
    exact .inr ⟨post', (List.append_inj' h rfl).1⟩

/-- In such a history, the writes are warranted by what is before them. -/
theorem WellWritten.warranted (h : WellWritten hooks es) {pre post : List (Happening μ)}
    (heq : es = pre ++ .wrote name m :: post) : Warranted hooks pre name m := by
  -- Any entry was the last one once, and what was before it then has stayed.
  induction h generalizing post with
  | nil => simp at heq
  | ran _ hx ih =>
    rcases append_cons_of_concat heq with ⟨rfl, rfl⟩ | ⟨post', heq⟩
    · cases hx
    · exact ih heq
  | wrote _ hwarrant ih =>
    rcases append_cons_of_concat heq with ⟨rfl, hlast⟩ | ⟨post', heq⟩
    · cases hlast
      exact hwarrant
    · exact ih heq

/-- Whether a model is ready depends on what is told of it alone. -/
theorem Readied.congr (h : Readied hooks es name m)
    (hsame : es'.filter (·.name = name) = es.filter (·.name = name)) :
    Readied hooks es' name m := by
  obtain ⟨heq, hvalid, hbefore, hskip, hleft⟩ := h
  exact .intro (hsame.trans heq) hvalid hbefore hskip hleft

/-- A model that is ready was not written yet. -/
theorem Readied.wrote_notMem (h : Readied hooks es name m) (before : μ) :
    .wrote name before ∉ es := by
  obtain ⟨heq, hvalid, hbefore, -, -⟩ := h
  intro hmem
  have hfilter : .wrote name before ∈ es.filter (·.name = name) :=
    List.mem_filter.2 ⟨hmem, by simp [Happening.name]⟩
  rw [heq] at hfilter
  rcases List.mem_append.1 hfilter with hv | hb
  · cases (hvalid.early _ hv).1
  · cases (hbefore.early _ hb).1

end Warrants

/-! ### The preparation -/

section Preparation

variable {hooks : μ → List (Hook μ σ)} {name : ModelName} {es seg : List (Happening μ)}
  {outcome : Outcome μ}

theorem Happening.isRun_of_isEarly {x : Happening μ} (h : x.isEarly = true) : x.IsRun := by
  cases x with
  | ran => rfl
  | wrote => cases h

/-- The code before the write leaves a model as the last of it does. -/
theorem Before.getLast? (h : Before hooks name es outcome) (m : μ) :
    es.getLast?.bind Happening.left? = some (es.foldl Happening.leave m) := by
  rcases List.eq_nil_or_concat es with rfl | ⟨init, x, rfl⟩
  · cases h
  · have hx : x.IsRun := Happening.isRun_of_isEarly (h.early x (by simp)).1
    obtain ⟨left, hleft⟩ := Option.isSome_iff_exists.1 hx
    simp [Happening.leave, hleft]

variable [Model μ] {start : List ModelName} {pre rest batch : List (BatchEntry (Named μ))}
  {p : BatchEntry (Named μ)} {m' : Named μ}

/-- A history that tells of a batch also says what the code before the write made of its models. -/
structure Followed (hooks : μ → List (Hook μ σ)) (start : List ModelName) (es : List (Happening μ))
    (batch : List (BatchEntry (Named μ))) : Prop extends Traced hooks start es batch where
  left : ∀ p ∈ batch, p.hooksDone = true →
    (es.filter (·.name = p.model.name)).getLast?.bind Happening.left? = some p.model.model

/-- The batch has only names of the save itself if it started so. -/
theorem Traced.isOwn (h : Traced hooks start es batch) (hstart : ∀ name ∈ start, name.IsOwn)
    (hes : ∀ x ∈ es, x.name.IsOwn) : ∀ p ∈ batch, p.model.name.IsOwn := by
  have hgrow : ∀ (names : List ModelName) (x : Happening μ), (∀ name ∈ names, name.IsOwn) →
      x.name.IsOwn → ∀ name ∈ x.grow names, name.IsOwn := by
    intro names x hnames hx
    cases x with
    | wrote => exact hnames
    | ran place name o m =>
      cases o with
      | proceed | skip => exact hnames
      | add models =>
        simp only [Happening.grow]
        split
        · refine List.forall_mem_append.2 ⟨fun name' hname' => ?_, hnames⟩
          obtain ⟨i, -, rfl⟩ := List.mem_map.1 hname'
          exact hx
        · exact hnames
  have hfold : ∀ name ∈ es.foldl Happening.grow start, name.IsOwn := by
    clear h
    induction es generalizing start with
    | nil => exact hstart
    | cons x es ih =>
      obtain ⟨hx, hes⟩ := List.forall_mem_cons.1 hes
      exact ih (hgrow start x hstart hx) hes
  intro p hp
  rw [← h.names] at hfold
  exact hfold _ (List.mem_map_of_mem hp)

/-- One entry goes on, and nothing was told of the others. -/
theorem Followed.of_step (h : Followed hooks start es (pre ++ p :: rest))
    {p' : BatchEntry (Named μ)} (front : List (Named μ)) (hname : p'.model.name = p.model.name)
    (hseg : ∀ x ∈ seg, x.name = p.model.name)
    (htraced : Traced hooks start (es ++ seg) (front.map .fresh ++ (pre ++ p' :: rest)))
    (hleft : p'.hooksDone = true → ((es ++ seg).filter (·.name = p.model.name)).getLast?.bind
      Happening.left? = some p'.model.model) :
    Followed hooks start (es ++ seg) (front.map .fresh ++ (pre ++ p' :: rest)) := by
  have hothers : ∀ q, q ∈ pre ∨ q ∈ rest → q.hooksDone = true →
      ((es ++ seg).filter (·.name = q.model.name)).getLast?.bind Happening.left? =
        some q.model.model := by
    intro q hq hdone
    have hnone : seg.filter (·.name = q.model.name) = [] := List.filter_eq_nil_iff.2 fun x hx => by
      simpa [hseg x hx] using (h.toDistinct.ne_name hq).symm
    rw [List.filter_append, hnone, List.append_nil]
    exact h.left q (by rcases hq with hq | hq <;> simp [hq]) hdone
  refine ⟨htraced, fun q hq hdone => ?_⟩
  rcases List.mem_append.1 hq with hq | hq
  · obtain ⟨m, -, rfl⟩ := List.mem_map.1 hq
    cases hdone
  · rcases List.mem_append.1 hq with hq | hq
    · exact hothers q (.inl hq) hdone
    · rcases List.mem_cons.1 hq with rfl | hq
      · rw [hname]
        exact hleft hdone
      · exact hothers q (.inr hq) hdone

theorem Followed.validated (h : Followed hooks start es (pre ++ p :: rest))
    (hnot : p.isValidated = false) (hname : m'.name = p.model.name)
    (hseg : Validates p.model.name seg) :
    Followed hooks start (es ++ seg)
      (pre ++ { p with model := m', isValidated := true } :: rest) := by
  have htraced := h.toTraced.validated hnot hname hseg
  refine h.of_step [] hname (fun x hx => (hseg.early x hx).2) htraced fun hdone => ?_
  -- What was not validated did not go on to the code before the write.
  obtain ⟨⟨v, b, -, -, hb⟩⟩ := h.told p (by simp)
  simp [show p.hooksDone = true from hdone, hnot] at hb

theorem Followed.turned (h : Followed hooks start es (pre ++ p :: rest))
    (hnot : p.hooksDone = false) (hvalidated : p.isValidated = true) (hname : m'.name = p.model.name)
    (hseg : Before hooks p.model.name seg outcome)
    (hleft : m'.model = seg.foldl Happening.leave p.model.model) :
    Followed hooks start (es ++ seg) ((outcome.named p.model.name).asked.map .fresh ++
      (pre ++ p.turned m' (outcome.named p.model.name) :: rest)) := by
  have htraced := h.toTraced.turned hnot hvalidated hname hseg
  refine h.of_step _ hname (fun x hx => (hseg.early x hx).2) htraced fun _ => ?_
  have hsame : seg.filter (·.name = p.model.name) = seg :=
    List.filter_eq_self.2 fun x hx => by simp [(hseg.early x hx).2]
  have hlast := hseg.getLast? p.model.model
  rw [List.filter_append, hsame, BatchEntry.turned, hleft, ← hlast]
  rcases List.eq_nil_or_concat seg with rfl | ⟨init, x, rfl⟩
  · cases hseg
  · simp

/-- A model that is not skipped is ready when nothing of its code before the write is left. -/
theorem Followed.readied (h : Followed hooks start es batch) (hp : p ∈ batch)
    (hdone : p.hooksDone = true) (hskip : p.isSkipped = false) :
    Readied hooks es p.model.name p.model.model := by
  obtain ⟨⟨v, b, heq, hv, hb⟩⟩ := h.told p hp
  obtain ⟨hvalidated, o, hbefore, hflag⟩ : p.isValidated = true ∧
      ∃ o, Before hooks p.model.name b o ∧ p.isSkipped = o.isSkip := by
    simpa [hdone] using hb
  have hvalid : Validates p.model.name v := by simpa [hvalidated] using hv
  refine .intro heq hvalid hbefore (hflag ▸ hskip) ?_
  have hleft := h.left p hp hdone
  rw [heq] at hleft
  rcases List.eq_nil_or_concat b with rfl | ⟨init, x, rfl⟩
  · cases hbefore
  · simpa using hleft

end Preparation

/-! ### Writes -/

section Writes

variable [Model μ] {hooks : μ → List (Hook μ σ)} {start : List ModelName}
  {s s' : Saving (Recorded μ σ)} {pre rest batch : List (BatchEntry (Named μ))}
  {p p' : BatchEntry (Named μ)}

/-- A batch that is about to be written, or in the course of it: all is well so far, what is to come
    is ready, and what is over was written. -/
structure Persisting (hooks : μ → List (Hook μ σ)) (s : Saving (Recorded μ σ))
    (pre rest : List (BatchEntry (Named μ))) : Prop where
  distinct : Distinct (pre ++ rest)
  own : ∀ p ∈ pre ++ rest, p.model.name.IsOwn
  wellWritten : WellWritten hooks s.ownHistory
  ready : ∀ p ∈ rest, p.isSkipped = false → Readied hooks s.ownHistory p.model.name p.model.model
  written : ∀ p ∈ pre, p.isSkipped = false → ∃ before, .wrote p.model.name before ∈ s.ownHistory

/-- A batch that was written. -/
structure Persisted (hooks : μ → List (Hook μ σ)) (s : Saving (Recorded μ σ))
    (batch : List (BatchEntry (Named μ))) : Prop where
  own : ∀ p ∈ batch, p.model.name.IsOwn
  wellWritten : WellWritten hooks s.ownHistory
  written : ∀ p ∈ batch, p.isSkipped = false → ∃ before, .wrote p.model.name before ∈ s.ownHistory

theorem Followed.persisting (h : Followed hooks start s.ownHistory batch)
    (hstart : ∀ name ∈ start, name.IsOwn) (hwell : WellWritten hooks s.ownHistory)
    (hdone : ∀ p ∈ batch, p.hooksDone = true) : Persisting hooks s [] batch where
  distinct := h.toDistinct
  own := h.toTraced.isOwn hstart fun _ => name_of_mem_ownEntries
  wellWritten := hwell
  ready p hp hskip := h.readied hp (hdone p hp) hskip
  written := by simp

/-- What is skipped is passed over. -/
theorem Persisting.skipped (h : Persisting hooks s pre (p :: rest)) (hskip : p.isSkipped = true) :
    Persisting hooks s (pre ++ [p]) rest := by
  obtain ⟨hdistinct, hown, hwell, hready, hwritten⟩ := h
  rw [List.append_cons] at hdistinct hown
  exact ⟨hdistinct, hown, hwell, (List.forall_mem_cons.1 hready).2,
    List.forall_mem_append.2 ⟨hwritten, by simp [hskip]⟩⟩

/-- What is ready is written. -/
theorem Persisting.wrote (h : Persisting hooks s pre (p :: rest)) (hskip : p.isSkipped = false)
    (hname : p'.model.name = p.model.name) (hdone : p'.hooksDone = p.hooksDone)
    (hhistory : s'.ownHistory = s.ownHistory ++ [.wrote p.model.name p.model.model]) :
    Persisting hooks s' (pre ++ [p']) rest := by
  have hdistinct : Distinct (pre ++ p' :: rest) := h.distinct.step hname (hdone ▸ id)
  obtain ⟨-, hown, hwell, hready, hwritten⟩ := h
  refine ⟨by rwa [← List.append_cons], ?_, ?_, fun q hq hskip' => ?_, fun q hq hskip' => ?_⟩
  · simpa [hname, or_imp, forall_and] using hown
  · rw [hhistory]
    exact hwell.wrote (.first (hready p (by simp) hskip))
  · -- The write was one of another model.
    have hne : q.model.name ≠ p.model.name := hname ▸ hdistinct.ne_name (.inr hq)
    refine (hready q (by simp [hq]) hskip').congr ?_
    rw [hhistory, List.filter_append]
    simp [Happening.name, hne.symm]
  · rcases List.mem_append.1 hq with hq | hq
    · obtain ⟨before, hbefore⟩ := hwritten q hq hskip'
      exact ⟨before, by rw [hhistory]; exact List.mem_append_left _ hbefore⟩
    · rw [List.mem_singleton.1 hq, hname, hhistory]
      exact ⟨p.model.model, by simp⟩

theorem Persisting.persisted (h : Persisting hooks s batch []) : Persisted hooks s batch :=
  ⟨by simpa using h.own, h.wellWritten, h.written⟩

/-- One entry that was written goes on. -/
theorem Persisted.step (h : Persisted hooks s (pre ++ p :: rest))
    (hname : p'.model.name = p.model.name) (hskip : p'.isSkipped = p.isSkipped)
    (hkept : ∀ x ∈ s.ownHistory, x ∈ s'.ownHistory) (hwell : WellWritten hooks s'.ownHistory) :
    Persisted hooks s' (pre ++ p' :: rest) := by
  obtain ⟨hown, -, hwritten⟩ := h
  have hwritten' : ∀ q ∈ pre ++ p :: rest, q.isSkipped = false →
      ∃ before, .wrote q.model.name before ∈ s'.ownHistory := by
    intro q hq hskip
    obtain ⟨before, hbefore⟩ := hwritten q hq hskip
    exact ⟨before, hkept _ hbefore⟩
  simp only [List.forall_mem_append, List.forall_mem_cons] at hown hwritten'
  refine ⟨?_, hwell, ?_⟩ <;> simp only [List.forall_mem_append, List.forall_mem_cons, hname, hskip]
  · exact hown
  · exact hwritten'

end Writes

/-! ### Whole saves -/

namespace SaveEngine

variable [Model μ] {e : SaveEngine μ σ} {frames : Nat → Frame}

section Phases

variable {saver : Saver (Named μ) (Recorded μ σ)}
  (hsaver : ∀ route, (saver route).Moves LeadsApart (seen Saving.ownHistory)) (route : Nat)

section Preparation

variable {start : List ModelName} (hstart : ∀ name ∈ start, name.IsOwn)

include hsaver hstart

theorem followed_keptInTurns : KeptInTurns (e.recorded frames) saver
    fun w batch => Followed e.behaviour.hooks start (ownEntries w.2) batch where
  validated s pre p rest s' m' h hnot hrun := by
    have hown := h.toTraced.isOwn hstart (fun _ => name_of_mem_ownEntries) p (by simp)
    obtain ⟨hname, es, hes, hvalid⟩ := validateModel_enters
      (Program.recorded_entersEnd hsaver _ _ _) _ _ _ _ _ hown hrun
    rw [show ownEntries s'.world.2 = ownEntries s.world.2 ++ es from hes]
    exact h.validated hnot hname hvalid
  turned s pre p rest o' s' m' h hvalidated hnot hrun := by
    have hown := h.toTraced.isOwn hstart (fun _ => name_of_mem_ownEntries) p (by simp)
    have hcode : ∀ p : Program μ μ σ, True → ∀ place own, ((p.recorded place).run saver
        own).EntersEnd Saving.ownHistory ModelName.IsOwn place :=
      fun p _ => p.recorded_entersEnd hsaver
    obtain ⟨hname, es, hes, o, rfl, hbefore, hleft⟩ :=
      beforeModel_enters hcode trivial (fun _ _ _ => trivial) _ _ _ _ _ hown hrun
    rw [show ownEntries s'.world.2 = ownEntries s.world.2 ++ es from hes]
    exact h.turned hnot hvalidated hname hbefore hleft

theorem prepare_persisting (restarts : Nat) :
    ((e.recorded frames).prepare saver route restarts).Ensures
      (fun t => Followed e.behaviour.hooks start t.1.ownHistory t.2 ∧
        WellWritten e.behaviour.hooks t.1.ownHistory)
      (fun t => Persisting e.behaviour.hooks t.1 [] t.2)
      fun t => WellWritten e.behaviour.hooks t.1.ownHistory := by
  rintro ⟨s, batch⟩ ⟨hfollowed, hwell⟩
  have hadds := @prepare_addsRuns _ _ _ e frames _ hsaver route restarts (s, batch)
  rcases hrun : ((e.recorded frames).prepare saver route restarts).perform (s, batch) with
    ⟨_ | _, s', batch'⟩ <;> rw [hrun] at hadds
  · exact hwell.addsRuns hadds
  · obtain ⟨hfollowed', hdone⟩ := (followed_keptInTurns hsaver hstart).prepare hfollowed hrun
    exact hfollowed'.persisting hstart (hwell.addsRuns hadds) hdone

end Preparation

theorem forEach_writeEntry_persisted : (Act.forEach ((e.recorded frames).writeEntry route)).Ensures
    (fun t => Persisting e.behaviour.hooks t.1 [] t.2)
    (fun t => Persisted e.behaviour.hooks t.1 t.2)
    fun t => WellWritten e.behaviour.hooks t.1.ownHistory := by
  have hstep : ∀ s pre p rest, Persisting e.behaviour.hooks s pre (p :: rest) →
      let out := ((e.recorded frames).writeEntry route).perform (s, p)
      Persisting e.behaviour.hooks out.2.1 (pre ++ [out.2.2]) rest := by
    intro s pre p rest h
    rw [perform_writeEntry]
    split
    next hskip => exact h.skipped hskip
    next hskip =>
      rcases hw : ((e.recorded frames).write route).perform (s, p.model) with ⟨r, s', m'⟩
      -- Also a write that fails has been entered, and is the last one of the loop.
      obtain ⟨hname, hhistory⟩ := write_own (h.own p (by simp)) hw
      exact h.wrote (Bool.eq_false_iff.2 hskip) hname rfl hhistory
  rintro ⟨s, batch⟩ h
  obtain ⟨visited, rest, heq, hend, hok⟩ := Act.each_partway hstep h
  rw [Act.forEach, Act.perform_make]
  rcases hrun : Act.each ((e.recorded frames).writeEntry route) batch s with ⟨_ | _, s', batch'⟩ <;>
    rw [hrun] at heq hend hok
  · exact hend.wellWritten
  · obtain rfl : rest = [] := hok rfl
    obtain rfl : batch' = visited := heq.trans (List.append_nil _)
    exact hend.persisted

include hsaver

/-- What comes after the write of a model is warranted by it. -/
theorem finish_warranted {s s' : Saving (Recorded μ σ)} {m m' : Named μ}
    {r : Except StoreError Unit} {before : μ} (hown : m.name.IsOwn) (hwell : WellWritten e.behaviour.hooks s.ownHistory)
    (hwritten : .wrote m.name before ∈ s.ownHistory)
    (hrun : (do (e.recorded frames).afterSave saver route
                (e.recorded frames).writePending route :
      Act (Saving (Recorded μ σ) × Named μ) Unit).perform (s, m) = (r, s', m')) :
    m'.name = m.name ∧ (∀ x ∈ s.ownHistory, x ∈ s'.ownHistory) ∧
      WellWritten e.behaviour.hooks s'.ownHistory := by
  obtain ⟨r₁, s₁, m₁, hafter, hrest⟩ := finish_cases hrun
  obtain ⟨hadds, hname, -⟩ :=
    (@leadsCode_addsRuns _ _ e frames _ hsaver route).afterModel (s, m) trivial
  rw [hafter] at hadds hname
  have hname₁ : m₁.name = m.name := hname.symm
  rcases hrest with ⟨rfl, rfl⟩ | ⟨hvalid, hwrite⟩
  · exact ⟨hname₁, fun _ => hadds.mem, hwell.addsRuns hadds⟩
  · -- The edits that are left are validated right before they are written.
    obtain ⟨hname', hhistory⟩ := write_own (hname₁ ▸ hown) hwrite
    refine ⟨hname'.trans hname₁, fun x hx => ?_, ?_⟩ <;> rw [hhistory]
    · exact List.mem_append_left _ (hadds.mem hx)
    · exact (hwell.addsRuns hadds).wrote (.again (hname₁ ▸ hadds.mem hwritten) hvalid)

theorem forEach_finishEntry_persisted :
    (Act.forEach ((e.recorded frames).finishEntry saver route)).Keeps
      fun t => Persisted e.behaviour.hooks t.1 t.2 := by
  rintro ⟨s, batch⟩ h
  refine Act.each_keeps (fun s batch => Persisted e.behaviour.hooks s batch)
    (fun s pre p rest h => ?_) h
  rw [perform_finishEntry]
  split
  next => exact h
  next hskip =>
    obtain ⟨before, hbefore⟩ := h.written p (by simp) (Bool.eq_false_iff.2 hskip)
    rcases hm : (do (e.recorded frames).afterSave saver route
                    (e.recorded frames).writePending route :
      Act (Saving (Recorded μ σ) × Named μ) Unit).perform (s, p.model) with ⟨r, s', m'⟩
    obtain ⟨hname, hkept, hwell⟩ :=
      finish_warranted hsaver route (h.own p (by simp)) h.wellWritten hbefore hm
    exact h.step hname rfl hkept hwell

/-- Wherever a batch breaks off, its writes are warranted. -/
theorem runPhases_wellWritten {start : List ModelName} (hstart : ∀ name ∈ start, name.IsOwn)
    (bound : Nat) {t : BatchWorld (Named μ) (Recorded μ σ)}
    (hfollowed : Followed e.behaviour.hooks start t.1.ownHistory t.2)
    (hwell : WellWritten e.behaviour.hooks t.1.ownHistory) :
    WellWritten e.behaviour.hooks
      (((e.recorded frames).runPhases saver route bound).perform t).2.1.ownHistory := by
  have hphases : ((e.recorded frames).runPhases saver route bound).Ensures
      (fun t => Followed e.behaviour.hooks start t.1.ownHistory t.2 ∧
        WellWritten e.behaviour.hooks t.1.ownHistory)
      (fun t => Persisted e.behaviour.hooks t.1 t.2)
      fun t => WellWritten e.behaviour.hooks t.1.ownHistory := by
    refine (prepare_persisting hsaver route hstart _).bind fun _ => ?_
    refine ((moveTo_keeps route ?_ .save).ensures fun _ h => h.wellWritten).bind fun _ => ?_
    · exact fun s batch phase h => ⟨h.distinct, h.own, h.wellWritten, h.ready, h.written⟩
    refine (forEach_writeEntry_persisted route).bind fun _ => ?_
    refine ((moveTo_keeps route ?_ .afterSave).ensures fun _ h => h.wellWritten).bind fun _ => ?_
    · exact fun s batch phase h => ⟨h.own, h.wellWritten, h.written⟩
    exact (forEach_finishEntry_persisted hsaver route).ensures fun _ h => h.wellWritten
  have hend := hphases t ⟨hfollowed, hwell⟩
  rcases hrun : ((e.recorded frames).runPhases saver route bound).perform t with ⟨_ | _, t'⟩ <;>
    rw [hrun] at hend
  · exact hend
  · exact hend.wellWritten

end Phases

/-- The writes of a save that does not start in the after-save phase of its route are warranted. -/
theorem save_wellWritten (bound : Nat) {route : Nat} {s : Saving σ}
    (hphase : s.phases route ≠ .afterSave) (models : List μ) :
    WellWritten e.behaviour.hooks (ownEntries (e.history frames bound route s models)) := by
  have hframes' : (e.recorded frames).HasFrames frames :=
    fun route => TransactionScheme.ofFrame_frames (frames route)
  have hcourse := save_course hframes' bound (s := s.recorded) hphase (Named.given models)
  have hnil : WellWritten e.behaviour.hooks ([] : List (Happening μ)) := .nil
  rw [history]
  generalize ((e.recorded frames).save bound route).perform (s.recorded, Named.given models) = out
    at hcourse
  -- The validations before the transaction only enter ends of code.
  have hadds : ∀ {depth : Nat} {r : Except StoreError Unit} {s₁ : Saving (Recorded μ σ)}
      {models₁ : List (Named μ)},
      (Act.forEach ((e.recorded frames).validateModel ((e.recorded frames).save depth))).perform
        (s.recorded.setPhase route .validate, Named.given models) = (r, s₁, models₁) →
      WellWritten e.behaviour.hooks s₁.ownHistory := by
    intro depth r s₁ models₁ hvalid
    have hcode := @leadsCode_addsRuns _ _ e frames _ (save_keeps_ownHistory e frames depth) route
    exact hnil.addsRuns (hcode.validateModel.forEach_view hvalid)
  cases hcourse with
  | tooDeep | empty => exact hnil
  | invalid hbound hvalid =>
    have hwell := hadds hvalid
    exact hwell
  | @ran depth r s₁ s₂ models₁ batch hbound hmodels hvalid hrun =>
    have hwell := hadds hvalid
    change WellWritten e.behaviour.hooks s₂.ownHistory
    have hcontrol : ((e.recorded frames).batchConnection route).Moves Eq
        fun t => (t.1.ownHistory, t.2) := ⟨fun _ => rfl, fun _ => rfl, fun _ => rfl⟩
    rcases runBatch_once (frames route) (save_keeps_phases hframes' depth) hcontrol hrun with
      ⟨hsame, -⟩ | ⟨⟨s₀, batch₀⟩, hbefore, hafter, -⟩
    · have hhistory : s₂.ownHistory = s₁.ownHistory := congrArg Prod.fst hsame
      rw [hhistory]
      exact hwell
    · have hstart : ∀ name ∈ (List.range models.length).map ModelName.given, name.IsOwn := by
        intro name hname
        obtain ⟨i, -, rfl⟩ := List.mem_map.1 hname
        rfl
      have hfollowed : Followed e.behaviour.hooks ((List.range models.length).map .given)
          s₁.ownHistory (openBatch models₁) :=
        (followed_keptInTurns (save_keeps_ownHistory e frames depth) hstart).each_validateModel
          (s := s.recorded.setPhase route .validate)
          ⟨traced_given e.behaviour.hooks models, fun p hp hdone => by
            obtain ⟨m, -, rfl⟩ := List.mem_map.1 hp
            cases hdone⟩ hvalid
      obtain ⟨hhistory₀, rfl⟩ := Prod.mk.inj hbefore
      have hhistory₂ : s₂.ownHistory = _ := congrArg Prod.fst hafter
      rw [hhistory₂]
      exact runPhases_wellWritten (save_keeps_ownHistory e frames depth) route hstart depth
        (t := (s₀, openBatch models₁)) (hhistory₀ ▸ hfollowed) (hhistory₀ ▸ hwell)

end SaveEngine

end RecordStore
