import RecordStore.Proofs.Search.Stored
import Mathlib.Data.List.Induction
import Mathlib.Data.List.Nodup

/-!
# Conditions in buckets

The conditions of a search stand in one list. One that is set finds its place there by its *bucket*:
its block, its operator and its attribute. If the bucket is occupied, the first condition in it takes
the new operand, and otherwise the condition is appended (`Search.upsert`).

A description is built by calls (`Search.Call`), six of which set a condition. What a run of calls
does to the list is what the conditions that they set do to it, one after the other; the other calls
may be left out (`Search.conditions_after`). One of these conditions is all that its bucket holds
afterwards, but for the conditions that stood there behind the first (`Search.filter_bucket_upsert`).

* A description that is built from nothing is a map from buckets to operands in the order of
  insertion: a bucket has the place of the condition that was set in it first and the operand of the
  one that was set last (`Search.conditions_built`).
* A description that was read from its stored form has the conditions that are listed there, and the
  list may have several for one bucket. No call ever merges them (`Search.stored_isApart_iff`).
-/

namespace RecordStore

/-- Where a condition belongs. -/
structure Bucket where
  block : Block
  operator : Operator
  attr : String
  deriving DecidableEq

namespace Condition

/-- The bucket in which a condition lies. -/
def bucket (c : Condition) : Bucket := ⟨c.block, c.operator, c.attr⟩

variable {c d : Condition}

theorem isIn_iff : c.isIn d.block d.operator d.attr = true ↔ c.bucket = d.bucket := by
  simp [isIn, bucket, and_assoc]

/-- Conditions in one bucket differ in their operands only. -/
theorem with_operand_eq (h : c.bucket = d.bucket) : { c with operand := d.operand } = d := by
  obtain ⟨attr, operator, operand, block⟩ := c
  cases h
  rfl

end Condition

namespace Search

/-! ### One condition more -/

section Upsert

variable (new : Condition) (cs : List Condition)

theorem upsert_cons (c : Condition) :
    upsert new (c :: cs) = if c.bucket = new.bucket then new :: cs else c :: upsert new cs := by
  rw [upsert]
  by_cases h : c.bucket = new.bucket
  · rw [if_pos (Condition.isIn_iff.2 h), if_pos h, Condition.with_operand_eq h]
  · rw [if_neg (mt Condition.isIn_iff.1 h), if_neg h]

/-- A bucket that is occupied keeps its place, and another one comes last. -/
theorem map_bucket_upsert :
    (upsert new cs).map (·.bucket) =
      if new.bucket ∈ cs.map (·.bucket) then cs.map (·.bucket)
      else cs.map (·.bucket) ++ [new.bucket] := by
  induction cs with
  | nil => simp [upsert]
  | cons c rest ih =>
    rw [upsert_cons]
    by_cases h : c.bucket = new.bucket
    · simp [h]
    · rw [if_neg h, List.map_cons, ih]
      by_cases hrest : new.bucket ∈ rest.map (·.bucket) <;> simp [hrest, Ne.symm h]

/-- The first condition in the bucket is replaced. The others stay, and so do the other buckets. -/
theorem filter_bucket_upsert (k : Bucket) :
    (upsert new cs).filter (·.bucket = k) =
      if new.bucket = k then new :: (cs.filter (·.bucket = k)).tail
      else cs.filter (·.bucket = k) := by
  induction cs with
  | nil => by_cases h : new.bucket = k <;> simp [upsert, h]
  | cons c rest ih =>
    rw [upsert_cons]
    by_cases h : c.bucket = new.bucket
    · by_cases hk : new.bucket = k <;> simp [h, hk]
    · rw [if_neg h, List.filter_cons, ih]
      by_cases hk : new.bucket = k
      · have hc : c.bucket ≠ k := fun heq => h (heq.trans hk.symm)
        simp [hk, hc]
      · simp [hk, List.filter_cons]

/-- Blocks are apart: a condition is set in its own block as if there were no other. -/
theorem filter_block_upsert (block : Block) :
    (upsert new cs).filter (·.block = block) =
      if new.block = block then upsert new (cs.filter (·.block = block))
      else cs.filter (·.block = block) := by
  induction cs with
  | nil => by_cases h : new.block = block <;> simp [upsert, h]
  | cons c rest ih =>
    rw [upsert_cons]
    by_cases h : c.bucket = new.bucket
    · have hblock : c.block = new.block := congrArg Bucket.block h
      by_cases hnew : new.block = block <;> simp [h, hblock, hnew, upsert_cons]
    · rw [if_neg h, List.filter_cons, List.filter_cons, ih]
      by_cases hnew : new.block = block <;> by_cases hc : c.block = block <;>
        simp [hnew, hc, upsert_cons, h]

end Upsert

/-! ### Runs of calls -/

/-- A call that goes on with the description of a search. -/
inductive Call where
  | require (attr : String) (operator : Operator) (operand : Value)
  | requireEq (attr : String) (operand : Value)
  | requireIn (attr : String) (operands : List Value)
  | allow (attr : String) (operator : Operator) (operand : Value)
  | allowEq (attr : String) (operand : Value)
  | allowIn (attr : String) (operands : List Value)
  | select (attrs : List String)
  | selectAll
  | onPage (number size : Nat)
  | unlimited
  | sortBy (attr : String) (direction : Direction)
  | groupBy (attrs : List String)

namespace Call

/-- What a call makes of a description. -/
def apply (s : Search) : Call → Search
  | require attr operator operand => s.require attr operator operand
  | requireEq attr operand => s.requireEq attr operand
  | requireIn attr operands => s.requireIn attr operands
  | allow attr operator operand => s.allow attr operator operand
  | allowEq attr operand => s.allowEq attr operand
  | allowIn attr operands => s.allowIn attr operands
  | select attrs => s.select attrs
  | selectAll => s.selectAll
  | onPage number size => s.onPage number size
  | unlimited => s.unlimited
  | sortBy attr direction => s.sortBy attr direction
  | groupBy attrs => s.groupBy attrs

/-- The condition that a call sets, if it sets one. -/
def condition? : Call → Option Condition
  | require attr operator operand => some ⟨attr, operator, operand, .and⟩
  | requireEq attr operand => some ⟨attr, .eq, operand, .and⟩
  | requireIn attr operands => some ⟨attr, .oneOf, .array operands, .and⟩
  | allow attr operator operand => some ⟨attr, operator, operand, .or⟩
  | allowEq attr operand => some ⟨attr, .eq, operand, .or⟩
  | allowIn attr operands => some ⟨attr, .oneOf, .array operands, .or⟩
  | _ => none

theorem conditions_apply (s : Search) (call : Call) :
    (call.apply s).conditions = call.condition?.toList.foldr upsert s.conditions := by
  cases call <;> rfl

end Call

/-- The description after these calls. -/
def after (s : Search) (calls : List Call) : Search := calls.foldl Call.apply s

theorem after_append (s : Search) (calls calls' : List Call) :
    s.after (calls ++ calls') = (s.after calls).after calls' := List.foldl_append

/-- The conditions that calls set, in the order of the calls. -/
def settings (calls : List Call) : List Condition := calls.filterMap Call.condition?

/-- The list after these conditions are set in it. -/
def setAll (cs : List Condition) (news : List Condition) : List Condition :=
  news.foldl (fun cs new => upsert new cs) cs

theorem setAll_append_singleton (cs news : List Condition) (new : Condition) :
    setAll cs (news ++ [new]) = upsert new (setAll cs news) := by
  rw [setAll, List.foldl_append]
  rfl

/-- Of the calls, only the conditions that they set matter to the list. -/
theorem conditions_after (s : Search) (calls : List Call) :
    (s.after calls).conditions = setAll s.conditions (settings calls) := by
  induction calls generalizing s with
  | nil => rfl
  | cons call rest ih =>
    rw [after, List.foldl_cons, ← after, ih, Call.conditions_apply]
    simp only [settings, List.filterMap_cons]
    cases call.condition? <;> rfl

theorem filter_block_setAll (cs news : List Condition) (block : Block) :
    (setAll cs news).filter (·.block = block) =
      setAll (cs.filter (·.block = block)) (news.filter (·.block = block)) := by
  induction news using List.reverseRecOn with
  | nil => rfl
  | append_singleton news new ih =>
    rw [setAll_append_singleton, filter_block_upsert, ih, List.filter_append, List.filter_singleton]
    by_cases h : new.block = block
    · simp [h, setAll_append_singleton]
    · simp [h]

/-- The conditions in a bucket. -/
def inBucket (s : Search) (k : Bucket) : List Condition := s.conditions.filter (·.bucket = k)

/-- The call that comes last replaces the first condition in its bucket. -/
theorem inBucket_after_append_singleton (s : Search) (calls : List Call) {call : Call}
    {c : Condition} (h : call.condition? = some c) :
    (s.after (calls ++ [call])).inBucket c.bucket =
      c :: ((s.after calls).inBucket c.bucket).tail := by
  rw [after_append, inBucket, after, List.foldl_cons, List.foldl_nil, Call.conditions_apply, h]
  exact (filter_bucket_upsert _ _ _).trans (if_pos rfl)

/-- No bucket loses a condition, and one that was empty gets one when it is named. -/
theorem length_inBucket_after (s : Search) (calls : List Call) (k : Bucket) :
    ((s.after calls).inBucket k).length =
      max (s.inBucket k).length (if k ∈ (settings calls).map (·.bucket) then 1 else 0) := by
  rw [inBucket, conditions_after]
  induction settings calls using List.reverseRecOn with
  | nil => simp [setAll, inBucket]
  | append_singleton news new ih =>
    rw [setAll_append_singleton, filter_bucket_upsert]
    by_cases h : new.bucket = k
    · rw [if_pos h, List.length_cons, List.length_tail, ih]
      by_cases hnamed : k ∈ news.map (·.bucket)
      · simp [h, hnamed]
      · simp [h, hnamed]
        omega
    · rw [if_neg h, ih]
      simp [Ne.symm h]

/-- Whether there is at most one condition in each bucket. -/
def IsApart (s : Search) : Prop := (s.conditions.map (·.bucket)).Nodup

instance (s : Search) : Decidable s.IsApart := inferInstanceAs (Decidable (List.Nodup _))

theorem isApart_iff {s : Search} : s.IsApart ↔ ∀ k, (s.inBucket k).length ≤ 1 := by
  rw [IsApart, List.nodup_iff_count_le_one]
  refine forall_congr' fun k => ?_
  rw [List.count, List.countP_map, List.countP_eq_length_filter]
  rfl

theorem isApart_after {s : Search} (h : s.IsApart) (calls : List Call) : (s.after calls).IsApart := by
  rw [isApart_iff] at h ⊢
  intro k
  have hk := h k
  rw [length_inBucket_after]
  split <;> omega

/-! ### Descriptions built from nothing -/

/-- The last condition of each bucket, at the place of the first one. -/
def lastInBuckets (cs : List Condition) : List Condition :=
  (cs.map (·.bucket)).eraseDups.filterMap fun k => (cs.filter (·.bucket = k)).getLast?

theorem eraseDups_append_singleton {α : Type} [DecidableEq α] (as : List α) (a : α) :
    (as ++ [a]).eraseDups = if a ∈ as then as.eraseDups else as.eraseDups ++ [a] := by
  rw [List.eraseDups_append, List.removeAll, List.filter_singleton]
  by_cases h : a ∈ as <;> simp [h, List.eraseDups_cons]

theorem map_bucket_setAll (news : List Condition) :
    (setAll [] news).map (·.bucket) = (news.map (·.bucket)).eraseDups := by
  induction news using List.reverseRecOn with
  | nil => rfl
  | append_singleton news new ih =>
    rw [setAll_append_singleton, map_bucket_upsert, ih, List.map_append, List.map_singleton,
      eraseDups_append_singleton]
    exact if_congr List.mem_eraseDups rfl rfl

theorem filter_bucket_setAll (news : List Condition) (k : Bucket) :
    (setAll [] news).filter (·.bucket = k) =
      (news.filter (·.bucket = k)).getLast?.toList := by
  induction news using List.reverseRecOn with
  | nil => rfl
  | append_singleton news new ih =>
    rw [setAll_append_singleton, filter_bucket_upsert, ih, List.filter_append,
      List.getLast?_append, List.filter_singleton]
    by_cases h : new.bucket = k
    · cases (news.filter (·.bucket = k)).getLast? <;> simp [h]
    · simp [h]

theorem setAll_nil (news : List Condition) : setAll [] news = lastInBuckets news := by
  have hlast : ∀ c ∈ setAll [] news, (news.filter (·.bucket = c.bucket)).getLast? = some c := by
    intro c hc
    have hmem : c ∈ (setAll [] news).filter (·.bucket = c.bucket) := List.mem_filter.2 ⟨hc, by simp⟩
    rwa [filter_bucket_setAll, Option.mem_toList] at hmem
  calc setAll [] news = (setAll [] news).filterMap some := List.filterMap_some.symm
    _ = (setAll [] news).filterMap fun c => (news.filter (·.bucket = c.bucket)).getLast? :=
      List.filterMap_congr fun c hc => (hlast c hc).symm
    _ = lastInBuckets news := by
      rw [lastInBuckets, ← map_bucket_setAll, List.filterMap_map]
      rfl

/-- A description that calls build from nothing has one condition for each bucket that they name: at
    the place where the bucket was named first, with the operand with which it was named last. Each
    block is such a map of its own calls, and the two blocks hold all conditions, in their order. The
    calls that set no condition may be left out. -/
theorem conditions_built (calls : List Call) :
    (after {} calls).conditions.map (·.bucket) = ((settings calls).map (·.bucket)).eraseDups ∧
    (after {} calls).IsApart ∧
    (after {} calls).conditions = lastInBuckets (settings calls) ∧
    (∀ block, (after {} calls).conditionsIn block =
      lastInBuckets ((settings calls).filter (·.block = block))) ∧
    (∀ block, ((after {} calls).conditionsIn block).Sublist (after {} calls).conditions) ∧
    ((after {} calls).conditionsIn .and ++ (after {} calls).conditionsIn .or).Perm
      (after {} calls).conditions ∧
    (after {} (calls.filter (·.condition?.isSome))).conditions = (after {} calls).conditions := by
  have hconditions : (after {} calls).conditions = setAll [] (settings calls) :=
    conditions_after {} calls
  have hempty : IsApart {} := List.nodup_nil
  refine ⟨?_, isApart_after hempty calls, ?_, fun block => ?_, fun block => List.filter_sublist,
    ?_, ?_⟩
  · rw [hconditions, map_bucket_setAll]
  · rw [hconditions, setAll_nil]
  · rw [conditionsIn, hconditions, filter_block_setAll, List.filter_nil, setAll_nil]
  · have hother : (after {} calls).conditionsIn .or =
        (after {} calls).conditions.filter (fun c => !decide (c.block = .and)) :=
      List.filter_congr fun c _ => by cases c.block <;> rfl
    rw [hother]
    exact List.filter_append_perm _ _
  · have hsame : settings (calls.filter (·.condition?.isSome)) = settings calls := by
      rw [settings, settings, List.filterMap_filter]
      exact List.filterMap_congr fun call _ => by cases call.condition? <;> rfl
    rw [hconditions, conditions_after, hsame]

/-! ### Descriptions that were stored -/

/-- The conditions that a stored form lists. -/
def storedConditions (v : Value) : Option (List Value) := do
  let f ← Reader.fields ["attributes", "conditions", "paging", "order", "entity_groups"] v
  f.required "conditions" (.listOf .any)

/-- Reading takes the conditions as they are listed. -/
theorem conditions_ofStored {v : Value} {s : Search} (h : ofStored v = some s) :
    ∃ items, storedConditions v = some items ∧
      items.mapM Condition.ofStored = some s.conditions := by
  simp only [ofStored, Option.bind_eq_bind, Option.bind_eq_some_iff] at h
  obtain ⟨f, hfields, _, -, cs, hcs, _, -, _, -, _, -, hs⟩ := h
  obtain rfl := congrArg conditions (Option.some.inj hs)
  rw [Reader.Fields.required, Option.bind_eq_some_iff] at hcs
  obtain ⟨list, hlookup, hread⟩ := hcs
  rw [Reader.listOf.eq_def] at hread
  split at hread
  · next items =>
    have hitems : items.mapM (fun v => (pure (id v) : Option Value)) = some items := by
      rw [List.mapM_pure, List.map_id]
      rfl
    refine ⟨items, ?_, hread⟩
    simp only [storedConditions, hfields, Option.bind_eq_bind, Option.bind_some,
      Reader.Fields.required, hlookup]
    exact hitems
  · cases hread

/-- From a description that was stored, calls keep one condition for each bucket, and leave in it the
    operand with which it was named last, exactly if the stored list names each bucket once. Otherwise
    no bucket ever has fewer conditions than it was stored with: only the first one takes the operand,
    and the others stay beside it. -/
theorem stored_isApart_iff {v : Value} {s : Search} (h : ofStored v = some s) :
    (∃ items, storedConditions v = some items ∧
      items.mapM Condition.ofStored = some s.conditions) ∧
    ((∀ calls, (∀ k, ((s.after calls).inBucket k).length ≤ 1) ∧
        ∀ call c, call.condition? = some c → (s.after (calls ++ [call])).inBucket c.bucket = [c]) ↔
      (s.conditions.map (·.bucket)).Nodup) ∧
    (∀ calls k, ((s.after calls).inBucket k).length =
      max (s.inBucket k).length (if k ∈ (settings calls).map (·.bucket) then 1 else 0)) ∧
    ∀ calls call c, call.condition? = some c →
      (s.after (calls ++ [call])).inBucket c.bucket =
        c :: ((s.after calls).inBucket c.bucket).tail := by
  refine ⟨conditions_ofStored h, ⟨fun hapart => isApart_iff.2 (hapart []).1, fun hapart calls => ?_⟩,
    s.length_inBucket_after, fun calls call c hc => s.inBucket_after_append_singleton calls hc⟩
  have hcalls := isApart_iff.1 (isApart_after hapart calls)
  refine ⟨hcalls, fun call c hc => ?_⟩
  have hnone : ((s.after calls).inBucket c.bucket).tail = [] :=
    List.eq_nil_of_length_eq_zero (by rw [List.length_tail, Nat.sub_eq_zero_of_le (hcalls c.bucket)])
  rw [s.inBucket_after_append_singleton calls hc, hnone]

/-- What is neither deleted nor anything but a draft. -/
def openDrafts : Search where
  conditions := [⟨"status", .eq, .string "draft", .and⟩, ⟨"status", .ne, .string "deleted", .and⟩]

/-- A stored search for drafts becomes one for what is active, and for nothing else. -/
theorem openDrafts_stay_apart :
    ofStored openDrafts.toStored = some openDrafts ∧ (openDrafts.conditions.map (·.bucket)).Nodup ∧
      (openDrafts.after [.requireEq "status" (.string "active")]).inBucket ⟨.and, .eq, "status"⟩ =
        [⟨"status", .eq, .string "active", .and⟩] := by
  have hstored : ofStored openDrafts.toStored = some openDrafts := ofStored_toStored trivial
  have hapart : (openDrafts.conditions.map (·.bucket)).Nodup := by decide
  obtain ⟨-, hiff, -⟩ := stored_isApart_iff hstored
  exact ⟨hstored, hapart, (hiff.2 hapart []).2 (.requireEq "status" (.string "active")) _ rfl⟩

/-- What is a draft and is archived. -/
def archivedDrafts : Search where
  conditions := [⟨"status", .eq, .string "draft", .and⟩, ⟨"status", .eq, .string "archived", .and⟩]

/-- A stored search that requires two statuses goes on to require the second one when another status
    is required. -/
theorem archivedDrafts_stay_archived :
    ofStored archivedDrafts.toStored = some archivedDrafts ∧
      (archivedDrafts.after [.requireEq "status" (.string "active")]).inBucket
        ⟨.and, .eq, "status"⟩ =
          [⟨"status", .eq, .string "active", .and⟩, ⟨"status", .eq, .string "archived", .and⟩] :=
  ⟨ofStored_toStored trivial, rfl⟩

end Search

end RecordStore
