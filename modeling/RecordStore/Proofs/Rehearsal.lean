import RecordStore.Rehearsal.Stage
import RecordStore.Proofs.Transaction.Observation

/-!
# The stage keeps its word

The lines of a stage are connections as transactions expect them: a call that succeeds opens or
closes the transaction of its line, a call that fails does not, and no line touches another one
(`Stage.lineOf_isFaithful`). Statements and notes leave all transactions alone. So a chain of
transactions on a stage is a fair one (`Stage.isFair_of_lines`), under any plan of failures.
-/

namespace RecordStore.Rehearsal.Stage

/-- Whether a transaction is open on the line whose number is this identity. -/
def isOpenOn (id : ConnectionId) (s : Stage) : Bool := (s.lines id.bits.toNat).isOpen

/-- The line whose number is this identity. -/
def lineOf (id : ConnectionId) : Connection Stage := connection id id.bits.toNat

@[simp]
theorem isOpenOn_setLine (s : Stage) (id id' : ConnectionId) (line : Line)
    (journal : List Entry) :
    isOpenOn id' { s.setLine id.bits.toNat line with journal := journal } =
      if id' = id then line.isOpen else isOpenOn id' s := by
  have hiff : id'.bits.toNat = id.bits.toNat ↔ id' = id := by
    rw [BitVec.toNat_inj]
    exact ⟨fun h => by cases id; cases id'; exact congrArg _ h, fun h => h ▸ rfl⟩
  simp only [isOpenOn, setLine, hiff]
  split <;> rfl

/-- A call whose effect opens or closes its line does so unless it fails. -/
theorem turn_turns (id : ConnectionId) (call : Call) (details : Details) (toOpen : Bool) :
    (turn id.bits.toNat call details toOpen).Turns isOpenOn id toOpen where
  granted s := by
    simp only [turn, answer, Act.perform_make]
    split <;> simp
  failed s e := by
    simp only [turn, answer, Act.perform_make]
    split
    · intro _
      rw [isOpenOn_setLine, if_pos rfl]
      rfl
    · simp
  others s id' hne := by
    simp only [turn, answer, Act.perform_make]
    split <;> simp [hne]

/-- A line is a connection as transactions expect it. -/
theorem lineOf_isFaithful (id : ConnectionId) : (lineOf id).IsFaithful isOpenOn where
  inTransaction _ := rfl
  begin := turn_turns id .begin .none true
  commit := turn_turns id .commit .none false
  rollback := turn_turns id .rollback .none false

/-- A call whose effect neither opens nor closes its line leaves all transactions alone. -/
theorem answer_spares {α : Type} (id : ConnectionId) (call : Call) (details : Details)
    {effect : Line → α × Line} (heffect : ∀ line, (effect line).2.isOpen = line.isOpen) :
    (answer id.bits.toNat call details effect).Spares isOpenOn := by
  intro s id'
  simp only [answer, Act.perform_make]
  split <;> simp only [isOpenOn_setLine, heffect] <;> split
  · next hid => rw [hid]; rfl
  · rfl
  · next hid => rw [hid]; rfl
  · rfl

theorem execute_spares (id : ConnectionId) (sql : String) (params : List Param) :
    ((lineOf id).execute sql params).Spares isOpenOn :=
  answer_spares id .execute _ fun line => by
    rcases h : line.affected with _ | ⟨n, rest⟩ <;> simp [nextAffected, h]

/-- A unit of work that sends one statement to a line. -/
def statementUnit (id : ConnectionId) (sql : String) : WorkUnit Stage :=
  .connectedTask (lineOf id) do let _ ← (lineOf id).execute sql []

/-- A unit of work that takes a note. -/
def noteUnit (v : Value) : WorkUnit Stage := .task (note (.log v))

theorem statementUnit_spares (id : ConnectionId) (sql : String) :
    (statementUnit id sql).run.Spares isOpenOn := by
  intro s id'
  have hspares := execute_spares id sql [] s id'
  simp only [statementUnit, WorkUnit.connectedTask, Act.perform_bind]
  rcases h : ((lineOf id).execute sql []).perform s with ⟨_ | _, s'⟩ <;> rw [h] at hspares <;>
    exact hspares

theorem noteUnit_spares (v : Value) : (noteUnit v).run.Spares isOpenOn := fun _ _ => rfl

/-- Transactions that have a line in common, with one between them that only runs its unit. -/
def sharedChain : List (Transaction Stage) := [
  .connected [
    { connection := lineOf ⟨0⟩, units := [statementUnit ⟨0⟩ "DELETE FROM a"] },
    { connection := lineOf ⟨1⟩, units := [statementUnit ⟨1⟩ "DELETE FROM b"] }],
  .plain [noteUnit .null],
  .connected [
    { connection := lineOf ⟨0⟩, units := [statementUnit ⟨0⟩ "DELETE FROM c"] },
    { connection := lineOf ⟨2⟩, units := [statementUnit ⟨2⟩ "DELETE FROM d"] }]]

theorem sharedChain_isFair : Chain.IsFair isOpenOn (pure ()) sharedChain where
  fresh := by
    simp only [sharedChain, List.forall_mem_cons]
    exact ⟨⟨[statementUnit ⟨0⟩ "DELETE FROM a", statementUnit ⟨1⟩ "DELETE FROM b"], .inl rfl⟩,
      ⟨[noteUnit .null], .inr rfl⟩,
      ⟨[statementUnit ⟨0⟩ "DELETE FROM c", statementUnit ⟨2⟩ "DELETE FROM d"], .inl rfl⟩, by simp⟩
  connections := by
    simp only [sharedChain, List.forall_mem_cons, Transaction.units, List.flatMap_cons,
      List.flatMap_nil, List.cons_append, List.nil_append]
    simp [statementUnit, noteUnit, WorkUnit.task, WorkUnit.connectedTask, lineOf_isFaithful]
  units := by
    simp [sharedChain, Transaction.units, statementUnit_spares, noteUnit_spares]
  check := fun _ _ => rfl

/-- A stage where the caller has a transaction on line 2, and where line 1 neither commits nor rolls
    back. -/
def tornStage : Stage where
  lines
    | 1 => { name := "b", failures := fun call _ => call = .commit || call = .rollback }
    | 2 => { name := "c", isOpen := true }
    | _ => { name := "a" }

end RecordStore.Rehearsal.Stage
