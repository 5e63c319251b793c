import RecordStore.Proofs.Save.Nesting
import RecordStore.Rehearsal.Stage

/-!
# The ledger of a stage

The journal of a stage tells of every begin, commit and rollback with its outcome, and of every
statement, so it is a ledger (`Stage.ledger`). Every line carries what is entered there
(`Stage.connection_carries`), under any plan of failures.

So models can be saved on a stage (`Stage.itemEngine`): items on line 0, along a route with
transactions and along one without.
-/

namespace RecordStore.Rehearsal

/-- The call that a request is made by. -/
def Call.ofRequest : Ledger.Request → Call
  | .begin => begin
  | .commit => commit
  | .rollback => rollback

/-- What an entry of the journal tells of the lines; all else is a step. -/
def Entry.told : Entry → Ledger.Entry Nat Entry
  | .call i _ .begin _ => .control i .begin (.ok ())
  | .call i _ .commit _ => .control i .commit (.ok ())
  | .call i _ .rollback _ => .control i .rollback (.ok ())
  | .call i _ .execute _ => .statement i
  | .failed i name .begin => .control i .begin (.error (Call.begin.failure name))
  | .failed i name .commit => .control i .commit (.error (Call.commit.failure name))
  | .failed i name .rollback => .control i .rollback (.error (Call.rollback.failure name))
  | .failed i _ .execute => .statement i
  | entry => .step entry (.ok ())

@[simp]
theorem Entry.told_call (i : Nat) (name : String) (q : Ledger.Request) (details : Details) :
    (call i name (.ofRequest q) details).told = .control i q (.ok ()) := by
  cases q <;> rfl

@[simp]
theorem Entry.told_failed (i : Nat) (name : String) (q : Ledger.Request) :
    (failed i name (.ofRequest q)).told =
      .control i q (.error ((Call.ofRequest q).failure name)) := by
  cases q <;> rfl

namespace Stage

/-- The lines of a stage, and what its journal tells of them. -/
def ledger : Ledger Nat Entry Stage where
  isOpen i s := (s.lines i).isOpen
  entries s := s.journal.map (·.told)

@[simp]
theorem ledger_isOpen_setLine (s : Stage) (i j : Nat) (line : Line) (journal : List Entry) :
    ledger.isOpen j { s.setLine i line with journal := journal } =
      if j = i then line.isOpen else ledger.isOpen j s := by
  simp only [ledger, setLine]
  split <;> rfl

@[simp]
theorem ledger_entries_setLine (s : Stage) (i : Nat) (line : Line) (entry : Entry) :
    ledger.entries { s.setLine i line with journal := s.journal ++ [entry] } =
      ledger.entries s ++ [entry.told] := by
  simp [ledger]

/-- A request is entered as the call that it is made by. -/
theorem turn_enters (i : Nat) (q : Ledger.Request) (details : Details) :
    ledger.Enters i q (turn i (.ofRequest q) details (decide (q = .begin))) where
  entries s := by
    simp only [turn, answer, Act.perform_make]
    split <;> simp
  granted s := by
    simp only [turn, answer, Act.perform_make]
    split <;> simp
  failed s e := by
    simp only [turn, answer, Act.perform_make]
    split
    · intro _
      rw [ledger_isOpen_setLine, if_pos rfl]
      rfl
    · simp
  others s j hne := by
    simp only [turn, answer, Act.perform_make]
    split <;> simp [hne]

/-- A call whose effect neither opens nor closes its line leaves it, and is entered whether or not it
    fails. -/
theorem answer_enters {α : Type} (i : Nat) (call : Call) (details : Details)
    {effect : Line → α × Line} (heffect : ∀ line, (effect line).2.isOpen = line.isOpen) (s : Stage) :
    ledger.isOpen i ((answer i call details effect).perform s).2 = ledger.isOpen i s ∧
      ∃ entry name, (entry = Entry.failed i name call ∨ entry = Entry.call i name call details) ∧
        ledger.entries ((answer i call details effect).perform s).2 =
          ledger.entries s ++ [entry.told] := by
  simp only [answer, Act.perform_make]
  split
  · rw [ledger_isOpen_setLine, if_pos rfl]
    exact ⟨rfl, _, _, .inl rfl, ledger_entries_setLine _ _ _ _⟩
  · rw [ledger_isOpen_setLine, if_pos rfl, heffect]
    exact ⟨rfl, _, _, .inr rfl, ledger_entries_setLine _ _ _ _⟩

/-- The connection of a line carries what the ledger says of it. -/
theorem connection_carries (id : ConnectionId) (i : Nat) : ledger.Carries i (connection id i) where
  inTransaction _ := rfl
  begin := turn_enters i .begin .none
  commit := turn_enters i .commit .none
  rollback := turn_enters i .rollback .none
  execute sql params s := by
    have haffected : ∀ line, (nextAffected line).2.isOpen = line.isOpen := fun line => by
      rcases h : line.affected with _ | ⟨n, rest⟩ <;> simp [nextAffected, h]
    obtain ⟨hopen, entry, name, rfl | rfl, hentries⟩ :=
      answer_enters i .execute (.statement sql params) haffected s <;>
      exact ⟨hopen, hentries⟩
  lastInsertId s := by
    have hnext : ∀ line : Line,
        (line.nextId, { line with nextId := line.nextId + 1 }).2.isOpen = line.isOpen :=
      fun _ => rfl
    obtain ⟨hopen, entry, name, rfl | rfl, hentries⟩ :=
      answer_enters i .lastInsertId .none hnext s <;>
      exact ⟨hopen, _, hentries, by simp [Ledger.Silent, Entry.told, Ledger.Entry.concerns]⟩

/-! ### Items -/

/-- A stage on which nothing happened yet. -/
def emptyStage : Saving Stage where
  world := {}

def itemSchema : Schema := ⟨[{ name := "id", isKey := true }, { name := "name" }]⟩

/-- An item that was not saved yet. -/
def item (name : String) : Record where
  schema := itemSchema
  values := [("name", .string name)]
  edited := ["name"]

/-- Items are saved on line 0, along route 0 in transactions, along the others without. After an
    order, a part of it is saved along a route without transactions. -/
def itemEngine : SaveEngine Record Stage where
  routes route := {
    writer := (TableStore.mk (connection default 0)
      { table := "item", schema := itemSchema }).modelWriter
    scheme := if route = 0 then .standard else ⟨fun _ => Transaction.ofPlain⟩ }
  behaviour := {
    hooks := fun m =>
      if m.values.getOrNull "name" == .string "order" then
        [{ after := .save (some 1) (fun _ => [item "part"]) (fun _ m => m) fun _ _ =>
          .done .proceed }]
      else [] }

theorem itemEngine_isOn : itemEngine.IsOn ledger 0 where
  store _ := ⟨_, rfl, connection_carries default 0⟩
  scheme route := by
    simp only [itemEngine]
    split
    · exact Transaction.ofConnected_connects.connectsOrRuns
    · exact Transaction.ofPlain_connectsOrRuns
  beforeValidate := trivial
  beforeSave := trivial
  afterSave := trivial
  before m hook hhook := by
    simp only [itemEngine] at hhook
    split at hhook
    · rw [List.mem_singleton.1 hhook]
      trivial
    · cases hhook
  after m hook hhook := by
    simp only [itemEngine] at hhook
    split at hhook
    · rw [List.mem_singleton.1 hhook]
      exact ⟨trivial, fun _ _ => trivial⟩
    · cases hhook

end Stage

end RecordStore.Rehearsal
