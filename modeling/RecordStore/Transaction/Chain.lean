import RecordStore.Transaction.Basic

/-!
# Chains of transactions

A chain drives several transactions as one unit: all are begun in order, all are run in order, a
check has its say, and all are committed in order. Whatever fails first is the error of the chain,
and then everything that is still open is rolled back, the errors of which are dropped.

Commits cannot be undone. When a commit fails after earlier transactions of the chain were
committed, the error is reported as `StoreError.partialCommit`.
-/

namespace RecordStore.Chain

variable {σ : Type}

/-- Rolls back every transaction as far as that goes. -/
def undoAll : List (Transaction σ) → σ → σ
  | [], s => s
  | t :: rest, s => undoAll rest (Transaction.rollback.perform (s, t)).2.1

/-- Runs transactions in order, up to the first failure. -/
def runAll : List (Transaction σ) → Act σ Unit
  | [] => pure ()
  | t :: rest => do t.run; runAll rest

/-- Commits transactions in order, up to the first failure; `index` of `total` went before. -/
def commitAll (total : Nat) :
    Nat → List (Transaction σ) → σ → Except StoreError Unit × σ × List (Transaction σ)
  | _, [], s => (.ok (), s, [])
  | index, t :: rest, s =>
    match Transaction.commit.perform (s, t) with
    | (.ok _, s', t') =>
      let (r, s'', rest') := commitAll total (index + 1) rest s'
      (r, s'', t' :: rest')
    | (.error e, s', t') =>
      let report := if index = 0 then e else .partialCommit index (index + 1) total e
      (.error report, s', t' :: rest)

/-- Begins, runs, checks and commits the transactions. -/
def execute (check : Act σ Unit) (transactions : List (Transaction σ)) : Act σ Unit :=
  Act.make fun s =>
    match Act.each Transaction.begin transactions s with
    | (.error e, s, ts) => (.error e, undoAll ts s)
    | (.ok _, s, ts) =>
      match (do runAll ts; check : Act σ Unit).perform s with
      | (.error e, s) => (.error e, undoAll ts s)
      | (.ok _, s) =>
        match commitAll ts.length 0 ts s with
        | (.error e, s, ts) => (.error e, undoAll ts s)
        | (.ok _, s, _) => (.ok (), s)

/-- A chain without a check in diagnostics. -/
def describe (transactions : List (Transaction σ)) : String :=
  Describe.record "ChainedTransactionManager" [("transactions", toString transactions.length)]

/-- A chain with a check in diagnostics. -/
def describeChecked (transactions : List (Transaction σ)) : String :=
  Describe.openRecord "ExecuteTryTransactionManager"
    [("transactions", toString transactions.length)]

end RecordStore.Chain
