import Rollbook.Failure
import Rollbook.Store.Database

/-!
# Rollbook — transactions

A transaction works on a private copy of the committed state and keeps a journal of the statements
that succeeded there. To commit is to run the journal again on the state as it is by then, with the
moments first taken; the result becomes the committed state as a whole, or nothing does.
-/

namespace Rollbook

/-- A statement that succeeded, and the moment it was run at. -/
structure JournalEntry where
  moment : Timestamp
  statement : Statement
deriving DecidableEq

/-- An open transaction: its copy of the state, and its statements in order. -/
structure Transaction where
  snapshot : Database
  journal : List JournalEntry

/-- A step of a transaction that may fail. What a failing step did to the transaction stays. -/
abbrev Transact := ExceptT Failure (StateM Transaction)

namespace Transaction

/-- Opens a transaction on a committed state. -/
def begin (committed : Database) : Transaction := ⟨committed, []⟩

/-- Runs a statement on the copy and notes it in the journal if it succeeds. -/
def execute (now : Timestamp) (statement : Statement) : Transact Nat := fun tx =>
  match tx.snapshot.execute now statement with
  | .ok (db, count) => (.ok count, ⟨db, tx.journal ++ [⟨now, statement⟩]⟩)
  | .error b => (.error (.ofEngineError b.report), tx)

/-- The rows of a table that meet a filter. -/
def select (t : Table) (filter : Columns) : Transact (List Row) := fun tx =>
  match Database.unknownColumn? t filter .whereClause with
  | some b => (.error (.ofEngineError b.report), tx)
  | none => (.ok (tx.snapshot.select t filter), tx)

/-- Inserts a row. -/
def insert (now : Timestamp) (t : Table) (row : Columns) : Transact Unit := do
  let _ ← execute now (.insert t row)

/-- Updates the rows that meet a filter and tells how many changed. Without a column to set there is
nothing to run. -/
def update (now : Timestamp) (t : Table) (filter payload : Columns) : Transact Nat :=
  if payload.isEmpty then pure 0 else execute now (.update t filter payload)

/-- Deletes the rows that meet a filter and tells how many there were. -/
def delete (now : Timestamp) (t : Table) (filter : Columns) : Transact Nat :=
  execute now (.delete t filter)

/-- Runs the entries of a journal one after the other. -/
def replay (db : Database) : List JournalEntry → Except Breach Database
  | [] => .ok db
  | e :: rest =>
    match db.execute e.moment e.statement with
    | .ok (next, _) => replay next rest
    | .error b => .error b

/-- The committed state after the commit of a transaction. -/
def commit (tx : Transaction) (committed : Database) : Except Failure Database :=
  match replay committed tx.journal with
  | .ok db => .ok db
  | .error b => .error (.ofEngineError b.report)

end Transaction

end Rollbook
