import Rollbook.Registrar

/-!
# Rollbook — sessions

A register in use: the committed state and any number of open transactions, each under a name of
its own. A session runs step by step; every step is given the moment at which it happens, and is
answered in turn. A failing step ends neither the session nor its transaction, except that a commit
closes its transaction whether it succeeds or not.
-/

namespace Rollbook

/-- An operation on records. -/
inductive Operation where
  | create (t : Table) (record : Record t)
  | login (role : Role) (id : String)
  | get (t : Table) (uuid : String)
  | find (person : Person) (wanted : Revision person.profiles)
  | modify (t : Table) (uuid : String) (revision : Revision t)
  | delete (role : Role) (uuid : String)

/-- An operation on bare rows. -/
inductive RawOperation where
  | insert (t : Table) (row : Columns)
  | select (t : Table) (filter : Columns)
  | update (t : Table) (filter payload : Columns)
  | delete (t : Table) (filter : Columns)

/-- What a transaction was opened for: operations on records or on bare rows. -/
inductive Access where
  | records
  | rows
deriving DecidableEq, Repr

/-- One step of a session. -/
inductive Step where
  | begin (access : Access) (tx : String)
  | wrap (tx : String)
  | commit (tx : String)
  | rollback (tx : String)
  | drop (tx : String)
  | rows (t : Table)
  | rowCount (t : Table)
  | operate (tx : String) (operation : Operation)
  | operateRaw (tx : String) (operation : RawOperation)

/-- The answer to a step that succeeds. -/
inductive Answer where
  | done
  | record (t : Table) (record : Record t)
  | uuids (uuids : List String)
  | rows (rows : List Row)
  | count (n : Nat)

/-- Why a step is refused. -/
inductive Refusal where
  | noTransaction
  | wrongAccess
  | failure (failure : Failure)

/-- An open transaction and what it was opened for. -/
structure OpenTransaction where
  access : Access
  transaction : Transaction

/-- The committed state and the open transactions by name. -/
structure Session where
  committed : Database
  transactions : List (String × OpenTransaction)

/-- The step that an operation on records takes in its transaction. -/
def Operation.run (now : Timestamp) : Operation → Transact Answer
  | create t record => return .record t (← Registrar.create now record)
  | login role id => return .record role.accounts (← Registrar.login role id)
  | get t uuid => return .record t (← Registrar.get t uuid)
  | find _ wanted => return .uuids (← Registrar.uuidsMatching wanted)
  | modify _ uuid revision => do Registrar.modify now uuid revision; return .done
  | delete role uuid => do Registrar.delete now role uuid; return .done

/-- The step that an operation on bare rows takes in its transaction. -/
def RawOperation.run (now : Timestamp) : RawOperation → Transact Answer
  | insert t row => do Transaction.insert now t row; return .done
  | select t filter => return .rows (← Transaction.select t filter)
  | update t filter payload => return .count (← Transaction.update now t filter payload)
  | delete t filter => return .count (← Transaction.delete now t filter)

namespace Session

/-- The session of a new register. -/
def new : Session := ⟨.empty, []⟩

/-- The open transaction of a name. -/
def find? (s : Session) (tx : String) : Option OpenTransaction := s.transactions.lookup tx

/-- The session without the transaction of a name. -/
def close (s : Session) (tx : String) : Session :=
  { s with transactions := s.transactions.filter fun p => p.1 ≠ tx }

/-- The session with a transaction under a name, in place of any that was open under it. -/
def put (s : Session) (tx : String) (opened : OpenTransaction) : Session :=
  { s with transactions := (tx, opened) :: (s.close tx).transactions }

/-- A closed name leads nowhere, and every other name where it led before. -/
@[simp] theorem find?_close (s : Session) (tx key : String) :
    (s.close tx).find? key = if key = tx then none else s.find? key := by
  obtain ⟨committed, opened⟩ := s
  simp only [close, find?]
  induction opened with
  | nil => simp
  | cons p rest ih =>
    obtain ⟨n, t⟩ := p
    by_cases hn : n = tx
    · subst hn
      simp only [List.filter_cons, ne_eq, not_true_eq_false, decide_false, Bool.false_eq_true,
        if_false, ih]
      by_cases hk : key = n
      · simp [hk]
      · simp [hk, List.lookup_cons, beq_eq_false_iff_ne.2 hk]
    · have hkeep : decide (n ≠ tx) = true := by simpa using hn
      rw [List.filter_cons, if_pos hkeep, List.lookup_cons, List.lookup_cons, ih]
      by_cases hk : key = n
      · subst hk; simp [hn]
      · simp [beq_eq_false_iff_ne.2 hk]

/-- A name leads to the transaction last put under it. -/
@[simp] theorem find?_put (s : Session) (tx key : String) (opened : OpenTransaction) :
    (s.put tx opened).find? key = if key = tx then some opened else s.find? key := by
  have h := find?_close s tx key
  by_cases hk : key = tx
  · subst hk; simp [put, find?]
  · simp only [if_neg hk] at h ⊢
    rw [← h]
    simp [put, find?, List.lookup_cons, beq_eq_false_iff_ne.2 hk]

/-- Runs a step inside the transaction of a name, which must have been opened for such steps. -/
def inside (s : Session) (tx : String) (access : Access) (step : Transact Answer) :
    Session × Except Refusal Answer :=
  match s.find? tx with
  | none => (s, .error .noTransaction)
  | some opened =>
    if opened.access ≠ access then (s, .error .wrongAccess)
    else
      let (result, transaction) := step opened.transaction
      (s.put tx { opened with transaction }, result.mapError .failure)

/-- Closes the transaction of a name and publishes what it did, if every statement of it still
succeeds. -/
def commit (s : Session) (tx : String) : Session × Except Refusal Answer :=
  match s.find? tx with
  | none => (s, .error .noTransaction)
  | some opened =>
    match opened.transaction.commit s.committed with
    | .ok committed => ({ s.close tx with committed }, .ok .done)
    | .error f => (s.close tx, .error (.failure f))

/-- Takes one step at a moment: the session after it, and the answer. A transaction that is wrapped
serves operations on records from then on, and one that is dropped is gone without a trace. -/
def step (s : Session) (now : Timestamp) : Step → Session × Except Refusal Answer
  | .begin access tx => (s.put tx ⟨access, .begin s.committed⟩, .ok .done)
  | .wrap tx =>
    match s.find? tx with
    | none => (s, .error .noTransaction)
    | some opened => (s.put tx { opened with access := .records }, .ok .done)
  | .commit tx => s.commit tx
  | .rollback tx =>
    match s.find? tx with
    | none => (s, .error .noTransaction)
    | some _ => (s.close tx, .ok .done)
  | .drop tx => (s.close tx, .ok .done)
  | .rows t => (s, .ok (.rows (s.committed.rows t)))
  | .rowCount t => (s, .ok (.count (s.committed.rows t).length))
  | .operate tx operation => s.inside tx .records (operation.run now)
  | .operateRaw tx operation => s.inside tx .rows (operation.run now)

/-- The session after a list of steps, each at its moment. -/
def run (s : Session) (steps : List (Timestamp × Step)) : Session :=
  steps.foldl (fun s p => (s.step p.1 p.2).1) s

end Session

end Rollbook
