import Mathlib.Data.List.Induction
import Rollbook.Proofs.Operation

/-!
# Rollbook — the course of a session

A session seen from outside: which statement a step issues in which transaction, and what becomes of
a transaction and of the committed state in one step. A property of databases that every statement
keeps holds of the committed state and of every copy throughout (`throughout_run`), since a commit
only runs statements of its journal again. For a property of single rows it is enough to look at the
rows that a statement inserts and at those that it revises (`keeps_rows`).
-/

namespace Rollbook

/-- Whether a step opens or closes the transaction of a name. -/
def Step.bounds (tx : String) : Step → Bool
  | .begin _ name => name = tx
  | .commit name => name = tx
  | .rollback name => name = tx
  | .drop name => name = tx
  | _ => false

/-- What a transaction that was opened for some access serves after a step. -/
def Step.access (tx : String) (access : Access) : Step → Access
  | .wrap name => if name = tx then .records else access
  | _ => access

/-- A transaction of records stays one. -/
theorem Step.access_records (step : Step) (tx : String) : step.access tx .records = .records := by
  cases step with
  | wrap name => exact ite_self _
  | _ => rfl

namespace Session

/-- The statement that a step issues in the transaction of a name, if any. -/
def issued? (s : Session) (tx : String) (step : Step) : Option Statement :=
  (s.find? tx).bind fun opened =>
    match step with
    | .operate name operation =>
      if name = tx ∧ opened.access = .records then
        operation.issued? opened.transaction.snapshot
      else none
    | .operateRaw name operation =>
      if name = tx ∧ opened.access = .rows then operation.issued? else none
    | _ => none

variable {s : Session} {now : Timestamp} {tx : String} {step : Step} {opened : OpenTransaction}

/-- A run in two parts is the one after the other. -/
theorem run_append (s : Session) (xs ys : List (Timestamp × Step)) :
    s.run (xs ++ ys) = (s.run xs).run ys := List.foldl_append

/-- A run with one more step, which is how runs are taken apart in the inductions. -/
theorem run_concat (s : Session) (steps : List (Timestamp × Step)) (p : Timestamp × Step) :
    s.run (steps ++ [p]) = ((s.run steps).step p.1 p.2).1 := run_append s steps [p]

/-- Closing a transaction leaves the committed database. -/
@[simp] theorem committed_close (s : Session) (tx : String) :
    (s.close tx).committed = s.committed := rfl

@[simp] theorem find?_committed (s : Session) (db : Database) (tx : String) :
    ({ s with committed := db } : Session).find? tx = s.find? tx := rfl

-- ---------------------------------------------------------------------------
-- One step
-- ---------------------------------------------------------------------------

/-- A step inside a transaction that is open for it ends there as its work does. -/
theorem inside_of_open {name : String} {access : Access} (work : Transact Answer)
    (h : s.find? name = some opened) (haccess : opened.access = access) :
    s.inside name access work =
      (s.put name { opened with transaction := (work opened.transaction).2 },
        (work opened.transaction).1.mapError .failure) := by
  simp only [inside, h]
  rw [if_neg (not_not.2 haccess)]
  rfl

/-- A step inside a transaction that is not open for it is refused. -/
theorem inside_of_not_open {name : String} {access : Access} (work : Transact Answer)
    (h : ∀ opened, s.find? name = some opened → opened.access ≠ access) :
    ∃ refusal, s.inside name access work = (s, .error refusal) := by
  rw [inside]
  cases hfind : s.find? name with
  | none => exact ⟨_, rfl⟩
  | some opened => exact ⟨_, if_pos (h opened hfind)⟩

/-- A step inside a transaction moves that transaction and nothing else. -/
theorem find?_inside (s : Session) (name tx : String) (access : Access) (work : Transact Answer) :
    (s.inside name access work).1.find? tx = (s.find? tx).map fun opened =>
      if name = tx ∧ opened.access = access then
        { opened with transaction := (work opened.transaction).2 }
      else opened := by
  by_cases hopen : ∃ opened, s.find? name = some opened ∧ opened.access = access
  · obtain ⟨opened, hfind, haccess⟩ := hopen
    rw [inside_of_open work hfind haccess, find?_put]
    by_cases hname : tx = name
    · subst hname
      simp [hfind, haccess]
    · simp [hname, Ne.symm hname]
  · -- work that finds no such transaction open is not done at all
    have hclosed : ∀ opened, s.find? name = some opened → opened.access ≠ access :=
      fun opened hfind haccess => hopen ⟨opened, hfind, haccess⟩
    obtain ⟨refusal, hrefused⟩ := inside_of_not_open work hclosed
    rw [hrefused]
    cases hfind : s.find? tx with
    | none => rfl
    | some opened =>
      rw [Option.map_some, if_neg]
      rintro ⟨rfl, haccess⟩
      exact hclosed opened hfind haccess

theorem committed_inside (s : Session) (name : String) (access : Access)
    (work : Transact Answer) : (s.inside name access work).1.committed = s.committed := by
  rw [inside]
  split
  · rfl
  · split <;> rfl

/-- A step that issues nothing in a transaction and does not touch it makes no attempt there. -/
theorem find?_step_of_same (now : Timestamp)
    (hsame : (s.step now step).1.find? tx = s.find? tx) (hissued : s.issued? tx step = none)
    (haccess : ∀ access, step.access tx access = access) :
    (s.step now step).1.find? tx = (s.find? tx).map fun opened =>
      ⟨step.access tx opened.access, opened.transaction.attempt now (s.issued? tx step)⟩ := by
  rw [hsame, hissued]
  cases s.find? tx with
  | none => rfl
  | some opened => simp [haccess, Transaction.attempt]

/-- A step that neither opens nor closes a transaction leaves it with an attempt at the statement
that the step issues in it. -/
theorem find?_step_of_not_bounds (now : Timestamp) (hstep : step.bounds tx = false) :
    (s.step now step).1.find? tx = (s.find? tx).map fun opened =>
      ⟨step.access tx opened.access, opened.transaction.attempt now (s.issued? tx step)⟩ := by
  -- nothing but an operation issues a statement
  have hnone : (∀ name operation, step ≠ .operate name operation) →
      (∀ name operation, step ≠ .operateRaw name operation) → s.issued? tx step = none := by
    intro hoperate hraw
    rw [issued?, Option.bind_eq_none_iff]
    intro opened _
    split
    · exact absurd rfl (hoperate _ _)
    · exact absurd rfl (hraw _ _)
    · rfl
  cases step with
  | begin access name =>
    have hname : tx ≠ name := by simpa [Step.bounds, eq_comm] using hstep
    refine find?_step_of_same now ?_ (hnone (by simp) (by simp)) fun _ => rfl
    rw [Session.step, find?_put, if_neg hname]
  | wrap name =>
    by_cases hname : name = tx
    · -- a wrapped transaction stays, but for what it serves
      subst hname
      cases h : s.find? name <;> simp [Session.step, issued?, h, Transaction.attempt, Step.access]
    · refine find?_step_of_same now ?_ (hnone (by simp) (by simp)) fun _ => if_neg hname
      rw [Session.step]
      split
      · rfl
      · rw [find?_put, if_neg (Ne.symm hname)]
  | commit name =>
    have hname : tx ≠ name := by simpa [Step.bounds, eq_comm] using hstep
    refine find?_step_of_same now ?_ (hnone (by simp) (by simp)) fun _ => rfl
    rw [Session.step, commit]
    split
    · rfl
    · split <;> simp [hname]
  | rollback name =>
    have hname : tx ≠ name := by simpa [Step.bounds, eq_comm] using hstep
    refine find?_step_of_same now ?_ (hnone (by simp) (by simp)) fun _ => rfl
    rw [Session.step]
    split
    · rfl
    · rw [find?_close, if_neg hname]
  | drop name =>
    have hname : tx ≠ name := by simpa [Step.bounds, eq_comm] using hstep
    refine find?_step_of_same now ?_ (hnone (by simp) (by simp)) fun _ => rfl
    rw [Session.step, find?_close, if_neg hname]
  | rows t => exact find?_step_of_same now rfl (hnone (by simp) (by simp)) fun _ => rfl
  | rowCount t => exact find?_step_of_same now rfl (hnone (by simp) (by simp)) fun _ => rfl
  -- an operation attempts what it issues, in its own transaction and with its own access
  | operate name operation =>
    rw [Session.step, find?_inside]
    refine Option.map_congr fun opened h => ?_
    rw [issued?, h, Option.bind_some, operation.run_state]
    show _ = OpenTransaction.mk opened.access (opened.transaction.attempt now
      (if name = tx ∧ opened.access = .records then _ else none))
    split <;> rfl
  | operateRaw name operation =>
    rw [Session.step, find?_inside]
    refine Option.map_congr fun opened h => ?_
    rw [issued?, h, Option.bind_some, operation.run_state]
    show _ = OpenTransaction.mk opened.access (opened.transaction.attempt now
      (if name = tx ∧ opened.access = .rows then _ else none))
    split <;> rfl

/-- A step that bounds a transaction leaves it closed, or has just opened it on the committed
state. -/
theorem find?_step_of_bounds (h : (s.step now step).1.find? tx = some opened)
    (hstep : step.bounds tx = true) :
    ∃ access, step = .begin access tx ∧ opened = ⟨access, .begin s.committed⟩ := by
  cases step with
  | begin access name =>
    have hname : name = tx := by simpa [Step.bounds] using hstep
    subst hname
    simp only [Session.step, find?_put, if_true, Option.some.injEq] at h
    exact ⟨access, rfl, h.symm⟩
  | commit name =>
    have hname : name = tx := by simpa [Step.bounds] using hstep
    subst hname
    simp only [Session.step, commit] at h
    split at h
    · simp_all
    · split at h <;> simp at h
  | rollback name =>
    have hname : name = tx := by simpa [Step.bounds] using hstep
    subst hname
    simp only [Session.step] at h
    split at h <;> simp_all
  | drop name =>
    have hname : name = tx := by simpa [Step.bounds] using hstep
    subst hname
    simp [Session.step] at h
  | wrap name => cases hstep
  | rows t => cases hstep
  | rowCount t => cases hstep
  | operate name operation => cases hstep
  | operateRaw name operation => cases hstep

/-- Where an open transaction comes from: it has just begun on the committed state, or it was open
before and attempted what the step issues in it. -/
theorem find?_step_cases (h : (s.step now step).1.find? tx = some opened) :
    (∃ access, step = .begin access tx ∧ opened = ⟨access, .begin s.committed⟩) ∨
      ∃ earlier, s.find? tx = some earlier ∧ step.bounds tx = false ∧
        opened.transaction = earlier.transaction.attempt now (s.issued? tx step) := by
  cases hstep : step.bounds tx with
  | true => exact .inl (find?_step_of_bounds h hstep)
  | false =>
    right
    rw [find?_step_of_not_bounds now hstep, Option.map_eq_some_iff] at h
    obtain ⟨earlier, hearlier, rfl⟩ := h
    exact ⟨earlier, hearlier, rfl, rfl⟩

/-- The answer to a commit and what it makes of the committed state. -/
theorem commit_cases (now : Timestamp) (h : s.find? tx = some opened) :
    (∃ db, Transaction.replay s.committed opened.transaction.journal = .ok db ∧
      (s.step now (.commit tx)).1.committed = db ∧ (s.step now (.commit tx)).2 = .ok .done) ∨
    ∃ b, Transaction.replay s.committed opened.transaction.journal = .error b ∧
      (s.step now (.commit tx)).1.committed = s.committed ∧
      (s.step now (.commit tx)).2 = .error (.failure (.ofEngineError b.report)) := by
  cases hreplay : Transaction.replay s.committed opened.transaction.journal with
  | ok db =>
    refine .inl ⟨db, rfl, ?_⟩
    simp [Session.step, commit, h, Transaction.commit, hreplay]
  | error b =>
    refine .inr ⟨b, rfl, ?_⟩
    simp [Session.step, commit, h, Transaction.commit, hreplay]

/-- Only the commit of an open transaction moves the committed state, and it runs the journal
there. -/
theorem committed_step_cases (s : Session) (now : Timestamp) (step : Step) :
    (s.step now step).1.committed = s.committed ∨
      ∃ tx opened, step = .commit tx ∧ s.find? tx = some opened ∧
        (s.step now step).2 = .ok .done ∧
        Transaction.replay s.committed opened.transaction.journal =
          .ok (s.step now step).1.committed := by
  cases step with
  | commit tx =>
    cases hfind : s.find? tx with
    | none => exact .inl (by simp [Session.step, commit, hfind])
    | some opened =>
      rcases commit_cases now hfind with ⟨db, hreplay, hdb, hanswer⟩ | ⟨b, -, hdb, -⟩
      · exact .inr ⟨tx, opened, rfl, hfind, hanswer, hdb ▸ hreplay⟩
      · exact .inl hdb
  -- every other step leaves the committed state as it was
  | begin access name => exact .inl rfl
  | wrap name => exact .inl (by simp only [Session.step]; split <;> rfl)
  | rollback name => exact .inl (by simp only [Session.step]; split <;> rfl)
  | drop name => exact .inl rfl
  | rows t => exact .inl rfl
  | rowCount t => exact .inl rfl
  | operate name operation => exact .inl (committed_inside _ _ _ _)
  | operateRaw name operation => exact .inl (committed_inside _ _ _ _)

/-- The committed state stays but for a commit that succeeds. -/
theorem committed_step_of_no_commit
    (h : ∀ name answer, step = .commit name → (s.step now step).2 ≠ .ok answer) :
    (s.step now step).1.committed = s.committed := by
  rcases committed_step_cases s now step with hsame | ⟨name, opened, hcommit, -, hanswer, -⟩
  · exact hsame
  · exact absurd hanswer (h name _ hcommit)

/-- The committed state stays as long as nobody commits. -/
theorem committed_run_of_no_commit {steps : List (Timestamp × Step)}
    (h : ∀ p ∈ steps, ∀ name, p.2 ≠ .commit name) : (s.run steps).committed = s.committed := by
  induction steps generalizing s with
  | nil => rfl
  | cons p rest ih =>
    have hp : (s.step p.1 p.2).1.committed = s.committed :=
      committed_step_of_no_commit fun name _ hname => absurd hname (h p List.mem_cons_self name)
    rw [← hp]
    exact ih fun q hq => h q (List.mem_cons_of_mem _ hq)

end Session

-- ---------------------------------------------------------------------------
-- Whole runs
-- ---------------------------------------------------------------------------

/-- What a property of databases and one of statements have to do with each other: a statement of
the one kind leads from database to database of the other. -/
def Keeps (P : Database → Prop) (Q : Statement → Prop) : Prop :=
  ∀ db now statement next n, P db → Q statement →
    Database.execute db now statement = .ok (next, n) → P next

/-- A property holds of every database of a session, and another of every noted statement. -/
structure Session.Throughout (P : Database → Prop) (Q : Statement → Prop) (s : Session) : Prop where
  committed : P s.committed
  snapshot  : ∀ tx opened, s.find? tx = some opened → P opened.transaction.snapshot
  journal   : ∀ tx opened, s.find? tx = some opened →
    ∀ e ∈ opened.transaction.journal, Q e.statement

variable {P : Database → Prop} {Q : Statement → Prop}

/-- What holds of every row still does when a table is replaced by such rows. -/
theorem Database.forall_rows_set {R : Table → Row → Prop} {db : Database} {t : Table}
    {rows : List Row} (h : ∀ t, ∀ row ∈ db.rows t, R t row) (hrows : ∀ row ∈ rows, R t row) :
    ∀ t', ∀ row ∈ (db.set t rows).rows t', R t' row := by
  intro t' row hrow
  rw [rows_set] at hrow
  split at hrow
  · next ht => exact ht ▸ hrows row hrow
  · exact h t' row hrow

/-- What holds of every row is kept by statements that insert such rows and turn such rows into
such rows. -/
theorem keeps_rows {R : Table → Row → Prop}
    (hinsert : ∀ t row now, Q (.insert t row) → R t (Database.complete t row now))
    (hupdate : ∀ t filter payload now row revised, Q (.update t filter payload) → R t row →
      Database.revised? filter payload now row = some revised → R t revised) :
    Keeps (fun db => ∀ t, ∀ row ∈ db.rows t, R t row) Q := by
  intro db now statement next n h hstatement hexecute
  cases statement with
  | insert t columns =>
    obtain ⟨-, -, rfl, -⟩ := Database.insert_eq_ok_iff.1 hexecute
    refine Database.forall_rows_set h fun row hrow => ?_
    rcases List.mem_append.1 hrow with hrow | hrow
    · exact h t row hrow
    · rw [List.mem_singleton.1 hrow]
      exact hinsert t columns now hstatement
  | update t filter payload =>
    obtain ⟨-, -, rows, hrows, rfl⟩ := Database.update_eq_ok_iff.1 hexecute
    obtain ⟨rfl, -⟩ := Database.updateRows_eq_ok hrows
    refine Database.forall_rows_set h fun row hrow => ?_
    obtain ⟨old, hold, rfl⟩ := List.mem_map.1 hrow
    rw [Database.revise]
    cases hrev : Database.revised? filter payload now old with
    | none => exact h t old hold
    | some revised => exact hupdate t filter payload now old revised hstatement (h t old hold) hrev
  -- a delete adds no row, so there is nothing to assume of it
  | delete t filter =>
    obtain ⟨-, -, rfl, -⟩ := Database.delete_eq_ok_iff.1 hexecute
    exact Database.forall_rows_set h fun row hrow => h t row (List.mem_filter.1 hrow).1

/-- What every statement of a kind keeps, a replay of such statements keeps. -/
theorem Keeps.replay (hkeeps : Keeps P Q) {db next : Database} {journal : List JournalEntry}
    (h : P db) (hjournal : ∀ e ∈ journal, Q e.statement)
    (hreplay : Transaction.replay db journal = .ok next) : P next :=
  Transaction.replay_induction hreplay h fun e he _ _ _ hdb hexecute =>
    hkeeps _ _ _ _ _ hdb (hjournal e he) hexecute

namespace Session

/-- One step keeps what holds throughout: a commit replays statements of the kind, a begin copies
the committed database, and an operation runs at most the one statement that it issues. -/
theorem Throughout.step {s : Session} {now : Timestamp} {step : Step} (hkeeps : Keeps P Q)
    (hissued : ∀ tx statement, s.issued? tx step = some statement → Q statement)
    (h : s.Throughout P Q) : (s.step now step).1.Throughout P Q where
  committed := by
    rcases committed_step_cases s now step with hsame | ⟨tx, opened, -, hfind, -, hreplay⟩
    · rw [hsame]
      exact h.committed
    · exact hkeeps.replay h.committed (h.journal tx opened hfind) hreplay
  -- a copy is new, or the step has attempted at most one statement on it
  snapshot tx opened hfind := by
    rcases find?_step_cases hfind with ⟨access, -, rfl⟩ | ⟨earlier, hearlier, -, htx⟩
    · exact h.committed
    · rw [htx]
      rcases earlier.transaction.attempt_cases now (s.issued? tx step) with
        hsame | ⟨statement, db, n, hstatement, hexecute, hafter⟩
      · rw [hsame]
        exact h.snapshot tx earlier hearlier
      · rw [hafter]
        exact hkeeps _ _ _ _ _ (h.snapshot tx earlier hearlier) (hissued tx _ hstatement) hexecute
  journal tx opened hfind := by
    rcases find?_step_cases hfind with ⟨access, -, rfl⟩ | ⟨earlier, hearlier, -, htx⟩
    · simp [Transaction.begin]
    · rw [htx]
      rcases earlier.transaction.attempt_cases now (s.issued? tx step) with
        hsame | ⟨statement, db, n, hstatement, hexecute, hafter⟩
      · rw [hsame]
        exact h.journal tx earlier hearlier
      · rw [hafter]
        intro e he
        rcases List.mem_append.1 he with he | he
        · exact h.journal tx earlier hearlier e he
        · rw [List.mem_singleton.1 he]
          exact hissued tx statement hstatement

/-- **What every issued statement keeps holds throughout a run**, of the committed state and of
every copy, though a commit runs its journal on a state that its transaction never saw. -/
theorem throughout_run {steps : List (Timestamp × Step)} (hkeeps : Keeps P Q)
    (hempty : P .empty)
    (hissued : ∀ s : Session, ∀ p ∈ steps, ∀ tx statement,
      s.issued? tx p.2 = some statement → Q statement) : (new.run steps).Throughout P Q := by
  induction steps using List.reverseRecOn with
  | nil =>
    refine ⟨hempty, ?_, ?_⟩ <;> intro tx opened hfind <;> cases hfind
  | append_singleton steps p ih =>
    rw [run_concat]
    refine Throughout.step hkeeps (hissued _ p (by simp)) (ih ?_)
    exact fun s q hq => hissued s q (by simp [hq])

/-- A transaction stays open until a step bounds it, and its copy is what its journal makes of the
committed state that it began on. -/
theorem exists_find?_run (s : Session) (began : Timestamp) (access : Access) (tx : String)
    {during : List (Timestamp × Step)} (hbounds : ∀ p ∈ during, p.2.bounds tx = false) :
    ∃ opened, (s.run ((began, .begin access tx) :: during)).find? tx = some opened ∧
      Transaction.replay s.committed opened.transaction.journal =
        .ok opened.transaction.snapshot := by
  induction during using List.reverseRecOn with
  | nil => exact ⟨⟨access, .begin s.committed⟩, by simp [run, step], rfl⟩
  | append_singleton during p ih =>
    obtain ⟨opened, hfind, hreplay⟩ := ih fun q hq => hbounds q (by simp [hq])
    rw [← List.cons_append, run_concat, find?_step_of_not_bounds p.1 (hbounds p (by simp)), hfind]
    exact ⟨_, rfl, Transaction.replay_attempt hreplay p.1 _⟩

end Session

end Rollbook
