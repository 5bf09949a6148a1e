import Mathlib.Data.List.Nodup
import Mathlib.Data.List.Pairwise
import Rollbook.Proofs.Integrity
import Rollbook.Proofs.Stored
import Rollbook.Proofs.Vacancy

/-!
# Rollbook — the composite rule across transactions

No two students share grade, class and number, and no two teachers a grade and a class that both
have. The registrar checks this on the copy of one transaction, and a commit does not check it
again: two transactions that take the same seat both succeed (`not_compositeRule_run`). The rule
survives every run in which no commit meets a seat that others have changed since the transaction
began, as far as it matters to that transaction (`compositeRule_run`):

* `Unmoved` — what the others seated anew is not what the transaction seats itself;
* `Untaken` — the others took none of the seats that the transaction took.

Of commits that satisfy the first, those that violate the second are exactly the ones that break the
rule. Nor is the first spare: two revisions of one record may each leave it alone on a seat and
together move it onto a third one that is taken (`not_compositeRule_of_untaken`).
-/

namespace Rollbook

-- ---------------------------------------------------------------------------
-- The rule
-- ---------------------------------------------------------------------------

/-- The rule over several columns that the registrar guards: no two students hold the same values in
all of grade, class and number, and no two teachers in both grade and class, if neither is empty. -/
structure Database.CompositeRule (db : Database) : Prop where
  students : (db.rows .studentInforms).Pairwise fun r r' =>
    ∃ name ∈ Table.studentInforms.compositeColumns, r.get name ≠ r'.get name
  teachers : (db.rows .teacherInforms).Pairwise fun r r' =>
    ∃ name ∈ Table.teacherInforms.compositeColumns, r.get name ≠ r'.get name ∨ r.get name = .null

namespace Database

variable {db : Database} {t : Table}

/-- Where identities are distinct, the row of a uuid is the one that is found. -/
theorem seat?_of_mem (h : Consistent db) {row : Row} (hrow : row ∈ db.rows t) :
    db.seat? t (row.get t.identityKey) = some (t.seat row) := by
  rw [seat?]
  cases hfind : (db.rows t).find? fun r => r.get t.identityKey = row.get t.identityKey with
  | none =>
    have hother := List.find?_eq_none.1 hfind row hrow
    simp at hother
  | some found =>
    have hid : found.get t.identityKey = row.get t.identityKey := by
      simpa using List.find?_some hfind
    have hsame : found = row :=
      List.inj_on_of_nodup_map (h.identity_nodup t) (List.mem_of_find?_eq_some hfind) hrow hid
    rw [hsame, Option.map_some]

/-- Seats kept apart by uuid are seats that no two rows share. -/
theorem pairwise_iff_apart (h : Consistent db) :
    (db.rows t).Pairwise (fun r r' => ¬(t.seat r = t.seat r' ∧ t.Full (t.seat r))) ↔
      ∀ id id' seat, db.seat? t id = some seat → db.seat? t id' = some seat → t.Full seat →
        id = id' := by
  constructor
  · intro hpairwise id id' seat hid hid' hfull
    obtain ⟨row, hrow, rfl, rfl⟩ := exists_of_seat? hid
    obtain ⟨row', hrow', rfl, hsame⟩ := exists_of_seat? hid'
    by_contra hne
    have hrows : row ≠ row' := fun heq => hne (heq ▸ rfl)
    have hsymm : Std.Symm fun r r' => ¬(t.seat r = t.seat r' ∧ t.Full (t.seat r)) := by
      refine ⟨?_⟩
      rintro r r' hapart ⟨hseat, hfull⟩
      exact hapart ⟨hseat.symm, hseat ▸ hfull⟩
    exact hpairwise.forall hrow hrow' hrows ⟨hsame.symm, hfull⟩
  · intro hapart
    refine (h.identity_nodup t).of_map.pairwise_of_forall_ne fun r hr r' hr' hne => ?_
    rintro ⟨hseat, hfull⟩
    have hid := hapart _ _ _ (seat?_of_mem h hr) (hseat ▸ seat?_of_mem h hr') hfull
    exact hne (List.inj_on_of_nodup_map (h.identity_nodup t) hr hr' hid)

/-- A student's seat is always full, because none of its columns may be empty. -/
theorem full_student (h : Consistent db) {row : Row} (hrow : row ∈ db.rows .studentInforms) :
    Table.studentInforms.Full (Table.studentInforms.seat row) := by
  intro name hname
  obtain ⟨c, hc, rfl, hnull⟩ : ∃ c ∈ Table.studentInforms.columns, c.name = name ∧
      c.nullable = false := by
    revert name
    decide
  rw [Table.seat_of_mem hname]
  exact (h.fits .studentInforms row hrow).notNull c hc hnull

/-- The seat of a student is always full, so that students differ when their seats do. -/
theorem pairwise_students_iff (h : Consistent db) :
    (db.rows .studentInforms).Pairwise (fun r r' =>
      ∃ name ∈ Table.studentInforms.compositeColumns, r.get name ≠ r'.get name) ↔
        (db.rows .studentInforms).Pairwise fun r r' =>
          ¬(Table.studentInforms.seat r = Table.studentInforms.seat r' ∧
            Table.studentInforms.Full (Table.studentInforms.seat r)) := by
  refine List.Pairwise.iff_of_mem fun {r r'} hr _ => ?_
  rw [Table.seat_eq_iff, and_iff_left (full_student h hr)]
  push Not
  rfl

/-- The rule for teachers, told by seats: those who share one have a null in it. -/
theorem pairwise_teachers_iff (db : Database) :
    (db.rows .teacherInforms).Pairwise (fun r r' =>
      ∃ name ∈ Table.teacherInforms.compositeColumns,
        r.get name ≠ r'.get name ∨ r.get name = .null) ↔
        (db.rows .teacherInforms).Pairwise fun r r' =>
          ¬(Table.teacherInforms.seat r = Table.teacherInforms.seat r' ∧
            Table.teacherInforms.Full (Table.teacherInforms.seat r)) := by
  refine List.Pairwise.iff_of_mem fun {r r'} _ _ => ?_
  rw [Table.seat_eq_iff]
  constructor
  · rintro ⟨name, hname, hne | hnull⟩ ⟨hsame, hfull⟩
    · exact hne (hsame name hname)
    · exact hfull name hname ((Table.seat_of_mem hname).trans hnull)
  · intro hapart
    by_contra hnone
    push Not at hnone
    refine hapart ⟨fun name hname => (hnone name hname).1, fun name hname => ?_⟩
    rw [Table.seat_of_mem hname]
    exact (hnone name hname).2

/-- In a consistent database the rule says that full seats are apart. -/
theorem compositeRule_iff (h : Consistent db) : db.CompositeRule ↔ db.SeatsApart := by
  constructor
  · intro hrule t hcomposite
    rcases Table.composite_cases hcomposite with rfl | rfl
    · exact (pairwise_iff_apart h).1 ((pairwise_students_iff h).1 hrule.students)
    · exact (pairwise_iff_apart h).1 ((pairwise_teachers_iff db).1 hrule.teachers)
  · intro hapart
    have hstudents := (pairwise_iff_apart h).2 (hapart .studentInforms (by decide))
    have hteachers := (pairwise_iff_apart h).2 (hapart .teacherInforms (by decide))
    exact ⟨(pairwise_students_iff h).2 hstudents, (pairwise_teachers_iff db).2 hteachers⟩

end Database

-- ---------------------------------------------------------------------------
-- One commit
-- ---------------------------------------------------------------------------

namespace Transaction

/-- The transaction seats the record of a uuid: it creates the record or sets a composite column of
it. -/
def Seats (transaction : Transaction) (t : Table) (id : Value) : Prop :=
  ∃ e ∈ transaction.journal, e.statement.Writes t id

/-- Where a commit finds another seat for a record than the transaction began with, the transaction
does not seat this record itself. -/
def Unmoved (transaction : Transaction) (base committed : Database) : Prop :=
  ∀ t id, t.compositeColumns ≠ [] → committed.seat? t id ≠ base.seat? t id →
    ¬transaction.Seats t id

/-- Where a commit finds another seat for a record than the transaction began with, this seat is
none that the transaction has given to a record. -/
def Untaken (transaction : Transaction) (base committed : Database) : Prop :=
  ∀ t id seat, t.compositeColumns ≠ [] → committed.seat? t id ≠ base.seat? t id →
    committed.seat? t id = some seat → t.Full seat →
      ∀ id', transaction.Seats t id' → transaction.snapshot.seat? t id' ≠ some seat

variable {transaction : Transaction} {base committed next : Database} {t : Table} {id : Value}

/-- The table of a statement, and the identity of the row that it is about, if it names one. -/
def target : Statement → Table × Option Value
  | .insert t row => (t, some (row.get t.identityKey))
  | .update t filter _ => (t, filter.get? t.identityKey)
  | .delete t filter => (t, filter.get? t.identityKey)

/-- What a transaction seats is a target of its journal. -/
theorem Seats.target (h : transaction.Seats t id) :
    (t, some id) ∈ transaction.journal.map fun e => target e.statement := by
  obtain ⟨e, he, hwrites⟩ := h
  refine List.mem_map.2 ⟨e, he, ?_⟩
  cases hstatement : e.statement with
  | insert t' row =>
    rw [hstatement] at hwrites
    obtain ⟨rfl, rfl⟩ := hwrites
    rfl
  | update t' filter payload =>
    rw [hstatement] at hwrites
    obtain ⟨rfl, hid, -⟩ := hwrites
    exact congrArg (Prod.mk t') hid
  | delete t' filter =>
    rw [hstatement] at hwrites
    exact hwrites.elim

/-- Where nothing has been committed since, nothing has been moved or taken. -/
theorem unmoved_and_untaken_self (transaction : Transaction) (db : Database) :
    transaction.Unmoved db db ∧ transaction.Untaken db db :=
  ⟨fun _ _ _ hmoved => absurd rfl hmoved, fun _ _ _ _ hmoved => absurd rfl hmoved⟩

/-- After the commit, a record has the seat that the transaction gave it, unless the others have
moved it since; then it has the seat that they gave it. -/
theorem seat?_commit (id : Value) (hjournal : ∀ e ∈ transaction.journal, e.statement.ByRecord)
    (hbase : replay base transaction.journal = .ok transaction.snapshot)
    (hcommit : replay committed transaction.journal = .ok next)
    (hunmoved : transaction.Unmoved base committed) (hcomposite : t.compositeColumns ≠ []) :
    (committed.seat? t id = base.seat? t id ∧
        next.seat? t id = transaction.snapshot.seat? t id) ∨
      (committed.seat? t id ≠ base.seat? t id ∧ next.seat? t id = committed.seat? t id) := by
  by_cases hsame : committed.seat? t id = base.seat? t id
  · exact .inl ⟨hsame, seat?_replay_congr hjournal hcomposite hsame hcommit hbase⟩
  · refine .inr ⟨hsame, seat?_replay_of_not_writes hjournal hcomposite ?_ hcommit⟩
    exact fun e he hwrites => hunmoved t id hcomposite hsame ⟨e, he, hwrites⟩

/-- What the transaction does not seat has the committed seat after the commit. -/
theorem seat?_commit_of_not_seats (hjournal : ∀ e ∈ transaction.journal, e.statement.ByRecord)
    (hcommit : replay committed transaction.journal = .ok next)
    (hcomposite : t.compositeColumns ≠ []) (hseats : ¬transaction.Seats t id) :
    next.seat? t id = committed.seat? t id :=
  seat?_replay_of_not_writes hjournal hcomposite (fun e he hwrites => hseats ⟨e, he, hwrites⟩)
    hcommit

/-- **When a commit keeps the seats apart**: among the commits that meet no moved record of their
own, exactly those that meet no taken seat. -/
theorem seatsApart_commit_iff (hjournal : ∀ e ∈ transaction.journal, e.statement.ByRecord)
    (hbase : replay base transaction.journal = .ok transaction.snapshot)
    (hcommit : replay committed transaction.journal = .ok next)
    (hsnapshot : transaction.snapshot.SeatsApart) (hcommitted : committed.SeatsApart)
    (hunmoved : transaction.Unmoved base committed) :
    next.SeatsApart ↔ transaction.Untaken base committed := by
  constructor
  · -- a taken seat would be held twice after the commit
    intro hnext t id seat hcomposite hmoved hseat hfull id' hseats htaken
    have hid : next.seat? t id = some seat := by
      rw [seat?_commit_of_not_seats hjournal hcommit hcomposite (hunmoved t id hcomposite hmoved)]
      exact hseat
    have hid' : next.seat? t id' = some seat := by
      rcases seat?_commit id' hjournal hbase hcommit hunmoved hcomposite with
        ⟨-, hown⟩ | ⟨hmoved', -⟩
      · rw [hown, htaken]
      · exact absurd hseats (hunmoved t id' hcomposite hmoved')
    have hsame : id = id' := hnext t hcomposite id id' seat hid hid' hfull
    exact hunmoved t id hcomposite hmoved (hsame ▸ hseats)
  · intro huntaken t hcomposite
    -- a moved record and one that is not cannot hold the same seat
    have hmixed : ∀ id id' seat, committed.seat? t id ≠ base.seat? t id →
        committed.seat? t id = some seat → next.seat? t id' = some seat →
        transaction.snapshot.seat? t id' = some seat → t.Full seat → id = id' := by
      intro id id' seat hmoved hid hid' hown hfull
      by_cases hseats : transaction.Seats t id'
      · exact absurd hown (huntaken t id seat hcomposite hmoved hid hfull id' hseats)
      · rw [seat?_commit_of_not_seats hjournal hcommit hcomposite hseats] at hid'
        exact hcommitted t hcomposite id id' seat hid hid' hfull
    intro id id' seat hid hid' hfull
    -- either record has its seat from the transaction or from the others
    rcases seat?_commit id hjournal hbase hcommit hunmoved hcomposite with
      ⟨-, hown⟩ | ⟨hmoved, hother⟩ <;>
    rcases seat?_commit id' hjournal hbase hcommit hunmoved hcomposite with
      ⟨-, hown'⟩ | ⟨hmoved', hother'⟩
    · exact hsnapshot t hcomposite id id' seat (hown ▸ hid) (hown' ▸ hid') hfull
    · exact (hmixed id' id seat hmoved' (hother' ▸ hid') hid (hown ▸ hid) hfull).symm
    · exact hmixed id id' seat hmoved (hother ▸ hid) hid' (hown' ▸ hid') hfull
    · exact hcommitted t hcomposite id id' seat (hother ▸ hid) (hother' ▸ hid') hfull

end Transaction

-- ---------------------------------------------------------------------------
-- Runs of operations on records
-- ---------------------------------------------------------------------------

namespace Session

/-- No step of the list is an operation on bare rows. -/
def RecordsOnly (steps : List (Timestamp × Step)) : Prop :=
  ∀ p ∈ steps, ∀ name operation, p.2 ≠ .operateRaw name operation

/-- The committed states that the transactions were last begun on, by name, after more steps. -/
def bases (s : Session) (known : String → Database) :
    List (Timestamp × Step) → String → Database
  | [] => known
  | p :: rest =>
    (s.step p.1 p.2).1.bases
      (match p.2 with
      | .begin _ name => fun tx => if tx = name then s.committed else known tx
      | _ => known)
      rest

/-- The committed state that the transaction of a name was last begun on, in a run of a new
session. -/
def base (steps : List (Timestamp × Step)) : String → Database :=
  new.bases (fun _ => .empty) steps

variable {s : Session} {now : Timestamp} {tx : String} {step : Step} {opened : OpenTransaction}
  {steps : List (Timestamp × Step)} {statement : Statement}

/-- The bases after two runs are those after the second, from those after the first. -/
theorem bases_append (s : Session) (known : String → Database) (xs ys : List (Timestamp × Step)) :
    s.bases known (xs ++ ys) = (s.run xs).bases (s.bases known xs) ys := by
  induction xs generalizing s known with
  | nil => rfl
  | cons p rest ih => exact ih _ _

/-- A transaction that has just begun is based on what is committed. -/
theorem base_concat_begin (access : Access) :
    base (steps ++ [(now, .begin access tx)]) tx = (new.run steps).committed := by
  rw [base, bases_append, bases, bases]
  exact if_pos rfl

theorem base_concat_of_not_bounds (hstep : step.bounds tx = false) :
    base (steps ++ [(now, step)]) tx = base steps tx := by
  rw [base, bases_append, bases, bases, base]
  cases step with
  | begin access name =>
    have hname : tx ≠ name := by simpa [Step.bounds, eq_comm] using hstep
    exact if_neg hname
  | _ => rfl

/-- Any number of steps that neither begin nor end a transaction leave its base. -/
theorem base_append_of_not_bounds {later : List (Timestamp × Step)}
    (h : ∀ p ∈ later, p.2.bounds tx = false) : base (steps ++ later) tx = base steps tx := by
  induction later using List.reverseRecOn with
  | nil => rw [List.append_nil]
  | append_singleton later p ih =>
    rw [← List.append_assoc, base_concat_of_not_bounds (h p (by simp))]
    exact ih fun q hq => h q (List.mem_append_left _ hq)

/-- While nobody commits, a transaction still finds the committed state that it was begun on. -/
theorem base_of_no_commit {access : Access} {earlier later : List (Timestamp × Step)}
    (hsteps : steps = earlier ++ [(now, .begin access tx)] ++ later)
    (hbounds : ∀ p ∈ later, p.2.bounds tx = false)
    (hcommits : ∀ p ∈ later, ∀ name, p.2 ≠ .commit name) :
    base steps tx = (new.run steps).committed := by
  rw [hsteps, base_append_of_not_bounds hbounds, base_concat_begin, run_append,
    committed_run_of_no_commit hcommits, run_concat]
  rfl

/-- A transaction is begun on the committed state of some earlier moment of the run. -/
theorem exists_base (steps : List (Timestamp × Step)) (tx : String) :
    ∃ earlier later, steps = earlier ++ later ∧ base steps tx = (new.run earlier).committed := by
  induction steps using List.reverseRecOn with
  | nil => exact ⟨[], [], rfl, rfl⟩
  | append_singleton steps p ih =>
    obtain ⟨earlier, later, hsplit, hbase⟩ := ih
    obtain ⟨now, step⟩ := p
    by_cases hbegin : ∃ access, step = .begin access tx
    · obtain ⟨access, rfl⟩ := hbegin
      exact ⟨steps, [(now, .begin access tx)], rfl, base_concat_begin access⟩
    · refine ⟨earlier, later ++ [(now, step)], by rw [hsplit, List.append_assoc], ?_⟩
      rw [← hbase, base, bases_append, bases, bases, base]
      cases step with
      | begin access name =>
        have hname : tx ≠ name := by
          rintro rfl
          exact hbegin ⟨access, rfl⟩
        exact if_neg hname
      | _ => rfl

theorem recordsOnly_append {xs ys : List (Timestamp × Step)} :
    RecordsOnly (xs ++ ys) ↔ RecordsOnly xs ∧ RecordsOnly ys := by
  simp only [RecordsOnly, List.mem_append, or_imp, forall_and]

theorem RecordsOnly.recordWrites (h : RecordsOnly steps) : RecordWrites steps :=
  fun p hp name operation hstep => absurd hstep (h p hp name operation)

/-- Everything that such a run notes is by the registrar, and all its states are typed. -/
theorem throughout_records (hrecords : RecordsOnly steps) :
    (new.run steps).Throughout Database.Typed Statement.ByRecord := by
  refine throughout_run Database.keeps_typed Database.typed_empty ?_
  intro s p hp tx statement hissued
  obtain ⟨opened, hfind, -⟩ := Option.bind_eq_some_iff.1 hissued
  obtain ⟨operation, hoperation⟩ :=
    exists_operation_of_issued? hfind (hrecords.recordWrites.of_mem hp) hissued
  exact Operation.byRecord_of_issued? hoperation

/-- The copy of an open transaction is what its journal makes of the state that it was begun on. -/
theorem replay_base (h : (new.run steps).find? tx = some opened) :
    Transaction.replay (base steps tx) opened.transaction.journal =
      .ok opened.transaction.snapshot := by
  induction steps using List.reverseRecOn generalizing opened with
  | nil => cases h
  | append_singleton steps p ih =>
    obtain ⟨now, step⟩ := p
    rw [run_concat] at h
    rcases find?_step_cases h with ⟨access, rfl, rfl⟩ | ⟨earlier, hearlier, hbounds, htx⟩
    · rw [base_concat_begin]
      rfl
    · rw [base_concat_of_not_bounds hbounds, htx]
      exact Transaction.replay_attempt (ih hearlier) now _

/-- Whatever a step attempts in a transaction, its copy keeps the seats apart. -/
theorem seatsApart_attempt (hfind : s.find? tx = some opened)
    (hwrites : RecordWrites [(now, step)]) (htyped : opened.transaction.snapshot.Typed)
    (hapart : opened.transaction.snapshot.SeatsApart) :
    (opened.transaction.attempt now (s.issued? tx step)).snapshot.SeatsApart := by
  rcases opened.transaction.attempt_cases now (s.issued? tx step) with
    hsame | ⟨statement, db, n, hissued, hexecute, hafter⟩
  · rw [hsame]
    exact hapart
  · rw [hafter]
    obtain ⟨operation, hoperation⟩ := exists_operation_of_issued? hfind hwrites hissued
    exact hapart.execute htyped hoperation hexecute

/-- A transaction that was begun where the seats were apart keeps them apart on its copy. -/
theorem seatsApart_snapshot (hrecords : RecordsOnly steps)
    (h : (new.run steps).find? tx = some opened) (hbase : (base steps tx).SeatsApart) :
    opened.transaction.snapshot.SeatsApart := by
  induction steps using List.reverseRecOn generalizing opened with
  | nil => cases h
  | append_singleton steps p ih =>
    obtain ⟨now, step⟩ := p
    obtain ⟨hbefore, hstep⟩ := recordsOnly_append.1 hrecords
    rw [run_concat] at h
    rcases find?_step_cases h with ⟨access, rfl, rfl⟩ | ⟨earlier, hearlier, hbounds, htx⟩
    · rw [base_concat_begin] at hbase
      exact hbase
    · rw [base_concat_of_not_bounds hbounds] at hbase
      rw [htx]
      exact seatsApart_attempt hearlier hstep.recordWrites
        ((throughout_records hbefore).snapshot tx earlier hearlier) (ih hbefore hearlier hbase)

/-- The commit of one transaction in a run, step for step. -/
theorem seatsApart_step_iff (hrecords : RecordsOnly steps)
    (hfind : (new.run steps).find? tx = some opened)
    (hdone : ((new.run steps).step now (.commit tx)).2 = .ok .done)
    (hbase : (base steps tx).SeatsApart) (hcommitted : (new.run steps).committed.SeatsApart)
    (hunmoved : opened.transaction.Unmoved (base steps tx) (new.run steps).committed) :
    ((new.run steps).step now (.commit tx)).1.committed.SeatsApart ↔
      opened.transaction.Untaken (base steps tx) (new.run steps).committed := by
  rcases commit_cases now hfind with ⟨db, hreplay, hdb, -⟩ | ⟨b, -, -, herror⟩
  · rw [hdb]
    exact Transaction.seatsApart_commit_iff ((throughout_records hrecords).journal tx opened hfind)
      (replay_base hfind) hreplay (seatsApart_snapshot hrecords hfind hbase) hcommitted hunmoved
  · rw [herror] at hdone
    cases hdone

/-- Every successful commit of the run meets the condition, which is about its transaction, the
state that this was begun on and the state that the commit finds. -/
def AtCommits (condition : Transaction → Database → Database → Prop)
    (steps : List (Timestamp × Step)) : Prop :=
  ∀ earlier now tx later opened, steps = earlier ++ (now, .commit tx) :: later →
    (new.run earlier).find? tx = some opened →
    ((new.run earlier).step now (.commit tx)).2 = .ok .done →
      condition opened.transaction (base earlier tx) (new.run earlier).committed

variable {condition : Transaction → Database → Database → Prop}

/-- One more step adds what it commits itself. -/
theorem atCommits_concat_iff {p : Timestamp × Step} :
    AtCommits condition (steps ++ [p]) ↔ AtCommits condition steps ∧
      ∀ tx opened, p.2 = .commit tx → (new.run steps).find? tx = some opened →
        ((new.run steps).step p.1 (.commit tx)).2 = .ok .done →
          condition opened.transaction (base steps tx) (new.run steps).committed := by
  constructor
  · intro h
    refine ⟨?_, ?_⟩
    · rintro earlier now tx later opened rfl
      exact h earlier now tx (later ++ [p]) opened (by simp)
    · rintro tx opened hcommit hfind hdone
      refine h steps p.1 tx [] opened ?_ hfind hdone
      rw [← hcommit]
  · rintro ⟨hearlier, hlast⟩ earlier now tx later opened hsplit
    -- the commit in question is the last step, or stands before it
    rcases List.eq_nil_or_concat later with rfl | ⟨init, q, rfl⟩
    · obtain ⟨rfl, hp⟩ := List.append_inj' hsplit rfl
      cases hp
      exact hlast tx opened rfl
    · refine hearlier earlier now tx init opened ?_
      rw [List.concat_eq_append, ← List.cons_append, ← List.append_assoc] at hsplit
      exact (List.append_inj' hsplit rfl).1

/-- Steps without a commit add nothing. -/
theorem atCommits_append_of_no_commit {later : List (Timestamp × Step)}
    (hlater : ∀ p ∈ later, ∀ tx, p.2 ≠ .commit tx) :
    AtCommits condition (steps ++ later) ↔ AtCommits condition steps := by
  induction later using List.reverseRecOn with
  | nil => rw [List.append_nil]
  | append_singleton later p ih =>
    have hp : ∀ tx, p.2 ≠ .commit tx := hlater p (List.mem_append_right _ List.mem_cons_self)
    rw [← List.append_assoc, atCommits_concat_iff,
      ih fun q hq => hlater q (List.mem_append_left _ hq)]
    exact and_iff_left fun tx opened hcommit => absurd hcommit (hp tx)

theorem atCommits_of_no_commit (h : ∀ p ∈ steps, ∀ tx, p.2 ≠ .commit tx) :
    AtCommits condition steps := by
  rintro earlier now tx later opened rfl
  exact absurd rfl (h (now, .commit tx) (by simp) tx)

/-- Every successful commit of the run meets neither a record that it seats, moved by others, nor a
seat that it takes, taken by others. -/
def Undisturbed (steps : List (Timestamp × Step)) : Prop :=
  ∀ earlier now tx later opened, steps = earlier ++ (now, .commit tx) :: later →
    (new.run earlier).find? tx = some opened →
    ((new.run earlier).step now (.commit tx)).2 = .ok .done →
      opened.transaction.Unmoved (base earlier tx) (new.run earlier).committed ∧
        opened.transaction.Untaken (base earlier tx) (new.run earlier).committed

/-- Being undisturbed is a matter of the commits alone. -/
theorem undisturbed_iff : Undisturbed steps ↔
    AtCommits (fun transaction base committed =>
      transaction.Unmoved base committed ∧ transaction.Untaken base committed) steps :=
  Iff.rfl

/-- The seats are apart throughout an undisturbed run, also where transactions begin. -/
theorem seatsApart_run (hrecords : RecordsOnly steps) (h : Undisturbed steps) :
    (new.run steps).committed.SeatsApart ∧ ∀ tx, (base steps tx).SeatsApart := by
  have hempty : Database.empty.SeatsApart := by
    intro t _ id id' seat hid
    cases hid
  induction steps using List.reverseRecOn with
  | nil => exact ⟨hempty, fun _ => hempty⟩
  | append_singleton steps p ih =>
    obtain ⟨now, step⟩ := p
    obtain ⟨hbefore, -⟩ := recordsOnly_append.1 hrecords
    obtain ⟨hearlier, hlast⟩ := atCommits_concat_iff.1 (undisturbed_iff.1 h)
    obtain ⟨hcommitted, hbases⟩ := ih hbefore hearlier
    constructor
    · rw [run_concat]
      rcases committed_step_cases (new.run steps) now step with
        hsame | ⟨tx, opened, rfl, hfind, hdone, -⟩
      · rw [hsame]
        exact hcommitted
      · obtain ⟨hunmoved, huntaken⟩ := hlast tx opened rfl hfind hdone
        exact (seatsApart_step_iff hbefore hfind hdone (hbases tx) hcommitted hunmoved).2 huntaken
    · intro tx
      cases hstep : step.bounds tx with
      | false =>
        rw [base_concat_of_not_bounds hstep]
        exact hbases tx
      | true =>
        -- only a begin moves the base, and it moves it to the committed state
        cases step with
        | begin access name =>
          have hname : name = tx := by simpa [Step.bounds] using hstep
          subst hname
          rw [base_concat_begin]
          exact hcommitted
        | _ =>
          rw [base, bases_append]
          exact hbases tx

/-- **The composite rule across transactions.** Operations on records keep the rule in every run in
which each successful commit finds the records that its transaction seats where they were when it
began, and finds its seats taken by nobody since. The second condition is exact: of two states that
keep the rule, a commit that meets the first condition keeps it just when it meets the second. -/
theorem compositeRule_run (steps : List (Timestamp × Step)) (hrecords : RecordsOnly steps) :
    (Undisturbed steps → (new.run steps).committed.CompositeRule) ∧
      ∀ now tx opened, (new.run steps).find? tx = some opened →
        ((new.run steps).step now (.commit tx)).2 = .ok .done →
        (base steps tx).CompositeRule → (new.run steps).committed.CompositeRule →
        opened.transaction.Unmoved (base steps tx) (new.run steps).committed →
          (((new.run steps).step now (.commit tx)).1.committed.CompositeRule ↔
            opened.transaction.Untaken (base steps tx) (new.run steps).committed) := by
  have hconsistent : ∀ steps, (new.run steps).committed.Consistent :=
    fun steps => (throughout_consistent steps).committed
  constructor
  · intro h
    exact (Database.compositeRule_iff (hconsistent steps)).2 (seatsApart_run hrecords h).1
  · intro now tx opened hfind hdone hbase hcommitted hunmoved
    obtain ⟨earlier, later, -, hearlier⟩ := exists_base steps tx
    have hbaseApart : (base steps tx).SeatsApart := by
      refine (Database.compositeRule_iff ?_).1 hbase
      rw [hearlier]
      exact hconsistent earlier
    have hafter : ((new.run steps).step now (.commit tx)).1.committed.Consistent := by
      have hrun := hconsistent (steps ++ [(now, .commit tx)])
      rw [run_concat] at hrun
      exact hrun
    rw [Database.compositeRule_iff hafter]
    exact seatsApart_step_iff hrecords hfind hdone hbaseApart
      ((Database.compositeRule_iff (hconsistent steps)).1 hcommitted) hunmoved

/-- The creation of a student's account. -/
def account (uuid login : String) : Operation :=
  .create .studentAuths ⟨uuid, (login, "hash", none, ()), none, none⟩

/-- The creation of a student's profile in the first class of the second grade. -/
def profile (uuid : String) (number : UInt8) (phone uri : String) : Operation :=
  .create .studentInforms
    ⟨uuid, ((2 : UInt8), (1 : UInt8), number, "name", phone, uri, ()), none, none⟩

/-- Two transactions that are open at the same time admit a student each, the first to the seat with
number 7 and the second to the seat with the given number. -/
def admissions (number : UInt8) : List (Timestamp × Step) :=
  [(.ofSeconds 1, .begin .records "a"),
    (.ofSeconds 2, .begin .records "b"),
    (.ofSeconds 3, .operate "a" (account "student-000000000001" "first")),
    (.ofSeconds 4, .operate "a" (profile "student-000000000001" 7 "01000000001" "first.png")),
    (.ofSeconds 5, .operate "b" (account "student-000000000002" "second")),
    (.ofSeconds 6, .operate "b" (profile "student-000000000002" number "01000000002" "second.png"))]

/-- The two admissions and the commit of the first. -/
def admitted (number : UInt8) : List (Timestamp × Step) :=
  admissions number ++ [(.ofSeconds 7, .commit "a")]

theorem recordsOnly_admitted (number : UInt8) : RecordsOnly (admitted number) := by
  simp [RecordsOnly, admitted, admissions]

/-- What is committed after the first admission, and what the second transaction has by then: its
statements are two inserts, and its student sits at number 8. -/
theorem run_admitted :
    ((new.run (admitted 8)).committed.rows .studentInforms).all
        (fun row => row.get "student_number" = .int 7) = true ∧
      ((new.run (admitted 8)).find? "b").map (fun opened =>
        (opened.transaction.journal.map fun e => Transaction.target e.statement,
          (opened.transaction.snapshot.seat? .studentInforms (.text "student-000000000002")).map
            fun seat => seat "student_number")) =
        some ([(.studentAuths, some (.text "student-000000000002")),
          (.studentInforms, some (.text "student-000000000002"))], some (.int 8)) := by
  decide +kernel

/-- To another seat, the second student is admitted undisturbed. -/
theorem undisturbed_admitted : Undisturbed (admitted 8 ++ [(.ofSeconds 8, .commit "b")]) := by
  refine undisturbed_iff.2 (atCommits_concat_iff.2 ⟨atCommits_concat_iff.2 ⟨?_, ?_⟩, ?_⟩)
  · exact atCommits_of_no_commit (by simp [admissions])
  · -- when the first commits, nothing has been committed yet
    rintro tx opened ⟨rfl⟩ hfind hdone
    have hsteps : admissions 8 =
        [] ++ [(.ofSeconds 1, .begin .records "a")] ++ (admissions 8).tail := rfl
    rw [base_of_no_commit hsteps (by simp [admissions, Step.bounds]) (by simp [admissions])]
    exact opened.transaction.unmoved_and_untaken_self _
  · rintro tx opened ⟨rfl⟩ hfind hdone
    obtain ⟨hseven, hown⟩ := run_admitted
    rw [hfind, Option.map_some, Option.some.injEq, Prod.mk.injEq] at hown
    obtain ⟨hjournal, height⟩ := hown
    -- of the two inserts, the one of the account gives no seat
    have htarget : ∀ {t id}, t.compositeColumns ≠ [] → opened.transaction.Seats t id →
        t = .studentInforms ∧ id = .text "student-000000000002" := by
      intro t id hcomposite hseats
      have hmem := hseats.target
      rw [hjournal, List.mem_cons, List.mem_singleton, Prod.mk.injEq, Prod.mk.injEq,
        Option.some.injEq] at hmem
      rcases hmem with ⟨rfl, -⟩ | hmem
      · exact absurd rfl hcomposite
      · exact hmem
    constructor
    · intro t id hcomposite hmoved hseats
      obtain ⟨rfl, rfl⟩ := htarget hcomposite hseats
      exact hmoved (by rfl)
    · intro t id seat hcomposite hmoved hseat hfull id' hseats htaken
      obtain ⟨rfl, rfl⟩ := htarget hcomposite hseats
      obtain ⟨row, hrow, -, rfl⟩ := Database.exists_of_seat? hseat
      -- the first student sits at number 7
      rw [htaken, Option.map_some, Option.some.injEq, Table.seat_of_mem (by decide)] at height
      have hnumber : row.get "student_number" = .int 7 := by
        simpa using List.all_eq_true.1 hseven row hrow
      rw [hnumber] at height
      cases height

/-- Both students are admitted, and the second commit finds its seat free. -/
theorem compositeRule_run_admitted :
    ((new.run (admitted 8 ++ [(.ofSeconds 8, .commit "b")])).committed.rows
        .studentInforms).length = 2 ∧
      (new.run (admitted 8 ++ [(.ofSeconds 8, .commit "b")])).committed.CompositeRule ∧
      ∃ opened, (new.run (admitted 8)).find? "b" = some opened ∧
        opened.transaction.Untaken (base (admitted 8) "b") (new.run (admitted 8)).committed := by
  have hrecords : RecordsOnly (admitted 8 ++ [(.ofSeconds 8, .commit "b")]) :=
    recordsOnly_append.2 ⟨recordsOnly_admitted 8, by simp [RecordsOnly]⟩
  obtain ⟨hearlier, hlast⟩ := atCommits_concat_iff.1 (undisturbed_iff.1 undisturbed_admitted)
  have hrule := (compositeRule_run _ hrecords).1 undisturbed_admitted
  obtain ⟨hruleEarlier, hexact⟩ := compositeRule_run _ (recordsOnly_admitted 8)
  have hopen : ((new.run (admitted 8)).find? "b").isSome = true := by decide +kernel
  obtain ⟨opened, hfind⟩ := Option.isSome_iff_exists.1 hopen
  have hdone : ((new.run (admitted 8)).step (.ofSeconds 8) (.commit "b")).2 = .ok .done := by rfl
  have hsteps : admitted 8 = [(.ofSeconds 1, .begin .records "a")] ++
      [(.ofSeconds 2, .begin .records "b")] ++ (admitted 8).tail.tail := rfl
  have hbase : (base (admitted 8) "b").CompositeRule := by
    -- the second transaction, too, begins on the empty state
    rw [hsteps, base_append_of_not_bounds (by simp [admitted, admissions, Step.bounds]),
      base_concat_begin]
    exact ⟨List.Pairwise.nil, List.Pairwise.nil⟩
  obtain ⟨hunmoved, -⟩ := hlast "b" opened rfl hfind hdone
  refine ⟨by decide +kernel, hrule, opened, hfind, ?_⟩
  refine (hexact (.ofSeconds 8) "b" opened hfind hdone hbase (hruleEarlier hearlier) hunmoved).1 ?_
  simpa only [run_concat] using hrule

/-- Both take the seat with number 7, and both succeed. -/
theorem not_compositeRule_run :
    ¬∀ steps, RecordsOnly steps → (new.run steps).committed.CompositeRule := by
  intro h
  have hrule := h (admitted 7 ++ [(.ofSeconds 8, .commit "b")])
    (recordsOnly_append.2 ⟨recordsOnly_admitted 7, by simp [RecordsOnly]⟩)
  have hseats : ((new.run (admitted 7 ++ [(.ofSeconds 8, .commit "b")])).committed.rows
      .studentInforms).map (fun row => Table.studentInforms.compositeColumns.map row.get) =
        [[.int 2, .int 1, .int 7], [.int 2, .int 1, .int 7]] := by decide +kernel
  have hapart : List.Pairwise (· ≠ ·) (((new.run (admitted 7 ++
      [(.ofSeconds 8, .commit "b")])).committed.rows .studentInforms).map
        fun row => Table.studentInforms.compositeColumns.map row.get) := by
    rw [List.pairwise_map]
    refine hrule.students.imp ?_
    rintro r r' ⟨name, hname, hne⟩ hsame
    exact hne (List.map_inj_left.1 hsame name hname)
  rw [hseats] at hapart
  simp at hapart

-- ---------------------------------------------------------------------------
-- Two halves of a move
-- ---------------------------------------------------------------------------

/-- A transaction with two teachers, of class 1-1 and of class 2-2. -/
def placed : List (Timestamp × Step) :=
  [(.ofSeconds 1, .begin .records "a"),
    (.ofSeconds 2, .operate "a" (.create .teacherAuths
      ⟨"teacher-000000000001", ("kim1", "hash", ()), none, none⟩)),
    (.ofSeconds 3, .operate "a" (.create .teacherInforms
      ⟨"teacher-000000000001", (some (1 : UInt8), some (1 : UInt8), "Kim", "01000000001", ()),
        none, none⟩)),
    (.ofSeconds 4, .operate "a" (.create .teacherAuths
      ⟨"teacher-000000000002", ("park", "hash", ()), none, none⟩)),
    (.ofSeconds 5, .operate "a" (.create .teacherInforms
      ⟨"teacher-000000000002", (some (2 : UInt8), some (2 : UInt8), "Park", "01000000002", ()),
        none, none⟩))]

/-- Two transactions that are open at the same time move the first teacher, the one to the second
grade and the other to the second class. -/
def halves : List (Timestamp × Step) :=
  [(.ofSeconds 7, .begin .records "b"),
    (.ofSeconds 8, .begin .records "c"),
    (.ofSeconds 9, .operate "b" (.modify .teacherInforms "teacher-000000000001"
      ⟨none, (some (2 : UInt8), none, none, none, ())⟩)),
    (.ofSeconds 10, .operate "c" (.modify .teacherInforms "teacher-000000000001"
      ⟨none, (none, some (2 : UInt8), none, none, ())⟩))]

/-- The teachers are committed, and then the first half of the move. -/
def halfMoved : List (Timestamp × Step) :=
  placed ++ [(.ofSeconds 6, .commit "a")] ++ halves ++ [(.ofSeconds 11, .commit "b")]

theorem recordsOnly_halfMoved : RecordsOnly (halfMoved ++ [(.ofSeconds 12, .commit "c")]) := by
  simp [RecordsOnly, halfMoved, placed, halves]

/-- What is committed after the first half, and what the transaction of the second has by then: it
revises the first teacher, who is in the first grade on its copy. -/
theorem run_halfMoved :
    ((new.run halfMoved).committed.rows .teacherInforms).all
        (fun row => row.get "grade" = .int 2) = true ∧
      ((new.run halfMoved).find? "c").map (fun opened =>
        (opened.transaction.journal.map fun e => Transaction.target e.statement,
          (opened.transaction.snapshot.seat? .teacherInforms (.text "teacher-000000000001")).map
            fun seat => seat "grade")) =
        some ([(.teacherInforms, some (.text "teacher-000000000001"))], some (.int 1)) := by
  decide +kernel

/-- The second half of the move takes no seat that others took: on its copy the teacher has class
1-2, and what has been committed since is class 2-1. -/
theorem untaken_halfMoved (hfind : (new.run halfMoved).find? "c" = some opened) :
    opened.transaction.Untaken (base halfMoved "c") (new.run halfMoved).committed := by
  intro t id seat hcomposite hmoved hseat hfull id' hseats htaken
  obtain ⟨hsecond, hown⟩ := run_halfMoved
  rw [hfind, Option.map_some, Option.some.injEq, Prod.mk.injEq] at hown
  obtain ⟨hjournal, hfirst⟩ := hown
  have htarget := hseats.target
  rw [hjournal, List.mem_singleton, Prod.mk.injEq, Option.some.injEq] at htarget
  obtain ⟨rfl, rfl⟩ := htarget
  obtain ⟨row, hrow, -, rfl⟩ := Database.exists_of_seat? hseat
  -- both teachers are in the second grade by now, which the copy does not know
  rw [htaken, Option.map_some, Option.some.injEq, Table.seat_of_mem (by decide)] at hfirst
  have hgrade : row.get "grade" = .int 2 := by
    simpa using List.all_eq_true.1 hsecond row hrow
  rw [hgrade] at hfirst
  cases hfirst

/-- No commit of the run takes a seat that others took since its transaction began. -/
theorem untaken_throughout_halfMoved :
    AtCommits Transaction.Untaken (halfMoved ++ [(.ofSeconds 12, .commit "c")]) := by
  -- whoever commits on the state that the transaction began on finds no seat taken
  have hself : ∀ {steps tx} {opened : OpenTransaction},
      base steps tx = (new.run steps).committed →
        opened.transaction.Untaken (base steps tx) (new.run steps).committed := by
    intro steps tx opened hbase
    rw [hbase]
    exact (opened.transaction.unmoved_and_untaken_self _).2
  refine atCommits_concat_iff.2 ⟨atCommits_concat_iff.2 ⟨?_, ?_⟩, ?_⟩
  · refine (atCommits_append_of_no_commit (by simp [halves])).2 (atCommits_concat_iff.2 ⟨?_, ?_⟩)
    · exact atCommits_of_no_commit (by simp [placed])
    · rintro tx opened ⟨rfl⟩ hfind hdone
      have hsteps : placed = [] ++ [(.ofSeconds 1, .begin .records "a")] ++ placed.tail := rfl
      exact hself (base_of_no_commit hsteps (by simp [placed, Step.bounds]) (by simp [placed]))
  · rintro tx opened ⟨rfl⟩ hfind hdone
    have hsteps : placed ++ [(.ofSeconds 6, .commit "a")] ++ halves =
        placed ++ [(.ofSeconds 6, .commit "a")] ++ [(.ofSeconds 7, .begin .records "b")] ++
          halves.tail := rfl
    exact hself (base_of_no_commit hsteps (by simp [halves, Step.bounds]) (by simp [halves]))
  · rintro tx opened ⟨rfl⟩ hfind hdone
    exact untaken_halfMoved hfind

/-- **The first condition is needed.** Two revisions of one record, each to a seat that is free, put
it together on a seat that is taken, and no commit meets a seat that others took. -/
theorem not_compositeRule_of_untaken :
    ¬∀ steps, RecordsOnly steps → AtCommits Transaction.Untaken steps →
      (new.run steps).committed.CompositeRule := by
  intro h
  have hrule := h _ recordsOnly_halfMoved untaken_throughout_halfMoved
  have hseats : ((new.run (halfMoved ++ [(.ofSeconds 12, .commit "c")])).committed.rows
      .teacherInforms).map (fun row => Table.teacherInforms.compositeColumns.map row.get) =
        [[.int 2, .int 2], [.int 2, .int 2]] := by decide +kernel
  have hapart : List.Pairwise (fun xs ys => xs ≠ ys ∨ .null ∈ xs)
      (((new.run (halfMoved ++ [(.ofSeconds 12, .commit "c")])).committed.rows
        .teacherInforms).map fun row => Table.teacherInforms.compositeColumns.map row.get) := by
    rw [List.pairwise_map]
    refine hrule.teachers.imp ?_
    rintro r r' ⟨name, hname, hne | hnull⟩
    · exact .inl fun hsame => hne (List.map_inj_left.1 hsame name hname)
    · exact .inr (List.mem_map.2 ⟨name, hname, hnull⟩)
  rw [hseats] at hapart
  simp at hapart

end Session

end Rollbook
