import Mathlib.Data.List.Find
import Rollbook.Proofs.Course

/-!
# Rollbook — footprints

A statement looks at its own table, at the tables that it refers to and at those that refer to it,
and it changes its own table only. A journal therefore does the same on any two states that agree on
the tables near its statements: so long as no one else has changed one of these, a commit succeeds
and publishes what the transaction holds, and it leaves every other table to the others.

* `execute_congr`    — a statement does the same to its table in states that agree near it.
* `replay_congr`     — the same for a journal.
* `commit_footprint` — what the commit of a transaction publishes where its footprint is untouched.
-/

namespace Rollbook

/-- The tables near a table: itself, those that it refers to, and those that refer to it. -/
def Table.Near (t t' : Table) : Prop :=
  t' = t ∨ (∃ fk ∈ t.foreignKeys, fk.refTable = t') ∨ ∃ fk ∈ t'.foreignKeys, fk.refTable = t

instance (t t' : Table) : Decidable (t.Near t') :=
  inferInstanceAs (Decidable (_ ∨ (∃ fk ∈ t.foreignKeys, fk.refTable = t') ∨
    ∃ fk ∈ t'.foreignKeys, fk.refTable = t))

namespace Transaction

/-- The table is near one of the statements that the transaction has noted. -/
def Footprint (transaction : Transaction) (t : Table) : Prop :=
  ∃ e ∈ transaction.journal, e.statement.table.Near t

/-- The table is that of one of the statements that the transaction has noted. -/
def Writes (transaction : Transaction) (t : Table) : Prop :=
  ∃ e ∈ transaction.journal, e.statement.table = t

end Transaction

-- ---------------------------------------------------------------------------
-- Statements
-- ---------------------------------------------------------------------------

namespace Database

/-- Two databases agree near a table. -/
def AgreeNear (t : Table) (db db' : Database) : Prop :=
  ∀ t', t.Near t' → db.rows t' = db'.rows t'

variable {db db' next : Database} {t : Table} {filter payload : Columns} {now : Timestamp}
  {statement : Statement} {n : Nat}

theorem AgreeNear.rows (h : AgreeNear t db db') : db.rows t = db'.rows t := h t (.inl rfl)

/-- Whether a row lacks the row it refers to depends on the tables referred to. -/
theorem AgreeNear.noReferent? (h : AgreeNear t db db') (row : Row) :
    db.noReferent? t row = db'.noReferent? t row := by
  rw [Database.noReferent?, Database.noReferent?]
  refine congrArg _ (List.find?_congr fun fk hfk => ?_)
  rw [h fk.refTable (.inr (.inl ⟨fk, hfk, rfl⟩))]

/-- Whether a row is referred to depends on the tables that refer to its own. -/
theorem AgreeNear.referenced? (h : AgreeNear t db db') (row : Row) (successor : Option Row) :
    db.referenced? t row successor = db'.referenced? t row successor := by
  rw [Database.referenced?, Database.referenced?]
  refine congrArg _ (List.find?_congr fun p hp => ?_)
  obtain ⟨child, fk⟩ := p
  rw [h child (.inr (.inr ⟨fk, mem_referrers_iff.1 hp⟩))]

/-- The checks of a row depend on nothing farther away than the references of its table and those to
it. -/
theorem AgreeNear.breach? (h : AgreeNear t db db') (others : List Row) (old : Option Row)
    (row : Row) : db.breach? t others old row = db'.breach? t others old row := by
  rw [Database.breach?, Database.breach?, h.noReferent? row]
  simp only [h.referenced?]

/-- An update depends on nothing farther away either, by induction on the rows it visits. -/
theorem AgreeNear.updateRows (h : AgreeNear t db db') (done rows : List Row) :
    db.updateRows t filter payload now done rows =
      db'.updateRows t filter payload now done rows := by
  induction rows generalizing done with
  | nil => rfl
  | cons row rest ih =>
    rw [Database.updateRows, Database.updateRows]
    simp only [h.breach?, ih]

/-- **A statement does the same to its table in states that agree near it**, and it does nothing to
any other table. -/
theorem execute_congr (h : AgreeNear statement.table db db')
    (hexecute : db.execute now statement = .ok (next, n)) :
    db'.execute now statement = .ok (db'.set statement.table (next.rows statement.table), n) ∧
      ∀ t, t ≠ statement.table → next.rows t = db.rows t := by
  cases statement with
  | insert t row =>
    have hnear : AgreeNear t db db' := h
    obtain ⟨hknown, hbreach, rfl, rfl⟩ := insert_eq_ok_iff.1 hexecute
    rw [hnear.breach?, hnear.rows] at hbreach
    refine ⟨insert_eq_ok_iff.2 ⟨hknown, hbreach, ?_, rfl⟩, fun t' => rows_set_of_ne _ _⟩
    rw [Statement.table, rows_set_self, hnear.rows]
  | update t filter payload =>
    have hnear : AgreeNear t db db' := h
    obtain ⟨hpayload, hfilter, rows, hrows, rfl⟩ := update_eq_ok_iff.1 hexecute
    rw [hnear.updateRows, hnear.rows] at hrows
    refine ⟨update_eq_ok_iff.2 ⟨hpayload, hfilter, rows, hrows, ?_⟩, fun t' => rows_set_of_ne _ _⟩
    rw [Statement.table, rows_set_self]
  -- what a delete needs to know lies in the tables that refer to its own, and those are near
  | delete t filter =>
    have hnear : AgreeNear t db db' := h
    obtain ⟨hknown, hfree, rfl, rfl⟩ := delete_eq_ok_iff.1 hexecute
    have hselect : db.select t filter = db'.select t filter := by
      rw [select, select, hnear.rows]
    rw [hselect] at hfree ⊢
    refine ⟨delete_eq_ok_iff.2 ⟨hknown, fun row hrow => ?_, ?_, rfl⟩, fun t' => rows_set_of_ne _ _⟩
    · rw [← hnear.referenced?]
      exact hfree row hrow
    · rw [Statement.table, rows_set_self, hnear.rows]

end Database

-- ---------------------------------------------------------------------------
-- Journals
-- ---------------------------------------------------------------------------

/-- **A journal does the same on states that agree near its statements**: where it succeeds on one,
it succeeds on the other, the two still agree there, and a table that it does not write stays. -/
theorem Transaction.replay_congr {footprint : Table → Prop} {journal : List JournalEntry}
    {db db' next : Database}
    (hnear : ∀ e ∈ journal, ∀ t, e.statement.table.Near t → footprint t)
    (hagree : ∀ t, footprint t → db.rows t = db'.rows t) (h : replay db journal = .ok next) :
    ∃ next', replay db' journal = .ok next' ∧
      (∀ t, footprint t → next.rows t = next'.rows t) ∧
      ∀ t, (∀ e ∈ journal, e.statement.table ≠ t) → next'.rows t = db'.rows t := by
  induction journal generalizing db db' with
  | nil =>
    cases h
    exact ⟨db', rfl, hagree, fun _ _ => rfl⟩
  | cons e rest ih =>
    obtain ⟨mid, n, hexecute, hrest⟩ := replay_cons_eq_ok_iff.1 h
    have hstatement : Database.AgreeNear e.statement.table db db' :=
      fun t ht => hagree t (hnear e List.mem_cons_self t ht)
    obtain ⟨hexecute', hothers⟩ := Database.execute_congr hstatement hexecute
    -- the table of the statement is now the same in both, and the others are as before
    have hmid : ∀ t, footprint t →
        mid.rows t = (db'.set e.statement.table (mid.rows e.statement.table)).rows t := by
      intro t ht
      rw [Database.rows_set]
      split
      · next hsame => rw [hsame]
      · next hother => rw [hothers t hother, hagree t ht]
    -- the rest of the journal goes on from there, in either state
    obtain ⟨next', hreplay, hfootprint, hunwritten⟩ :=
      ih (fun e he => hnear e (List.mem_cons_of_mem _ he)) hmid hrest
    refine ⟨next', replay_cons_eq_ok_iff.2 ⟨_, n, hexecute', hreplay⟩, hfootprint, ?_⟩
    intro t ht
    rw [hunwritten t fun e he => ht e (List.mem_cons_of_mem _ he),
      Database.rows_set_of_ne _ _ (Ne.symm (ht e List.mem_cons_self))]

-- ---------------------------------------------------------------------------
-- Commits
-- ---------------------------------------------------------------------------

namespace Session

variable {s : Session} {tx : String} {opened : OpenTransaction}

/-- A commit succeeds where the journal replays, and what it leaves is the outcome of the replay. As
each transaction has one replay, the converse is not needed. -/
theorem commit_of_replay {db : Database} (now : Timestamp) (hfind : s.find? tx = some opened)
    (hreplay : Transaction.replay s.committed opened.transaction.journal = .ok db) :
    (s.step now (.commit tx)).2 = .ok .done ∧ (s.step now (.commit tx)).1.committed = db := by
  rcases commit_cases now hfind with ⟨db', hreplay', hdb, hanswer⟩ | ⟨b, hreplay', -⟩
  · rw [hreplay] at hreplay'
    cases hreplay'
    exact ⟨hanswer, hdb⟩
  · rw [hreplay] at hreplay'
    cases hreplay'

/-- **An uncontended commit publishes the copy.** Let a transaction begin on one committed state and
commit on another. If the two have the same rows in every table of its footprint, the commit
succeeds, the tables that it has written then hold what its copy holds, and every other table what
it held before the commit. If nothing has been committed in between, the copy as a whole becomes the
committed state. -/
theorem commit_footprint (s : Session) (began now : Timestamp) (access : Access) (tx : String)
    {during : List (Timestamp × Step)} (hbounds : ∀ p ∈ during, p.2.bounds tx = false) :
    ∃ opened, (s.run ((began, .begin access tx) :: during)).find? tx = some opened ∧
      let before := s.run ((began, .begin access tx) :: during)
      let after := (before.step now (.commit tx)).1
      ((∀ t, opened.transaction.Footprint t → before.committed.rows t = s.committed.rows t) →
        (before.step now (.commit tx)).2 = .ok .done ∧
          (∀ t, opened.transaction.Writes t →
            after.committed.rows t = opened.transaction.snapshot.rows t) ∧
          ∀ t, ¬opened.transaction.Writes t →
            after.committed.rows t = before.committed.rows t) ∧
      ((before.committed = s.committed ∨ ∀ p ∈ during, ∀ name, p.2 ≠ .commit name) →
        (before.step now (.commit tx)).2 = .ok .done ∧
          after.committed = opened.transaction.snapshot) := by
  obtain ⟨opened, hfind, hreplay⟩ := exists_find?_run s began access tx hbounds
  refine ⟨opened, hfind, ?_, ?_⟩
  · -- the journal that led to the copy leads to the same tables on what is committed by now
    intro hagree
    obtain ⟨db, hdb, hfootprint, hunwritten⟩ := Transaction.replay_congr
      (fun e he t ht => (⟨e, he, ht⟩ : opened.transaction.Footprint t))
      (fun t ht => (hagree t ht).symm) hreplay
    obtain ⟨hanswer, hcommitted⟩ := commit_of_replay now hfind hdb
    rw [hcommitted]
    refine ⟨hanswer, ?_, fun t ht => hunwritten t fun e he htable => ht ⟨e, he, htable⟩⟩
    rintro t ⟨e, he, rfl⟩
    exact (hfootprint e.statement.table ⟨e, he, .inl rfl⟩).symm
  · intro hquiet
    have hsame : (s.run ((began, .begin access tx) :: during)).committed = s.committed := by
      rcases hquiet with hsame | hnone
      · exact hsame
      · exact committed_run_of_no_commit (s := (s.step began (.begin access tx)).1) hnone
    rw [← hsame] at hreplay
    exact commit_of_replay now hfind hreplay

/-- One transaction creates a parent while another creates a teacher and commits. -/
def separateAccounts : List (Timestamp × Step) :=
  [(.ofSeconds 1, .begin .records "a"),
    (.ofSeconds 2, .begin .records "b"),
    (.ofSeconds 3, .operate "a" (.create .parentAuths
      ⟨"parent-000000000001", ("lee1", "hash", ()), none, none⟩)),
    (.ofSeconds 4, .operate "b" (.create .teacherAuths
      ⟨"teacher-000000000001", ("kim1", "hash", ()), none, none⟩)),
    (.ofSeconds 5, .commit "b")]

/-- The commit publishes the parent as the copy has it and keeps the teacher that the copy lacks. -/
theorem commit_footprint_separateAccounts :
    ((new.run separateAccounts).step (.ofSeconds 6) (.commit "a")).2 = .ok .done ∧
      ∃ opened, (new.run separateAccounts).find? "a" = some opened ∧
        (opened.transaction.snapshot.rows .parentAuths).length = 1 ∧
        ((new.run separateAccounts).step (.ofSeconds 6) (.commit "a")).1.committed.rows
          .parentAuths = opened.transaction.snapshot.rows .parentAuths ∧
        opened.transaction.snapshot.rows .teacherAuths = [] ∧
        (((new.run separateAccounts).step (.ofSeconds 6) (.commit "a")).1.committed.rows
          .teacherAuths).length = 1 := by
  have hbounds : ∀ p ∈ separateAccounts.tail, p.2.bounds "a" = false := by
    intro p hp
    simp only [separateAccounts, List.tail_cons, List.mem_cons, List.not_mem_nil, or_false] at hp
    rcases hp with rfl | rfl | rfl | rfl <;> rfl
  obtain ⟨opened, hfind, hfootprint, -⟩ :=
    commit_footprint new (.ofSeconds 1) (.ofSeconds 6) .records "a" hbounds
  have hopened : (new.run separateAccounts).find? "a" = some opened := hfind
  have hheld : ((new.run separateAccounts).find? "a").map (fun opened =>
      (opened.transaction.journal.map (·.statement.table),
        (opened.transaction.snapshot.rows .parentAuths).length,
        opened.transaction.snapshot.rows .teacherAuths)) = some ([.parentAuths], 1, []) := by rfl
  rw [hopened, Option.map_some, Option.some.injEq, Prod.mk.injEq, Prod.mk.injEq] at hheld
  obtain ⟨hjournal, hparent, hteacher⟩ := hheld
  -- the one statement is about parents
  have htable : ∀ e ∈ opened.transaction.journal, e.statement.table = .parentAuths := by
    intro e he
    have hmem := List.mem_map_of_mem (f := (·.statement.table)) he
    rw [hjournal] at hmem
    exact List.mem_singleton.1 hmem
  -- no account of a teacher is near one of a parent
  have hagree : ∀ t, opened.transaction.Footprint t →
      (new.run separateAccounts).committed.rows t = new.committed.rows t := by
    rintro t ⟨e, he, hnear⟩
    rw [htable e he] at hnear
    cases t with
    | teacherAuths => exact absurd hnear (by decide)
    | _ => rfl
  obtain ⟨hanswer, hwritten, hunwritten⟩ := hfootprint hagree
  obtain ⟨e, he⟩ : ∃ e, e ∈ opened.transaction.journal := by
    refine List.exists_mem_of_length_pos ?_
    rw [← List.length_map, hjournal]
    exact Nat.one_pos
  refine ⟨hanswer, opened, hopened, hparent, hwritten _ ⟨e, he, htable e he⟩, hteacher, ?_⟩
  have hkept := hunwritten .teacherAuths fun ⟨e, he, hteacher⟩ => by
    rw [htable e he] at hteacher
    cases hteacher
  exact (congrArg List.length hkept).trans (by rfl)

end Session

end Rollbook
