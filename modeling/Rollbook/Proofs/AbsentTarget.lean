import Mathlib.Data.List.Basic
import Rollbook.Proofs.Course

/-!
# Rollbook — targets that are not there

An operation that aims at an absent uuid touches no row of its transaction's copy, but all except
the revisions of composite columns run a statement to find that out, and the journal keeps it. By
the commit the row may be there. `commit_of_misses` says when such a transaction still leaves the
committed state alone: exactly when none of these statements finds anything to do in it.
-/

namespace Rollbook

-- ---------------------------------------------------------------------------
-- Statements that find nothing to do
-- ---------------------------------------------------------------------------

namespace Statement

/-- The statement finds nothing to do: no row to delete, or no row that an update would alter. -/
def Idle (db : Database) : Statement → Prop
  | .insert _ _ => False
  | .update t filter payload =>
    ∀ row ∈ db.rows t, row.meets filter = true → row.overlay payload = row
  | .delete t filter => ∀ row ∈ db.rows t, row.meets filter = false

/-- The statement inserts no row. -/
def NoInsert (statement : Statement) : Prop := ∀ t row, statement ≠ .insert t row

end Statement

namespace Database

variable {db next : Database} {t : Table} {filter payload : Columns} {now : Timestamp} {n : Nat}
  {statement : Statement}

/-- An update that alters no row visits them all and changes none. -/
theorem updateRows_of_idle {done rows : List Row}
    (h : ∀ row ∈ rows, revised? filter payload now row = none) :
    db.updateRows t filter payload now done rows = .ok (done ++ rows, 0) := by
  induction rows generalizing done with
  | nil => rw [updateRows, List.append_nil]
  | cons row rest ih =>
    have hrest : ∀ r ∈ rest, revised? filter payload now r = none :=
      fun r hr => h r (List.mem_cons_of_mem _ hr)
    rw [updateRows, h row List.mem_cons_self]
    show db.updateRows t filter payload now (done ++ [row]) rest = _
    rw [ih hrest, List.append_assoc, List.singleton_append]

/-- An idle statement with known columns is accepted, changes nothing and counts no row. -/
theorem execute_of_idle (now : Timestamp) (hknown : statement.Known) (h : statement.Idle db) :
    db.execute now statement = .ok (db, 0) := by
  cases statement with
  | insert t row => exact h.elim
  | update t filter payload =>
    refine update_eq_ok_iff.2 ⟨hknown.1, hknown.2, db.rows t, ?_, (db.set_rows t).symm⟩
    exact updateRows_of_idle fun row hrow => (revised?_eq_none_iff now).2 (h row hrow)
  | delete t filter =>
    -- no row is met, so none is taken and none can be referred to
    have hnone : db.select t filter = [] := by
      rw [select, List.filter_eq_nil_iff]
      intro row hrow
      rw [h row hrow]
      exact Bool.false_ne_true
    have hall : (db.rows t).filter (fun row => !row.meets filter) = db.rows t := by
      rw [List.filter_eq_self]
      intro row hrow
      rw [h row hrow, Bool.not_false]
    refine delete_eq_ok_iff.2 ⟨hknown, ?_, ?_, ?_⟩
    · rw [hnone]
      exact fun _ hrow => by cases hrow
    · rw [hall, set_rows]
    · rw [hnone, List.length_nil]

/-- The converse, for one state: a statement that is accepted and counts no row is idle there. -/
theorem idle_of_execute (h : db.execute now statement = .ok (next, 0)) : statement.Idle db := by
  cases statement with
  | insert t row =>
    obtain ⟨-, -, -, hcount⟩ := insert_eq_ok_iff.1 h
    exact absurd hcount (by decide)
  | update t filter payload =>
    obtain ⟨-, -, rows, hrows, -⟩ := update_eq_ok_iff.1 h
    obtain ⟨-, hcount⟩ := updateRows_eq_ok hrows
    intro row hrow
    rw [← revised?_eq_none_iff now, ← Option.not_isSome_iff_eq_none]
    exact List.countP_eq_zero.1 hcount.symm row hrow
  | delete t filter =>
    obtain ⟨-, -, -, hcount⟩ := delete_eq_ok_iff.1 h
    intro row hrow
    rw [eq_comm, List.length_eq_zero_iff, select, List.filter_eq_nil_iff] at hcount
    simpa using hcount row hrow

/-- A statement leaves everything as it is, without a row to report, exactly when it finds nothing
to do. -/
theorem execute_eq_self_iff (hknown : statement.Known) :
    db.execute now statement = .ok (db, 0) ↔ statement.Idle db :=
  ⟨idle_of_execute, execute_of_idle now hknown⟩

-- ---------------------------------------------------------------------------
-- Rows that a journal has not touched
-- ---------------------------------------------------------------------------

/-- Whether a row was last changed at none of the moments. -/
def untouched (moments : List Timestamp) (row : Row) : Bool :=
  moments.all fun moment => row.get updatedAtKey ≠ .timestamp moment

/-- How many rows of a table were last changed at none of the moments. -/
def untouchedCount (moments : List Timestamp) (db : Database) (t : Table) : Nat :=
  (db.rows t).countP (untouched moments)

variable {moments : List Timestamp}

/-- A row that a statement of one of the moments leaves without that moment has not been revised by
it, and was without the moments before. -/
theorem untouched_revise {row : Row} (hnow : now ∈ moments)
    (h : untouched moments (revise filter payload now row) = true) :
    revised? filter payload now row = none ∧ untouched moments row = true := by
  rw [revise] at h
  cases hrev : revised? filter payload now row with
  | none =>
    rw [hrev] at h
    exact ⟨rfl, h⟩
  | some revised =>
    -- a revision carries the moment of its statement
    obtain ⟨-, -, rfl⟩ := revised?_eq_some_iff.1 hrev
    rw [hrev, untouched, List.all_eq_true] at h
    have hmoment := h now hnow
    simp [Columns.get] at hmoment

/-- Without an insertion, the untouched rows of a table only become fewer. -/
theorem untouchedCount_le (hnow : now ∈ moments) (hstatement : statement.NoInsert)
    (h : db.execute now statement = .ok (next, n)) (t : Table) :
    untouchedCount moments next t ≤ untouchedCount moments db t := by
  cases statement with
  | insert t' row => exact absurd rfl (hstatement t' row)
  | update t' filter payload =>
    obtain ⟨-, -, rows, hrows, rfl⟩ := update_eq_ok_iff.1 h
    obtain ⟨hleft, -⟩ := updateRows_eq_ok hrows
    rw [untouchedCount, untouchedCount, rows_set]
    split
    · next ht =>
      rw [hleft, ht, List.nil_append, List.countP_map]
      -- whoever is untouched now was so before, since a revised row carries the moment
      exact List.countP_mono_left fun row _ hrow => (untouched_revise hnow hrow).2
    · exact Nat.le_refl _
  | delete t' filter =>
    obtain ⟨-, -, rfl, -⟩ := delete_eq_ok_iff.1 h
    rw [untouchedCount, untouchedCount, rows_set]
    split
    · next ht =>
      rw [ht]
      exact List.Sublist.countP_le List.filter_sublist
    · exact Nat.le_refl _

/-- A statement that finds something to do where all rows are untouched leaves fewer of them. -/
theorem untouchedCount_lt (hnow : now ∈ moments) (hstatement : statement.NoInsert)
    (hfresh : ∀ t, ∀ row ∈ db.rows t, untouched moments row = true)
    (h : db.execute now statement = .ok (next, n)) (hbusy : ¬statement.Idle db) :
    ∃ t, untouchedCount moments next t < untouchedCount moments db t := by
  have hall : ∀ t, untouchedCount moments db t = (db.rows t).length :=
    fun t => List.countP_eq_length.2 (hfresh t)
  cases statement with
  | insert t row => exact absurd rfl (hstatement t row)
  | update t filter payload =>
    obtain ⟨-, -, rows, hrows, rfl⟩ := update_eq_ok_iff.1 h
    obtain ⟨hleft, -⟩ := updateRows_eq_ok hrows
    obtain ⟨row, hrow, hchanged⟩ : ∃ row ∈ db.rows t, revised? filter payload now row ≠ none := by
      by_contra hnone
      push Not at hnone
      exact hbusy fun row hrow => (revised?_eq_none_iff now).1 (hnone row hrow)
    refine ⟨t, ?_⟩
    rw [hall, untouchedCount, rows_set_self, hleft, List.nil_append, List.countP_map]
    -- were they all untouched still, none of them would have been revised
    refine Nat.lt_of_le_of_ne List.countP_le_length fun heq => hchanged ?_
    exact (untouched_revise hnow (List.countP_eq_length.1 heq row hrow)).1
  | delete t filter =>
    obtain ⟨-, -, rfl, -⟩ := delete_eq_ok_iff.1 h
    obtain ⟨row, hrow, hmeets⟩ : ∃ row ∈ db.rows t, row.meets filter = true := by
      by_contra hnone
      push Not at hnone
      exact hbusy fun row hrow => Bool.eq_false_iff.2 (hnone row hrow)
    refine ⟨t, ?_⟩
    rw [hall, untouchedCount, rows_set_self]
    -- a delete takes the row that it meets, untouched or not
    have hfewer : ((db.rows t).filter fun row => !row.meets filter).length <
        (db.rows t).length :=
      List.length_filter_lt_length_iff_exists.2 ⟨row, hrow, by simp [hmeets]⟩
    exact Nat.lt_of_le_of_lt List.countP_le_length hfewer

end Database

namespace Transaction

open Database

variable {db next : Database} {journal : List JournalEntry} {moments : List Timestamp}

/-- A journal of idle statements replays, and changes nothing. They stay idle on the way because
each of them leaves the state as it is. -/
theorem replay_of_idle (hknown : ∀ e ∈ journal, e.statement.Known)
    (h : ∀ e ∈ journal, e.statement.Idle db) : replay db journal = .ok db := by
  induction journal with
  | nil => rfl
  | cons e rest ih =>
    have hhead := execute_of_idle e.moment (hknown e List.mem_cons_self) (h e List.mem_cons_self)
    have hrest := ih (fun e he => hknown e (List.mem_cons_of_mem _ he))
      fun e he => h e (List.mem_cons_of_mem _ he)
    exact replay_cons_eq_ok_iff.2 ⟨db, 0, hhead, hrest⟩

/-- A journal without inserts never adds to the untouched rows of a table: each entry revises some
or takes some away. -/
theorem untouchedCount_replay_le (hmoments : ∀ e ∈ journal, e.moment ∈ moments)
    (hstatement : ∀ e ∈ journal, e.statement.NoInsert) (h : replay db journal = .ok next)
    (t : Table) : untouchedCount moments next t ≤ untouchedCount moments db t := by
  refine replay_induction
    (motive := fun d => untouchedCount moments d t ≤ untouchedCount moments db t)
    h (Nat.le_refl _) ?_
  intro e he d mid n hle hmid
  have hstep := untouchedCount_le (hmoments e he) (hstatement e he) hmid t
  omega

/-- A journal without an insertion that leads back to where it started, where no row was last
changed at one of its moments, has nothing to do there. -/
theorem idle_of_replay_eq_self (hknown : ∀ e ∈ journal, e.statement.Known)
    (hmoments : ∀ e ∈ journal, e.moment ∈ moments)
    (hstatement : ∀ e ∈ journal, e.statement.NoInsert)
    (hfresh : ∀ t, ∀ row ∈ db.rows t, untouched moments row = true)
    (h : replay db journal = .ok db) : ∀ e ∈ journal, e.statement.Idle db := by
  induction journal with
  | nil => exact fun e he => by cases he
  | cons e rest ih =>
    have hmomentsRest : ∀ e ∈ rest, e.moment ∈ moments :=
      fun e he => hmoments e (List.mem_cons_of_mem _ he)
    have hstatementRest : ∀ e ∈ rest, e.statement.NoInsert :=
      fun e he => hstatement e (List.mem_cons_of_mem _ he)
    obtain ⟨mid, n, hmid, hrest⟩ := replay_cons_eq_ok_iff.1 h
    -- if the first statement finds nothing to do, the rest starts where it started
    by_cases hidle : e.statement.Idle db
    · rw [execute_of_idle _ (hknown e List.mem_cons_self) hidle] at hmid
      cases hmid
      intro e' he'
      rcases List.mem_cons.1 he' with rfl | he'
      · exact hidle
      · exact ih (fun e he => hknown e (List.mem_cons_of_mem _ he)) hmomentsRest hstatementRest
          hrest e' he'
    · -- what the first statement touches stays touched to the end
      obtain ⟨t, hlt⟩ := untouchedCount_lt (hmoments e List.mem_cons_self)
        (hstatement e List.mem_cons_self) hfresh hmid hidle
      have hle := untouchedCount_replay_le hmomentsRest hstatementRest hrest t
      omega

end Transaction

-- ---------------------------------------------------------------------------
-- Operations on absent uuids
-- ---------------------------------------------------------------------------

namespace Operation

/-- The operation creates nothing, and the database has no row of the uuid that it is to change. -/
def misses (db : Database) : Operation → Bool
  | create _ _ => false
  | modify t uuid _ => (db.select t (t.identityFilter uuid)).isEmpty
  | delete role uuid => (db.select role.accounts (role.accounts.identityFilter uuid)).isEmpty
  | login _ _ => true
  | get _ _ => true
  | find _ _ => true

/-- The statement that an operation runs when it misses: a revision of composite columns looks for
the row first and gives up, and everything else that is valid is run. -/
def blind? : Operation → Option Statement
  | modify t uuid revision =>
    if revision.uuid.isNone = true ∧ t.identity.check uuid = .ok () ∧ revision.check = .ok () ∧
        revision.payload.isEmpty = false ∧ t.touchesComposite revision.payload = false then
      some (.update t (t.identityFilter uuid) revision.payload)
    else none
  | delete role uuid =>
    if role.accounts.identity.check uuid = .ok () then
      some (.delete role.accounts (role.accounts.identityFilter uuid))
    else none
  | _ => none

variable {db : Database} {operation : Operation} {statement : Statement}

/-- An operation that misses its target issues what it would issue without looking. -/
theorem issued?_of_misses (h : operation.misses db = true) :
    operation.issued? db = operation.blind? := by
  cases operation with
  | create t record => cases h
  | modify t uuid revision =>
    -- without a row, nothing may be moved
    have hmovable : db.movable t uuid revision.payload = false := by
      rw [Database.movable, List.isEmpty_iff.1 h]
    simp only [issued?, blind?, hmovable, Bool.false_eq_true, imp_false, Bool.not_eq_true]
  | delete role uuid => rfl
  | login role id => rfl
  | get t uuid => rfl
  | find person wanted => rfl

theorem noInsert_of_blind? (h : operation.blind? = some statement) : statement.NoInsert := by
  intro t row hinsert
  subst hinsert
  cases operation with
  | modify t uuid revision => simp [blind?] at h
  | delete role uuid => simp [blind?] at h
  | _ => cases h

theorem known_of_blind? (h : operation.blind? = some statement) : statement.Known := by
  cases operation with
  | modify t uuid revision =>
    simp only [blind?, Option.ite_none_right_eq_some, Option.some.injEq] at h
    obtain ⟨-, rfl⟩ := h
    exact ⟨revision.known_payload, t.known_identityFilter uuid⟩
  | delete role uuid =>
    simp only [blind?, Option.ite_none_right_eq_some, Option.some.injEq] at h
    obtain ⟨-, rfl⟩ := h
    exact role.accounts.known_identityFilter uuid
  | _ => cases h

/-- What misses has nothing to do. -/
theorem idle_of_misses (hmisses : operation.misses db = true)
    (h : operation.blind? = some statement) : statement.Idle db := by
  cases operation with
  | modify t uuid revision =>
    simp only [blind?, Option.ite_none_right_eq_some, Option.some.injEq] at h
    obtain ⟨-, rfl⟩ := h
    intro row hrow hmeets
    rw [misses, List.isEmpty_iff, Database.select, List.filter_eq_nil_iff] at hmisses
    exact absurd hmeets (hmisses row hrow)
  | delete role uuid =>
    simp only [blind?, Option.ite_none_right_eq_some, Option.some.injEq] at h
    obtain ⟨-, rfl⟩ := h
    intro row hrow
    rw [misses, List.isEmpty_iff, Database.select, List.filter_eq_nil_iff] at hmisses
    exact Bool.eq_false_iff.2 (hmisses row hrow)
  | _ => cases h

end Operation

-- ---------------------------------------------------------------------------
-- A transaction that only misses
-- ---------------------------------------------------------------------------

namespace Session

variable {s : Session} {now : Timestamp} {tx : String} {step : Step}
  {during : List (Timestamp × Step)}

/-- Through these steps the transaction of the name stays open, and each operation in it creates
nothing and aims at a uuid of which its copy holds no row at that moment. -/
def OnlyMisses (tx : String) : Session → List (Timestamp × Step) → Prop
  | _, [] => True
  | s, p :: rest =>
    p.2.bounds tx = false ∧
      (∀ operation opened, p.2 = .operate tx operation → s.find? tx = some opened →
        operation.misses opened.transaction.snapshot = true) ∧
      OnlyMisses tx (s.step p.1 p.2).1 rest

/-- What the steps of a transaction that only misses leave in its journal. -/
def blindEntries (tx : String) (during : List (Timestamp × Step)) : List JournalEntry :=
  during.filterMap fun p =>
    match p.2 with
    | .operate name operation =>
      if name = tx then operation.blind?.map (⟨p.1, ·⟩) else none
    | _ => none

/-- Every entry that was written blindly is the statement of some operation. -/
theorem exists_blind?_of_mem {e : JournalEntry} (h : e ∈ blindEntries tx during) :
    ∃ operation : Operation, operation.blind? = some e.statement := by
  obtain ⟨p, -, hentry⟩ := List.mem_filterMap.1 h
  split at hentry
  · next name operation hstep =>
    split at hentry
    · obtain ⟨statement, hblind, rfl⟩ := Option.map_eq_some_iff.1 hentry
      exact ⟨operation, hblind⟩
    · cases hentry
  · cases hentry

/-- A transaction that only misses keeps its copy, and notes what it tried. -/
theorem find?_run_of_onlyMisses {transaction : Transaction}
    (h : s.find? tx = some ⟨.records, transaction⟩) (hmisses : OnlyMisses tx s during) :
    (s.run during).find? tx = some ⟨.records, ⟨transaction.snapshot,
      transaction.journal ++ blindEntries tx during⟩⟩ := by
  induction during generalizing s transaction with
  | nil =>
    rw [blindEntries, List.filterMap_nil, List.append_nil]
    exact h
  | cons p rest ih =>
    obtain ⟨now, step⟩ := p
    obtain ⟨hbounds, hoperation, hrest⟩ := hmisses
    have hafter := find?_step_of_not_bounds now hbounds (s := s)
    rw [h, Option.map_some, Step.access_records] at hafter
    have hrun := ih hafter hrest
    show ((s.step now step).1.run rest).find? tx = _
    rw [hrun]
    -- one step adds its blind statement to the journal and leaves the copy
    suffices hone : transaction.attempt now (s.issued? tx step) = ⟨transaction.snapshot,
        transaction.journal ++ blindEntries tx [(now, step)]⟩ by
      rw [hone, List.append_assoc, blindEntries, blindEntries, blindEntries,
        ← List.filterMap_append]
      rfl
    cases step with
    | operate name operation =>
      by_cases hname : name = tx
      · subst hname
        have hmiss := hoperation operation _ rfl h
        have hissued : s.issued? name (.operate name operation) = operation.blind? := by
          rw [← Operation.issued?_of_misses hmiss]
          simp [issued?, h]
        rw [hissued]
        cases hblind : operation.blind? with
        | none => simp [Transaction.attempt, blindEntries, hblind]
        | some statement =>
          have hexecute := Database.execute_of_idle now
            (Operation.known_of_blind? hblind) (Operation.idle_of_misses hmiss hblind)
          simp [Transaction.attempt, Transaction.execute_ok hexecute, blindEntries, hblind]
      · simp [Transaction.attempt, issued?, h, blindEntries, hname]
    -- raw operations and other steps issue nothing in a transaction on records
    | operateRaw name operation =>
      simp [Transaction.attempt, issued?, h, blindEntries]
    | _ => simp [Transaction.attempt, issued?, h, blindEntries]

/-- A commit succeeds and changes nothing when the journal leads back to where it starts. -/
theorem commit_eq_self_iff {opened : OpenTransaction} (now : Timestamp)
    (h : s.find? tx = some opened) :
    ((s.step now (.commit tx)).2 = .ok .done ∧
        (s.step now (.commit tx)).1.committed = s.committed) ↔
      Transaction.replay s.committed opened.transaction.journal = .ok s.committed := by
  rcases commit_cases now h with ⟨db, hreplay, hdb, hanswer⟩ | ⟨b, hreplay, -, hanswer⟩
  · rw [hreplay, hdb, hanswer]
    simp
  · rw [hreplay, hanswer]
    simp

/-- **When missing does no harm.** A transaction that creates nothing and only misses leaves the
committed state alone if, at its commit, each statement that it ran blindly still finds nothing to
do. No other case has statements that all touch no row; and unless a committed row was last changed
at the very moment of one of them, the commit succeeds and changes nothing in no other case. -/
theorem commit_of_misses (before during : List (Timestamp × Step)) (began now : Timestamp)
    (tx : String)
    (hmisses : OnlyMisses tx (new.run (before ++ [(began, .begin .records tx)])) during) :
    let s := new.run (before ++ (began, .begin .records tx) :: during)
    let after := s.step now (.commit tx)
    let harmless := ∀ e ∈ blindEntries tx during, e.statement.Idle s.committed
    (harmless → after.2 = .ok .done ∧ after.1.committed = s.committed) ∧
      (harmless ↔ ∀ e ∈ blindEntries tx during,
        s.committed.execute e.moment e.statement = .ok (s.committed, 0)) ∧
      ((∀ t, ∀ row ∈ s.committed.rows t, ∀ e ∈ blindEntries tx during,
          row.get updatedAtKey ≠ .timestamp e.moment) →
        (harmless ↔ after.2 = .ok .done ∧ after.1.committed = s.committed)) := by
  intro s after harmless
  have hknown : ∀ e ∈ blindEntries tx during, e.statement.Known := fun e he =>
    (exists_blind?_of_mem he).elim fun _ hblind => Operation.known_of_blind? hblind
  have hinsert : ∀ e ∈ blindEntries tx during, e.statement.NoInsert := fun e he =>
    (exists_blind?_of_mem he).elim fun _ hblind => Operation.noInsert_of_blind? hblind
  have hbegin : (new.run (before ++ [(began, .begin .records tx)])).find? tx =
      some ⟨.records, .begin (new.run before).committed⟩ := by
    rw [run_concat]
    simp [Session.step]
  -- its journal holds what it ran blindly, and its copy is of no concern to the commit
  have hfind := find?_run_of_onlyMisses hbegin hmisses
  rw [← run_append, List.append_assoc, List.singleton_append] at hfind
  have hcommit : (after.2 = .ok .done ∧ after.1.committed = s.committed) ↔
      Transaction.replay s.committed (blindEntries tx during) = .ok s.committed :=
    commit_eq_self_iff now hfind
  refine ⟨fun h => hcommit.2 (Transaction.replay_of_idle hknown h), ?_, fun hclock => ?_⟩
  · exact forall₂_congr fun e he => (Database.execute_eq_self_iff (hknown e he)).symm
  · refine ⟨fun h => hcommit.2 (Transaction.replay_of_idle hknown h), fun h => ?_⟩
    -- where no row carries a moment of the journal, whatever it touched can be told
    have hfresh : ∀ t, ∀ row ∈ s.committed.rows t, Database.untouched
        ((blindEntries tx during).map (·.moment)) row = true := by
      intro t row hrow
      rw [Database.untouched, List.all_eq_true]
      intro moment hmoment
      obtain ⟨e, he, rfl⟩ := List.mem_map.1 hmoment
      simpa using hclock t row hrow e he
    exact Transaction.idle_of_replay_eq_self hknown (fun e he => List.mem_map_of_mem he) hinsert
      hfresh (hcommit.1 h)

/-- While a transaction deletes an absent parent, another creates and commits one. -/
def crossing (created : String) : List (Timestamp × Step) :=
  [(.ofSeconds 2, .operate "a" (.delete .parent "parent-000000000001")),
    (.ofSeconds 3, .begin .records "b"),
    (.ofSeconds 4, .operate "b"
      (.create .parentAuths ⟨created, ("mother", "hash", ()), none, none⟩)),
    (.ofSeconds 5, .commit "b")]

/-- While the two transactions cross, the first one only misses: its copy is the empty database it
began on. -/
theorem onlyMisses_crossing (created : String) :
    OnlyMisses "a" (new.run ([] ++ [(.ofSeconds 1, .begin .records "a")])) (crossing created) := by
  refine ⟨rfl, ?_, rfl, ?_, rfl, ?_, rfl, ?_, trivial⟩
  · intro operation opened hstep hfind
    cases hstep
    have hopen : (new.run ([] ++ [(.ofSeconds 1, .begin .records "a")])).find? "a" =
        some ⟨.records, .begin .empty⟩ := rfl
    rw [hopen] at hfind
    cases hfind
    rfl
  · intro operation opened hstep
    cases hstep
  · intro operation opened hstep
    simp at hstep
  · intro operation opened hstep
    cases hstep

/-- Another parent than the deleted one is safe. -/
theorem commit_of_misses_other :
    let s := new.run ((.ofSeconds 1, .begin .records "a") :: crossing "parent-000000000002")
    let after := s.step (.ofSeconds 6) (.commit "a")
    (s.committed.rows .parentAuths).length = 1 ∧
      (after.2 = .ok .done ∧ after.1.committed = s.committed) ∧
      ∀ e ∈ blindEntries "a" (crossing "parent-000000000002"), e.statement.Idle s.committed := by
  intro s after
  have hcommit := commit_of_misses [] (crossing "parent-000000000002") (.ofSeconds 1)
    (.ofSeconds 6) "a" (onlyMisses_crossing _)
  obtain ⟨hsafe, -, hexact⟩ := hcommit
  have hone : blindEntries "a" (crossing "parent-000000000002") =
      [⟨.ofSeconds 2, .delete .parentAuths
        (Table.identityFilter .parentAuths "parent-000000000001")⟩] := by rfl
  have hrows : ((s.committed.rows .parentAuths).all fun row =>
      !row.meets (Table.identityFilter .parentAuths "parent-000000000001")) = true := by rfl
  -- no row was changed last at the moment of the delete, so the exact part applies as well
  have hclock : (Table.all.all fun t => (s.committed.rows t).all fun row =>
      row.get updatedAtKey ≠ .timestamp (.ofSeconds 2)) = true := by rfl
  have hdone : after.2 = .ok .done ∧ after.1.committed = s.committed := by
    refine hsafe ?_
    rw [hone]
    intro e he
    cases List.mem_singleton.1 he
    intro row hrow
    simpa using List.all_eq_true.1 hrows row hrow
  refine ⟨by rfl, hdone, (hexact ?_).2 hdone⟩
  rw [hone]
  intro t row hrow e he
  cases List.mem_singleton.1 he
  have ht := List.all_eq_true.1 hclock t t.mem_all
  simpa using List.all_eq_true.1 ht row hrow

/-- Only missing is not enough: the parent that was absent when it was deleted, and has been
committed since, is gone after the commit. -/
theorem not_commit_of_misses :
    ¬∀ (before during : List (Timestamp × Step)) (began now : Timestamp) (tx : String),
      OnlyMisses tx (new.run (before ++ [(began, .begin .records tx)])) during →
        let s := new.run (before ++ (began, .begin .records tx) :: during)
        (s.step now (.commit tx)).2 = .ok .done ∧
          (s.step now (.commit tx)).1.committed = s.committed := by
  intro h
  obtain ⟨-, hsame⟩ := h [] (crossing "parent-000000000001") (.ofSeconds 1) (.ofSeconds 6) "a"
    (onlyMisses_crossing _)
  have hbefore : ((new.run ([] ++ (.ofSeconds 1, .begin .records "a") ::
      crossing "parent-000000000001")).committed.rows .parentAuths).length = 1 := by rfl
  have hafter : (((new.run ([] ++ (.ofSeconds 1, .begin .records "a") ::
      crossing "parent-000000000001")).step (.ofSeconds 6) (.commit "a")).1.committed.rows
        .parentAuths).length = 0 := by rfl
  rw [hsame, hbefore] at hafter
  cases hafter

end Session

end Rollbook
