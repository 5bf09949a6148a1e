import Mathlib.Data.List.Basic
import Rollbook.Proofs.Operation

/-!
# Rollbook — seats

Profiles of students and teachers share a rule that the engine does not know: no two rows hold the
same values in the composite columns. Here a table is seen through these columns alone. The seat of
a uuid is what its row holds in them, and a statement of the registrar moves each seat by itself,
whatever else the database holds (`seat?_execute`).

* `seat?_execute`         — what a statement makes of a seat depends on this seat only.
* `SeatsApart.execute`    — the check of an operation keeps complete seats apart on its own copy.
* `seat?_replay_congr`    — a journal moves equal seats of two databases to equal seats.
* `seat?_replay_of_not_writes` — a journal leaves alone the seats that it does not write.
-/

namespace Rollbook

-- ---------------------------------------------------------------------------
-- Seats
-- ---------------------------------------------------------------------------

/-- The values of the composite columns, by column name. -/
abbrev Seat := String → Value

namespace Table

/-- The seat that a row of the table holds. -/
def seat (t : Table) (row : Row) : Seat := fun name =>
  if name ∈ t.compositeColumns then row.get name else .null

/-- A seat without an empty column; only such seats are taken. -/
def Full (t : Table) (seat : Seat) : Prop := ∀ name ∈ t.compositeColumns, seat name ≠ .null

/-- A seat after some of its columns are set. -/
def moved (t : Table) (payload : Columns) (seat : Seat) : Seat := fun name =>
  if name ∈ t.compositeColumns then (payload.get? name).getD (seat name) else .null

variable {t : Table}

theorem seat_of_mem {row : Row} {name : String} (h : name ∈ t.compositeColumns) :
    t.seat row name = row.get name := if_pos h

/-- Two rows have the same seat when they agree on the composite columns; the other columns do not
count. -/
theorem seat_eq_iff {row row' : Row} :
    t.seat row = t.seat row' ↔ ∀ name ∈ t.compositeColumns, row.get name = row'.get name := by
  constructor
  · intro h name hname
    rw [← seat_of_mem hname, ← seat_of_mem hname, h]
  · intro h
    funext name
    by_cases hname : name ∈ t.compositeColumns
    · rw [seat_of_mem hname, seat_of_mem hname, h name hname]
    · rw [seat, seat, if_neg hname, if_neg hname]

/-- What sets no composite column leaves the seat of a row where it is. -/
theorem moved_of_not_touches {payload : Columns} {row : Row}
    (h : t.touchesComposite payload ≠ true) : t.moved payload (t.seat row) = t.seat row := by
  funext name
  by_cases hname : name ∈ t.compositeColumns
  · have hnone : payload.get? name = none := by
      cases hvalue : payload.get? name with
      | none => rfl
      | some value =>
        refine absurd ?_ h
        rw [touchesComposite, List.any_eq_true]
        exact ⟨name, (Columns.mem_names_iff _).2 ⟨value, hvalue⟩, by simpa using hname⟩
    rw [moved, if_pos hname, hnone, Option.getD_none]
  · rw [moved, if_neg hname, seat, if_neg hname]

-- The schema sets the columns of a seat and of the identity apart from all others.

/-- The uuid is no composite column, so revising a seat never changes whose it is. -/
theorem identityKey_not_composite : t.identityKey ∉ t.compositeColumns := by
  cases t <;> decide

theorem composite_ne_updatedAt : ∀ name ∈ t.compositeColumns, name ≠ updatedAtKey := by
  cases t <;> decide

/-- Every composite column is a detail of the record, so a revision can supply it. -/
theorem exists_detail_of_composite :
    ∀ name ∈ t.compositeColumns, ∃ m ∈ t.details, m.key = name := by
  cases t <;> decide

theorem isNumber_of_composite : ∀ m ∈ t.details, m.key ∈ t.compositeColumns →
    m.target.kind = .int := by
  cases t <;> decide

theorem not_isTimestamp_composite : ∀ name ∈ t.compositeColumns, t.isTimestamp name = false := by
  cases t <;> decide

theorem composite_accounts (role : Role) : role.accounts.compositeColumns = [] := by
  cases role <;> rfl

/-- Only the profiles of students and teachers have seats. -/
theorem composite_cases (h : t.compositeColumns ≠ []) :
    t = .studentInforms ∨ t = .teacherInforms := by
  cases t with
  | studentInforms => exact .inl rfl
  | teacherInforms => exact .inr rfl
  | _ => exact absurd rfl h

end Table

namespace Database

/-- The seat of a uuid in a table. -/
def seat? (db : Database) (t : Table) (id : Value) : Option Seat :=
  ((db.rows t).find? fun row => row.get t.identityKey = id).map t.seat

/-- No two uuids hold the same seat, as far as it is full. -/
def SeatsApart (db : Database) : Prop :=
  ∀ t, t.compositeColumns ≠ [] → ∀ id id' seat,
    db.seat? t id = some seat → db.seat? t id' = some seat → t.Full seat → id = id'

/-- A record's seat is the seat of a row with its uuid. -/
theorem exists_of_seat? {db : Database} {t : Table} {id : Value} {seat : Seat}
    (h : db.seat? t id = some seat) :
    ∃ row ∈ db.rows t, row.get t.identityKey = id ∧ t.seat row = seat := by
  obtain ⟨row, hfind, hseat⟩ := Option.map_eq_some_iff.1 h
  exact ⟨row, List.mem_of_find?_eq_some hfind, by simpa using List.find?_some hfind, hseat⟩

/-- An update moves the seat of the rows it meets, and of no others. -/
theorem seat_revise {t : Table} {filter payload : Columns} {now : Timestamp} {row : Row} :
    t.seat (revise filter payload now row) =
      if row.meets filter = true then t.moved payload (t.seat row) else t.seat row := by
  funext name
  by_cases hname : name ∈ t.compositeColumns
  · rw [Table.seat_of_mem hname, get_revise (Table.composite_ne_updatedAt name hname)]
    split
    · rw [Table.moved, if_pos hname, Table.seat_of_mem hname]
    · rw [Table.seat_of_mem hname]
  · -- off the composite columns a seat is empty, before and after
    rw [Table.seat, if_neg hname]
    split
    · rw [Table.moved, if_neg hname]
    · rw [Table.seat, if_neg hname]

end Database

-- ---------------------------------------------------------------------------
-- Statements of the registrar
-- ---------------------------------------------------------------------------

namespace Statement

/-- The statements that operations on records issue: they insert the row of a record, revise the row
of a uuid, or delete an account. -/
def ByRecord : Statement → Prop
  | .insert t row => ∃ record : Record t, row = record.toColumns
  | .update t filter payload =>
    ∃ uuid, ∃ revision : Revision t, filter = t.identityFilter uuid ∧ payload = revision.payload
  | .delete t _ => t.compositeColumns = []

/-- What the statement makes of the seat of a uuid. -/
def move (t : Table) (id : Value) : Statement → Option Seat → Option Seat
  | .insert t' row, seat =>
    if t' = t ∧ row.get t.identityKey = id then some (t.seat row) else seat
  | .update t' filter payload, seat =>
    if t' = t ∧ filter.get? t.identityKey = some id then
      seat.map (t.moved payload)
    else seat
  | .delete _ _, seat => seat

/-- The statement sets a column of the seat of a uuid. -/
def Writes (t : Table) (id : Value) : Statement → Prop
  | .insert t' row => t' = t ∧ row.get t.identityKey = id
  | .update t' filter payload =>
    t' = t ∧ filter.get? t.identityKey = some id ∧ t.touchesComposite payload = true
  | .delete _ _ => False

end Statement

/-- An operation on records issues statements of the registrar only. -/
theorem Operation.byRecord_of_issued? {operation : Operation} {db : Database}
    {statement : Statement} (h : operation.issued? db = some statement) : statement.ByRecord := by
  cases operation with
  | create t record =>
    simp only [issued?, Option.ite_none_right_eq_some, Option.some.injEq] at h
    obtain ⟨-, rfl⟩ := h
    exact ⟨record, rfl⟩
  | modify t uuid revision =>
    simp only [issued?, Option.ite_none_right_eq_some, Option.some.injEq] at h
    obtain ⟨-, rfl⟩ := h
    exact ⟨uuid, revision, rfl, rfl⟩
  | delete role uuid =>
    simp only [issued?, Option.ite_none_right_eq_some, Option.some.injEq] at h
    obtain ⟨-, rfl⟩ := h
    exact Table.composite_accounts role
  | _ => cases h

namespace Database

variable {db next : Database} {t : Table} {id : Value} {now : Timestamp} {n : Nat}
  {statement : Statement}

/-- The seats in one table do not depend on the rows of another. -/
theorem seat?_set_of_ne {t' : Table} {rows : List Row} (h : t ≠ t') :
    (db.set t' rows).seat? t id = db.seat? t id := by
  rw [seat?, seat?, rows_set_of_ne _ _ h]

/-- An insert of a record seats that record, and leaves every other one where it was. -/
theorem seat?_insert {record : Record t}
    (h : db.insert t record.toColumns now = .ok (next, n)) :
    next.seat? t id = (Statement.insert t record.toColumns).move t id (db.seat? t id) := by
  have hothers := get_identityKey_ne_of_insert h
  obtain ⟨-, -, rfl, -⟩ := insert_eq_ok_iff.1 h
  -- completing a row fills in moments and nulls, which are no part of its seat
  have hseat : t.seat (complete t record.toColumns now) = t.seat record.toColumns := by
    refine Table.seat_eq_iff.2 fun name hname => ?_
    exact get_complete (t.known_compositeColumns name hname)
      (Table.not_isTimestamp_composite name hname)
  rw [seat?, rows_set_self, List.find?_append, List.find?_singleton, get_complete_identityKey,
    Statement.move]
  by_cases hid : record.toColumns.get t.identityKey = id
  · -- no earlier row has the new identity
    have hfresh : ((db.rows t).find? fun row => row.get t.identityKey = id) = none := by
      rw [List.find?_eq_none]
      intro row hrow
      simpa [hid] using hothers row hrow
    simp [hfresh, hid, hseat]
  · simp [hid, seat?]

/-- The update of a revision moves the record it is for, and leaves every other one where it was. -/
theorem seat?_update {uuid : String} {revision : Revision t}
    (h : db.update t (t.identityFilter uuid) revision.payload now = .ok (next, n)) :
    next.seat? t id =
      (Statement.update t (t.identityFilter uuid) revision.payload).move t id
        (db.seat? t id) := by
  obtain ⟨-, -, rows, hrows, rfl⟩ := update_eq_ok_iff.1 h
  obtain ⟨rfl, -⟩ := updateRows_eq_ok hrows
  have hidentity : ∀ row : Row,
      (revise (t.identityFilter uuid) revision.payload now row).get t.identityKey =
        row.get t.identityKey := by
    intro row
    rw [get_revise Table.identityKey_ne_updatedAt, revision.get?_payload_identityKey]
    simp
  -- a revision finds the row that was found before, and revises it
  have hfind : ((db.rows t).map (revise (t.identityFilter uuid) revision.payload now)).find?
      (fun row => row.get t.identityKey = id) =
        ((db.rows t).find? fun row => row.get t.identityKey = id).map
          (revise (t.identityFilter uuid) revision.payload now) := by
    rw [List.find?_map]
    congr 2
    funext row
    rw [Function.comp_apply, hidentity]
  rw [seat?, rows_set_self, List.nil_append, hfind, seat?, Statement.move,
    t.get?_identityFilter uuid]
  cases hrow : (db.rows t).find? fun row => row.get t.identityKey = id with
  | none => simp
  | some row =>
    have hid : row.get t.identityKey = id := by simpa using List.find?_some hrow
    rw [Option.map_some, Option.map_some, Option.map_some]
    rw [seat_revise]
    -- the row is the revised one or another, by its uuid
    by_cases huuid : t.identity.toValue uuid = id
    · rw [if_pos (Table.meets_identityFilter.2 (hid.trans huuid.symm)),
        if_pos ⟨rfl, congrArg some huuid⟩, Option.map_some]
    · rw [if_neg fun hmeets => huuid (hid ▸ (Table.meets_identityFilter.1 hmeets).symm),
        if_neg fun hmove => huuid (Option.some.inj hmove.2)]

/-- **A statement of the registrar moves each seat by itself.** -/
theorem seat?_execute (hstatement : statement.ByRecord)
    (h : db.execute now statement = .ok (next, n)) (hcomposite : t.compositeColumns ≠ []) :
    next.seat? t id = statement.move t id (db.seat? t id) := by
  cases statement with
  | insert t' row =>
    obtain ⟨record, rfl⟩ := hstatement
    by_cases ht : t' = t
    · subst ht
      exact seat?_insert h
    · obtain ⟨-, -, rfl, -⟩ := insert_eq_ok_iff.1 h
      rw [seat?_set_of_ne (Ne.symm ht), Statement.move, if_neg fun hmove => ht hmove.1]
  | update t' filter payload =>
    obtain ⟨uuid, revision, rfl, rfl⟩ := hstatement
    by_cases ht : t' = t
    · subst ht
      exact seat?_update h
    · obtain ⟨-, -, rows, -, rfl⟩ := update_eq_ok_iff.1 h
      rw [seat?_set_of_ne (Ne.symm ht), Statement.move, if_neg fun hmove => ht hmove.1]
  -- deletes are of accounts only, which have no seats
  | delete t' filter =>
    have ht : t ≠ t' := fun heq => hcomposite (heq ▸ hstatement)
    obtain ⟨-, -, rfl, -⟩ := delete_eq_ok_iff.1 h
    rw [seat?_set_of_ne ht, Statement.move]

/-- A statement that does not write to a record leaves its seat. For an update this is not for lack
of a move: what it sets is no composite column. -/
theorem seat?_execute_of_not_writes (hstatement : statement.ByRecord)
    (h : db.execute now statement = .ok (next, n)) (hcomposite : t.compositeColumns ≠ [])
    (hwrites : ¬statement.Writes t id) : next.seat? t id = db.seat? t id := by
  rw [seat?_execute hstatement h hcomposite]
  cases statement with
  | insert t' row => exact if_neg hwrites
  | update t' filter payload =>
    rw [Statement.move]
    split
    · next hmove =>
      -- no composite column is set, and the seat is moved to where it is
      have htouches : t.touchesComposite payload ≠ true :=
        fun htouches => hwrites ⟨hmove.1, hmove.2, htouches⟩
      cases hseat : db.seat? t id with
      | none => rfl
      | some seat =>
        obtain ⟨row, -, -, rfl⟩ := exists_of_seat? hseat
        rw [Option.map_some, Table.moved_of_not_touches htouches]
    · rfl
  | delete t' filter => rfl

end Database

-- ---------------------------------------------------------------------------
-- Journals of the registrar
-- ---------------------------------------------------------------------------

section Replay

variable {db db' next next' : Database} {t : Table} {id : Value} {journal : List JournalEntry}

/-- A journal moves equal seats to equal seats, whatever else the two databases hold. -/
theorem seat?_replay_congr (hjournal : ∀ e ∈ journal, e.statement.ByRecord)
    (hcomposite : t.compositeColumns ≠ []) (hseat : db.seat? t id = db'.seat? t id)
    (h : Transaction.replay db journal = .ok next)
    (h' : Transaction.replay db' journal = .ok next') : next.seat? t id = next'.seat? t id := by
  induction journal generalizing db db' with
  | nil =>
    cases h
    cases h'
    exact hseat
  | cons e rest ih =>
    obtain ⟨mid, n, hmid, hrest⟩ := Transaction.replay_cons_eq_ok_iff.1 h
    obtain ⟨mid', n', hmid', hrest'⟩ := Transaction.replay_cons_eq_ok_iff.1 h'
    have hstatement := hjournal e List.mem_cons_self
    refine ih (fun e he => hjournal e (List.mem_cons_of_mem _ he)) ?_ hrest hrest'
    rw [Database.seat?_execute hstatement hmid hcomposite,
      Database.seat?_execute hstatement hmid' hcomposite, hseat]

/-- A journal that does not write to a record leaves its seat, by induction on the replay. -/
theorem seat?_replay_of_not_writes (hjournal : ∀ e ∈ journal, e.statement.ByRecord)
    (hcomposite : t.compositeColumns ≠ []) (hwrites : ∀ e ∈ journal, ¬e.statement.Writes t id)
    (h : Transaction.replay db journal = .ok next) : next.seat? t id = db.seat? t id := by
  refine Transaction.replay_induction (motive := fun d => d.seat? t id = db.seat? t id) h rfl ?_
  intro e he _ mid n hsame hmid
  rw [Database.seat?_execute_of_not_writes (hjournal e he) hmid hcomposite (hwrites e he), hsame]

end Replay

end Rollbook
