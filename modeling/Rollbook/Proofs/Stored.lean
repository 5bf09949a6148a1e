import Rollbook.Proofs.Codec
import Rollbook.Proofs.Course

/-!
# Rollbook — what is stored are valid records

A row is sound when it has exactly the columns of its table, valid contents in all of them and both
moments. Soundness is a matter of single columns, and so it does not matter on which row a revision
ends up: a commit may lay checked changes over a row that its transaction has never seen.

* `keeps_sound` — checked statements keep all rows sound.
* `Table.Sound.exists_record` — a sound row is what a valid record is stored as.
* `Record.ofColumns_complete` — a valid record that has been inserted is read again.
* `stored_run` — where all writing goes through operations on records, so is every row of every
  state.
-/

namespace Rollbook

variable {t : Table} {now : Timestamp}

-- ---------------------------------------------------------------------------
-- Sound rows
-- ---------------------------------------------------------------------------

/-- The row has exactly the columns of the table, valid contents and both moments. -/
structure Table.Sound (t : Table) (row : Row) : Prop extends t.Valid row where
  columns : ∀ name, name ∈ row.names ↔ ∃ c ∈ t.columns, c.name = name
  created : ∃ moment, row.get createdAtKey = .timestamp moment
  updated : ∃ moment, row.get updatedAtKey = .timestamp moment

namespace Table

theorem isTimestamp_createdAt : t.isTimestamp createdAtKey = true := by
  cases t <;> decide

theorem isTimestamp_updatedAt : t.isTimestamp updatedAtKey = true := by
  cases t <;> decide

theorem known_detail {m : Member} (hm : m ∈ t.details) : (t.column? m.key).isSome = true :=
  column?_isSome_iff.2 (exists_column_iff.2 (.inr (.inl ⟨m, hm, rfl⟩)))

/-- A valid record is inserted as a sound row. -/
theorem sound_complete {record : Record t} (h : record.check = .ok ()) (now : Timestamp) :
    t.Sound (Database.complete t record.toColumns now) where
  toValid := by
    refine (valid_toColumns h).congr (Database.get_complete_identityKey _ now) fun m hm => ?_
    exact Database.get_complete (known_detail hm) (not_isTimestamp_detail m hm)
  columns _ := Database.mem_names_complete
  created := ⟨now, Database.get_complete_moment isTimestamp_createdAt
    (Record.get?_toColumns_eq_none identityKey_ne_createdAt.symm detail_ne_createdAt)⟩
  updated := ⟨now, Database.get_complete_moment isTimestamp_updatedAt
    (Record.get?_toColumns_eq_none identityKey_ne_updatedAt.symm detail_ne_updatedAt)⟩

/-- A valid revision of a sound row is sound. -/
theorem Sound.revised {row revised : Row} {filter : Columns} {revision : Revision t}
    (h : t.Sound row) (hcheck : revision.check = .ok ())
    (hrev : Database.revised? filter revision.payload now row = some revised) :
    t.Sound revised where
  toValid := by
    obtain ⟨-, -, rfl⟩ := Database.revised?_eq_some_iff.1 hrev
    refine (h.toValid.overlay hcheck).congr ?_ fun m hm => ?_
    · rw [Columns.get, Columns.get?_insert_of_ne _ _ identityKey_ne_updatedAt]
      rfl
    · rw [Columns.get, Columns.get?_insert_of_ne _ _ (detail_ne_updatedAt m hm)]
      rfl
  -- the moment of the change is a column that the row had
  columns _ := Database.mem_names_revised h.columns revision.known_payload hrev
  created := by
    obtain ⟨-, -, rfl⟩ := Database.revised?_eq_some_iff.1 hrev
    obtain ⟨moment, hmoment⟩ := h.created
    refine ⟨moment, ?_⟩
    rw [Columns.get, Columns.get?_insert_of_ne _ _ (by decide), ← Columns.get,
      Columns.get_overlay, revision.get?_payload_eq_none detail_ne_createdAt]
    exact hmoment
  updated := by
    obtain ⟨-, -, rfl⟩ := Database.revised?_eq_some_iff.1 hrev
    refine ⟨now, ?_⟩
    rw [Columns.get, Columns.get?_insert_self]
    rfl

/-- A sound row holds a value wherever one must be. -/
theorem Sound.nullColumn?_eq_none {row : Row} (h : t.Sound row) :
    Database.nullColumn? t row = none := by
  refine Database.nullColumn?_eq_none_iff.2 fun c hc hrequired => ?_
  rcases exists_column_iff.1 ⟨c, hc, rfl⟩ with hname | ⟨m, hm, hname⟩ | hname | hname
  · obtain ⟨uuid, huuid, hvalue⟩ := h.identity
    rw [hname, hvalue]
    exact Attribute.toValue_ne_null (Attribute.isZero_of_check huuid)
  · rw [← hname]
    exact (h.details m hm).ne_null (optional_of_nullable m hm c hc hname.symm hrequired)
  · obtain ⟨moment, hmoment⟩ := h.created
    rw [hname, hmoment]
    simp
  · obtain ⟨moment, hmoment⟩ := h.updated
    rw [hname, hmoment]
    simp

end Table

-- ---------------------------------------------------------------------------
-- Checked statements
-- ---------------------------------------------------------------------------

/-- The statement carries what an operation on records has checked: a valid record, a valid
revision of the record of a uuid, or just a uuid. -/
def Statement.Checked : Statement → Prop
  | .insert t row => ∃ record : Record t, record.check = .ok () ∧ row = record.toColumns
  | .update t filter payload => ∃ uuid, ∃ revision : Revision t,
      revision.check = .ok () ∧ filter = t.identityFilter uuid ∧ payload = revision.payload
  | .delete t filter => ∃ uuid, filter = t.identityFilter uuid

/-- What an operation on records issues is checked: the insert of a record, the update of a revision
or the delete by a uuid, each with valid fields. -/
theorem Operation.checked_of_issued? {operation : Operation} {db : Database}
    {statement : Statement} (h : operation.issued? db = some statement) : statement.Checked := by
  cases operation with
  | create t record =>
    simp only [issued?, Option.ite_none_right_eq_some, Option.some.injEq] at h
    obtain ⟨⟨hcheck, -⟩, rfl⟩ := h
    exact ⟨record, hcheck, rfl⟩
  | modify t uuid revision =>
    simp only [issued?, Option.ite_none_right_eq_some, Option.some.injEq] at h
    obtain ⟨⟨-, -, hcheck, -⟩, rfl⟩ := h
    exact ⟨uuid, revision, hcheck, rfl, rfl⟩
  | delete role uuid =>
    simp only [issued?, Option.ite_none_right_eq_some, Option.some.injEq] at h
    obtain ⟨-, rfl⟩ := h
    exact ⟨uuid, rfl⟩
  | _ => cases h

namespace Database

/-- All rows are sound. -/
def Sound (db : Database) : Prop := ∀ t, ∀ row ∈ db.rows t, t.Sound row

theorem sound_empty : Sound empty := fun _ _ hrow => by cases hrow

/-- **Checked statements keep all rows sound.** -/
theorem keeps_sound : Keeps Sound Statement.Checked := by
  refine keeps_rows ?_ ?_
  · rintro t row now ⟨record, hcheck, rfl⟩
    exact Table.sound_complete hcheck now
  · rintro t filter payload now row revised ⟨uuid, revision, hcheck, rfl, rfl⟩ hsound hrev
    exact hsound.revised hcheck hrev

end Database

-- ---------------------------------------------------------------------------
-- Rows and their records
-- ---------------------------------------------------------------------------

/-- The row is what the record is stored as: the record is what the row is read as, it is valid and
holds no zero, and its columns with its two moments make up the row. -/
structure Record.StoredAs (record : Record t) (row : Row) : Prop where
  decodes : Record.ofColumns t row = .ok record
  valid   : record.check = .ok ()
  nonZero : ∀ p ∈ record.details.toList, p.1.NonZero p.2
  moments : ∃ created updated,
    record.createdAt = some created ∧ record.updatedAt = some updated ∧
      row = (record.toColumns.insert createdAtKey (.timestamp created)).insert updatedAtKey
        (.timestamp updated)

/-- A sound row is the stored form of a record: it decodes, its fields are valid, and apart from the
moments it is the columns of what it decodes to. -/
theorem Table.Sound.exists_record {row : Row} (h : t.Sound row) :
    ∃ record : Record t, record.StoredAs row := by
  obtain ⟨record, hread, hcheck, hidentity, hdetails⟩ := h.toValid.exists_record
  obtain ⟨created, hcreated⟩ := h.created
  obtain ⟨updated, hupdated⟩ := h.updated
  obtain ⟨-, -, hcreatedAt, hupdatedAt⟩ := Record.ofColumns_eq_ok_iff.1 hread
  obtain ⟨-, hvalid⟩ := Record.check_eq_ok_iff.1 hcheck
  refine ⟨record, hread, hcheck, fun p hp => ?_, created, updated, ?_, ?_, ?_⟩
  · exact Member.nonZero_of_check (Details.check_eq_ok_iff.1 hvalid p hp)
  · rw [← hcreatedAt, hcreated]
    rfl
  · rw [← hupdatedAt, hupdated]
    rfl
  · -- the row and the columns of the record agree column by column
    ext name : 1
    have hrow : ∀ {key}, (∃ c ∈ t.columns, c.name = key) → row.get? key = some (row.get key) :=
      fun hcolumn => Columns.get?_of_mem_names ((h.columns _).2 hcolumn)
    rw [Columns.get?_insert, Columns.get?_insert]
    by_cases hcolumn : ∃ c ∈ t.columns, c.name = name
    · rw [hrow hcolumn]
      rcases Table.exists_column_iff.1 hcolumn with rfl | ⟨m, hm, rfl⟩ | rfl | rfl
      · rw [if_neg Table.identityKey_ne_updatedAt, if_neg Table.identityKey_ne_createdAt, hidentity]
      · rw [if_neg (Table.detail_ne_updatedAt m hm), if_neg (Table.detail_ne_createdAt m hm),
          hdetails m hm]
      · rw [if_neg (by decide), if_pos rfl, hcreated]
      · rw [if_pos rfl, hupdated]
    · have hother := fun hname => hcolumn (Table.exists_column_iff.2 hname)
      rw [Columns.get?_of_not_mem_names fun hname => hcolumn ((h.columns name).1 hname),
        if_neg fun hname => hother (.inr (.inr (.inr hname))),
        if_neg fun hname => hother (.inr (.inr (.inl hname))),
        Record.get?_toColumns_eq_none (fun hname => hother (.inl hname))
          fun m hm hname => hother (.inr (.inl ⟨m, hm, hname⟩))]

/-- The record as it is stored at a moment. -/
def Record.stored (record : Record t) (now : Timestamp) : Record t :=
  { record with createdAt := some now, updatedAt := some now }

/-- What a valid record is stored as is read as the record. -/
theorem Record.ofColumns_complete {record : Record t} (hcheck : record.check = .ok ())
    (now : Timestamp) :
    Record.ofColumns t (Database.complete t record.toColumns now) = .ok (record.stored now) := by
  obtain ⟨-, hdetails⟩ := Record.check_eq_ok_iff.1 hcheck
  refine Record.ofColumns_eq_ok_iff.2 ⟨?_, ?_, ?_, ?_⟩
  · rw [Database.get_complete_identityKey, record.get_toColumns_identityKey]
    exact t.identity.ofValue_toValue record.uuid
  · -- each detail is read from the column that it was stored in
    refine Details.build_eq_ok_iff.2 fun p hp => ?_
    have hmember : p.1 ∈ t.details := Details.fst_mem_of_mem_toList hp
    have hown : p ∈ record.details.toList := hp
    rw [Database.get_complete (Table.known_detail hmember)
      (Table.not_isTimestamp_detail _ hmember), Record.get_toColumns_of_mem hown]
    exact Member.ofValue_toValue (Member.nonZero_of_check (Details.check_eq_ok_iff.1 hdetails p hp))
  · rw [Database.get_complete_moment Table.isTimestamp_createdAt
      (Record.get?_toColumns_eq_none Table.identityKey_ne_createdAt.symm Table.detail_ne_createdAt)]
    rfl
  · rw [Database.get_complete_moment Table.isTimestamp_updatedAt
      (Record.get?_toColumns_eq_none Table.identityKey_ne_updatedAt.symm Table.detail_ne_updatedAt)]
    rfl

/-- The row of a record that has been inserted is the only one of its uuid. -/
theorem Database.select_of_inserted {db next : Database} {record : Record t} {n : Nat}
    (h : db.insert t record.toColumns now = .ok (next, n)) :
    next.select t (t.identityFilter record.uuid) = [complete t record.toColumns now] := by
  have hothers : ∀ row ∈ db.rows t, ¬row.meets (t.identityFilter record.uuid) = true := by
    intro row hrow
    rw [Table.meets_identityFilter, ← record.get_toColumns_identityKey]
    exact get_identityKey_ne_of_insert h row hrow
  have hown : (complete t record.toColumns now).meets (t.identityFilter record.uuid) = true := by
    rw [Table.meets_identityFilter, get_complete_identityKey, record.get_toColumns_identityKey]
  obtain ⟨-, -, rfl, -⟩ := insert_eq_ok_iff.1 h
  rw [select, rows_set_self, List.filter_append, List.filter_eq_nil_iff.2 hothers, List.nil_append,
    List.filter_singleton, hown, cond_true]

-- ---------------------------------------------------------------------------
-- Whole runs
-- ---------------------------------------------------------------------------

namespace Session

/-- All writing of the steps goes through operations on records: an operation on bare rows runs no
statement. -/
def RecordWrites (steps : List (Timestamp × Step)) : Prop :=
  ∀ p ∈ steps, ∀ name operation, p.2 = .operateRaw name operation → operation.issued? = none

variable {steps : List (Timestamp × Step)}

/-- Where all writing goes through operations on records, what is issued is issued by one. -/
theorem exists_operation_of_issued? {s : Session} {now : Timestamp} {step : Step} {tx : String}
    {opened : OpenTransaction} {statement : Statement} (hfind : s.find? tx = some opened)
    (hwrites : RecordWrites [(now, step)]) (h : s.issued? tx step = some statement) :
    ∃ operation : Operation, operation.issued? opened.transaction.snapshot = some statement := by
  rw [issued?, hfind, Option.bind_some] at h
  cases step with
  | operate name operation =>
    rw [Option.ite_none_right_eq_some] at h
    exact ⟨operation, h.2⟩
  | operateRaw name operation =>
    rw [Option.ite_none_right_eq_some,
      hwrites _ (List.mem_singleton_self _) name operation rfl] at h
    cases h.2
  | _ => cases h

theorem recordWrites_append {xs ys : List (Timestamp × Step)} :
    RecordWrites (xs ++ ys) ↔ RecordWrites xs ∧ RecordWrites ys := by
  simp only [RecordWrites, List.mem_append, or_imp, forall_and]

theorem RecordWrites.of_mem {p : Timestamp × Step} (h : RecordWrites steps) (hp : p ∈ steps) :
    RecordWrites [(p.1, p.2)] := by
  intro q hq
  rw [List.mem_singleton.1 hq]
  exact h p hp

/-- As long as only records are written, the committed database and all copies stay sound. What
carries this is that a checked statement keeps a database sound wherever it is run. -/
theorem throughout_sound (hwrites : RecordWrites steps) :
    (new.run steps).Throughout Database.Sound Statement.Checked := by
  refine throughout_run Database.keeps_sound Database.sound_empty ?_
  intro s p hp tx statement hissued
  obtain ⟨opened, hfind, -⟩ := Option.bind_eq_some_iff.1 hissued
  obtain ⟨operation, hoperation⟩ := exists_operation_of_issued? hfind (hwrites.of_mem hp) hissued
  exact Operation.checked_of_issued? hoperation

/-- **What is stored are valid records.** Where all writing goes through operations on records, each
row of the committed state and of every copy is what some valid record is stored as. -/
theorem stored_run (hwrites : RecordWrites steps) :
    (∀ t, ∀ row ∈ (new.run steps).committed.rows t, ∃ record : Record t, record.StoredAs row) ∧
      ∀ tx opened, (new.run steps).find? tx = some opened →
        ∀ t, ∀ row ∈ opened.transaction.snapshot.rows t, ∃ record : Record t,
          record.StoredAs row := by
  have hsound := throughout_sound hwrites
  constructor
  · exact fun t row hrow => (hsound.committed t row hrow).exists_record
  · intro tx opened hfind t row hrow
    exact (hsound.snapshot tx opened hfind t row hrow).exists_record

/-- A teacher with a homeroom is committed. Then two transactions are opened; one clears the grade,
the other changes the name and meets the cleared row only at its commit. A last one stays open. -/
def homeroomCleared : List (Timestamp × Step) :=
  let teacher := "teacher-000000000001"
  let homeroom : Record .teacherInforms :=
    ⟨teacher, (some (2 : UInt8), some (1 : UInt8), "Kim", "01000000001", ()), none, none⟩
  [(.ofSeconds 1, .begin .records "a"),
    (.ofSeconds 2, .operate "a"
      (.create .teacherAuths ⟨teacher, ("kim1", "hash", ()), none, none⟩)),
    (.ofSeconds 3, .operate "a" (.create .teacherInforms homeroom)),
    (.ofSeconds 4, .commit "a"),
    (.ofSeconds 5, .begin .records "b"),
    (.ofSeconds 6, .begin .records "c"),
    (.ofSeconds 7, .operate "b" (.modify .teacherInforms teacher
      ⟨none, (some (0 : UInt8), none, none, none, ())⟩)),
    (.ofSeconds 8, .operate "c" (.modify .teacherInforms teacher
      ⟨none, (none, none, some "Park", none, ())⟩)),
    (.ofSeconds 9, .commit "b"),
    (.ofSeconds 10, .commit "c"),
    (.ofSeconds 11, .begin .rows "d"),
    (.ofSeconds 12, .operateRaw "d" (.select .teacherInforms ∅))]

/-- A run that clears the grade of a teacher, and a transaction that is still open at its end. -/
theorem stored_run_homeroomCleared :
    (∃ row, (new.run homeroomCleared).committed.rows .teacherInforms = [row] ∧
      row.get "grade" = .null ∧ row.get "name" = .text "Park" ∧
      ∃ record : Record .teacherInforms, record.StoredAs row) ∧
    ∃ opened row, (new.run homeroomCleared).find? "d" = some opened ∧
      opened.transaction.snapshot.rows .teacherAuths = [row] ∧
      ∃ record : Record .teacherAuths, record.StoredAs row := by
  have hwrites : RecordWrites homeroomCleared := by
    intro p hp name operation hstep
    simp only [homeroomCleared, List.mem_cons, List.not_mem_nil, or_false] at hp
    rcases hp with rfl | rfl | rfl | rfl | rfl | rfl | rfl | rfl | rfl | rfl | rfl | rfl <;>
      cases hstep
    rfl
  obtain ⟨hcommitted, hsnapshot⟩ := stored_run hwrites
  have hrow : ((new.run homeroomCleared).committed.rows .teacherInforms).map
      (fun row => (row.get "grade", row.get "name")) = [(.null, .text "Park")] := by rfl
  -- the last transaction began on the state that the others had committed
  have hopen : ((new.run homeroomCleared).find? "d").map
      (fun opened => (opened.transaction.snapshot.rows .teacherAuths).length) = some 1 := by rfl
  obtain ⟨row, hrows, hvalues⟩ := List.map_eq_singleton_iff.1 hrow
  obtain ⟨hgrade, hname⟩ := Prod.mk.inj hvalues
  obtain ⟨opened, hfind, hlength⟩ := Option.map_eq_some_iff.1 hopen
  obtain ⟨account, haccount⟩ := List.length_eq_one_iff.1 hlength
  refine ⟨⟨row, hrows, hgrade, hname, ?_⟩, opened, account, hfind, haccount, ?_⟩
  · exact hcommitted _ row (by rw [hrows]; exact List.mem_singleton_self row)
  · exact hsnapshot "d" opened hfind _ account (by rw [haccount]; exact List.mem_singleton_self _)

end Session

end Rollbook
