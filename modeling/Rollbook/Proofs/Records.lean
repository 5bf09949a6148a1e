import Mathlib.Data.List.Forall2
import Rollbook.Proofs.Outcome
import Rollbook.Proofs.Revised

/-!
# Rollbook — the records behind the rows

The store compares columns, and whoever asks the register means records: the account of a login id,
the profile of a uuid, the account that a profile belongs to. Where the rows are sound, a table and
the records it is read as are the same list seen twice, and each of these questions has the same
answer on both.

* `Database.Sound.forall₂_records` — the rows of a table and their records, one by one.
* `Record.StoredAs.get_identityKey`, `get_loginId`, `get_reference` — where a row holds what a
  record is found by, and what it refers to.
* `Database.Sound.forall₂_select` — a filter on rows as a choice of records.
* `Database.records_uuid_nodup` — a uuid belongs to one record.
-/

namespace Rollbook

/-- The records that the rows of a table are read as, in table order. -/
def Database.records (db : Database) (t : Table) : List (Record t) :=
  (db.rows t).filterMap fun row => (Record.ofColumns t row).toOption

namespace Record

/-- The login id, if the record is an account. -/
def loginId? : {t : Table} → Record t → Option String
  | .parentAuths, ⟨_, (id, _), _, _⟩ => some id
  | .adminAuths, ⟨_, (id, _), _, _⟩ => some id
  | .teacherAuths, ⟨_, (id, _), _, _⟩ => some id
  | .studentAuths, ⟨_, (id, _), _, _⟩ => some id
  | _, _ => none

/-- The account that the record refers to, by role and uuid: the parent that a student is linked to,
or the account that a profile belongs to. -/
def referent? : {t : Table} → Record t → Option (Role × String)
  | .studentAuths, ⟨_, (_, _, parent, _), _, _⟩ => parent.map fun uuid => (.parent, uuid)
  | .parentInforms, ⟨uuid, _, _, _⟩ => some (.parent, uuid)
  | .teacherInforms, ⟨uuid, _, _, _⟩ => some (.teacher, uuid)
  | .studentInforms, ⟨uuid, _, _, _⟩ => some (.student, uuid)
  | _, _ => none

end Record

/-- Lists whose entries belong together one by one have the same image if the entries do. -/
theorem map_eq_map_of_forall₂ {α β κ : Type} {R : α → β → Prop} {f : α → κ} {g : β → κ}
    {xs : List α} {ys : List β} (h : List.Forall₂ R xs ys) (hsame : ∀ a b, R a b → f a = g b) :
    xs.map f = ys.map g := by
  rw [← List.forall₂_eq_eq_eq, List.forall₂_map_left_iff, List.forall₂_map_right_iff]
  exact h.imp hsame

/-- A property that one place of a list has parts the list into this place and the rest. -/
theorem filter_append_cons {α : Type} {p : α → Bool} {front back : List α} {a : α}
    (ha : p a = true) (hothers : ∀ b ∈ front ++ back, ¬p b = true) :
    (front ++ a :: back).filter p = [a] ∧
      (front ++ a :: back).filter (fun b => !p b) = front ++ back := by
  have hnone : (front ++ back).filter p = [] := List.filter_eq_nil_iff.2 hothers
  have hall : (front ++ back).filter (fun b => !p b) = front ++ back :=
    List.filter_eq_self.2 fun b hb => by simpa using hothers b hb
  rw [List.filter_append, List.append_eq_nil_iff] at hnone
  rw [List.filter_append] at hall
  constructor
  · rw [List.filter_append, List.filter_cons_of_pos ha, hnone.1, hnone.2, List.nil_append]
  · rw [List.filter_append, List.filter_cons_of_neg (by simpa using ha), hall]

/-- A row meets a filter with one more column when it holds the value there as well. -/
theorem Columns.meets_insert {row : Row} {filter : Columns} {name : String} {value : Value}
    (h : filter.get? name = none) :
    row.meets (filter.insert name value) = true ↔
      row.get name = value ∧ row.meets filter = true := by
  simp only [meets_iff, get?_insert]
  constructor
  · intro hmeets
    refine ⟨hmeets name value (if_pos rfl), fun key found hfound => hmeets key found ?_⟩
    rw [if_neg, hfound]
    -- the added column is not one that the filter has already
    rintro rfl
    rw [h] at hfound
    cases hfound
  · rintro ⟨hvalue, hmeets⟩ key found hfound
    split at hfound
    · next hkey =>
      cases hfound
      rw [hkey, hvalue]
    · exact hmeets key found hfound

theorem Columns.meets_insert_empty {row : Row} {name : String} {value : Value} :
    row.meets ((∅ : Columns).insert name value) = true ↔ row.get name = value :=
  (meets_insert rfl).trans (and_iff_left rfl)

-- ---------------------------------------------------------------------------
-- Columns of a stored record
-- ---------------------------------------------------------------------------

variable {t : Table} {db : Database} {row : Row} {record : Record t}

/-- A valid uuid is stored as it is. -/
theorem Table.toValue_identity {uuid : String} (h : t.identity.check uuid = .ok ()) :
    t.identity.toValue uuid = .text uuid := by
  have hne : uuid ≠ "" := of_decide_eq_false (Attribute.isZero_of_check h)
  show (Attribute.text (.uuid t.role)).toValue uuid = _
  cases t.role with
  | parent => exact if_neg hne
  | _ => rfl

namespace Record.StoredAs

/-- A stored record has a valid uuid. -/
theorem check_uuid (h : record.StoredAs row) : t.identity.check record.uuid = .ok () :=
  (check_eq_ok_iff.1 h.valid).1

theorem get_identityKey (h : record.StoredAs row) : row.get t.identityKey = .text record.uuid := by
  obtain ⟨created, updated, -, -, hrow⟩ := h.moments
  rw [hrow, Columns.get, Columns.get?_insert_of_ne _ _ Table.identityKey_ne_updatedAt,
    Columns.get?_insert_of_ne _ _ Table.identityKey_ne_createdAt, get?_toColumns_identityKey,
    Option.getD_some, Table.toValue_identity h.check_uuid]

/-- An account is found under its login identifier, which every account has. -/
theorem get_loginId {role : Role} {account : Record role.accounts} (h : account.StoredAs row) :
    ∃ id, account.loginId? = some id ∧
      row.get (Attribute.text (.loginId role)).key = .text id := by
  cases role <;>
  · obtain ⟨uuid, ⟨id, rest⟩, created, updated⟩ := account
    exact ⟨id, rfl, h.get (.head _)⟩

/-- The column of a foreign key holds what the record refers to, or nothing. -/
theorem get_reference (h : record.StoredAs row) {fk : ForeignKey} (hfk : fk ∈ t.foreignKeys) :
    row.get fk.column = (record.referent?.map fun p => Value.text p.2).getD .null := by
  have hidentity := h.get_identityKey
  cases t with
  | studentAuths =>
    -- the table has one foreign key, the link to a parent
    obtain rfl := List.mem_singleton.1 hfk
    obtain ⟨uuid, ⟨id, password, parent, rest⟩, created, updated⟩ := record
    have hparent := h.get (p := ⟨_, parent⟩) (.tail _ (.tail _ (.head _)))
    -- an empty link would be null, but no valid record holds one
    have hvalid := h.nonZero ⟨_, parent⟩ (.tail _ (.tail _ (.head _)))
    refine hparent.trans ?_
    cases parent with
    | none => rfl
    | some other =>
      have hzero : (Attribute.text (.uuid .parent)).isZero other = false := hvalid other rfl
      refine if_neg fun hempty => ?_
      rw [hempty] at hzero
      cases hzero
  | parentInforms =>
    obtain rfl := List.mem_singleton.1 hfk
    exact hidentity
  | teacherInforms =>
    obtain rfl := List.mem_singleton.1 hfk
    exact hidentity
  | studentInforms =>
    obtain rfl := List.mem_singleton.1 hfk
    exact hidentity
  | _ => cases hfk

end Record.StoredAs

/-- What a sound row is read as is stored as the row. -/
theorem Table.Sound.storedAs (h : t.Sound row) (hread : Record.ofColumns t row = .ok record) :
    record.StoredAs row := by
  obtain ⟨stored, hstored⟩ := h.exists_record
  obtain rfl : stored = record := Except.ok.inj (hstored.decodes.symm.trans hread)
  exact hstored

/-- A record refers to an account by the one foreign key of its table. -/
theorem Record.exists_foreignKey_of_referent? {role : Role} {uuid : String}
    (h : record.referent? = some (role, uuid)) :
    ∃ fk, t.foreignKeys = [fk] ∧ fk.refTable = role.accounts := by
  obtain ⟨own, details, created, updated⟩ := record
  cases t with
  | studentAuths =>
    obtain ⟨id, password, parent, rest⟩ := details
    obtain ⟨other, -, hother⟩ := Option.map_eq_some_iff.1 h
    cases hother
    exact ⟨_, rfl, rfl⟩
  | parentInforms =>
    cases h
    exact ⟨_, rfl, rfl⟩
  | teacherInforms =>
    cases h
    exact ⟨_, rfl, rfl⟩
  | studentInforms =>
    cases h
    exact ⟨_, rfl, rfl⟩
  | _ => cases h

/-- The foreign key of a record's table refers to the accounts of the role that the record refers
to. -/
theorem Record.refTable_of_referent? {role : Role} {uuid : String}
    (h : record.referent? = some (role, uuid)) {fk : ForeignKey} (hfk : fk ∈ t.foreignKeys) :
    fk.refTable = role.accounts := by
  obtain ⟨own, hall, htable⟩ := exists_foreignKey_of_referent? h
  rw [hall, List.mem_singleton] at hfk
  rw [hfk, htable]

/-- A foreign key refers to the identity of the other table. -/
theorem Table.refColumn_eq : ∀ fk ∈ t.foreignKeys, fk.refColumn = fk.refTable.identityKey := by
  cases t <;> decide

theorem Role.accounts_inj {role role' : Role} : role.accounts = role'.accounts ↔ role = role' := by
  cases role <;> cases role' <;> decide

/-- **The column of a foreign key tells what the record refers to.** -/
theorem Record.StoredAs.get_reference_eq_iff (h : record.StoredAs row) {fk : ForeignKey}
    (hfk : fk ∈ t.foreignKeys) {role : Role} (href : fk.refTable = role.accounts) {uuid : String} :
    row.get fk.column = .text uuid ↔ record.referent? = some (role, uuid) := by
  rw [h.get_reference hfk]
  cases hreferent : record.referent? with
  | none => simp
  | some p =>
    obtain ⟨role', other⟩ := p
    rw [refTable_of_referent? hreferent hfk, Role.accounts_inj] at href
    simp [href]

-- ---------------------------------------------------------------------------
-- Rows and records
-- ---------------------------------------------------------------------------

namespace Database

/-- The records of a table are what its rows decode to. -/
theorem mem_records_iff :
    record ∈ db.records t ↔ ∃ row ∈ db.rows t, Record.ofColumns t row = .ok record := by
  rw [records, List.mem_filterMap]
  refine exists_congr fun row => and_congr_right' ?_
  cases Record.ofColumns t row <;> simp [Except.toOption]

namespace Sound

/-- **Rows and records are the same list seen twice.** -/
theorem forall₂_records (h : db.Sound) (t : Table) :
    List.Forall₂ (fun row record => Record.StoredAs record row) (db.rows t) (db.records t) := by
  have hrows : ∀ row ∈ db.rows t, t.Sound row := h t
  rw [records]
  generalize db.rows t = rows at hrows ⊢
  induction rows with
  | nil => exact .nil
  | cons row rest ih =>
    obtain ⟨hrow, hrest⟩ := List.forall_mem_cons.1 hrows
    -- a sound row decodes, so the reading drops none
    obtain ⟨record, hstored⟩ := hrow.exists_record
    rw [List.filterMap_cons, hstored.decodes]
    exact .cons hstored (ih hrest)

/-- What is stored as some row is a record of the table. -/
theorem exists_row (h : db.Sound) (hrecord : record ∈ db.records t) :
    ∃ row ∈ db.rows t, record.StoredAs row := by
  obtain ⟨row, hrow, hread⟩ := mem_records_iff.1 hrecord
  exact ⟨row, hrow, (h t row hrow).storedAs hread⟩

/-- In a sound database every row is that of a record. -/
theorem exists_record (h : db.Sound) (hrow : row ∈ db.rows t) :
    ∃ record ∈ db.records t, record.StoredAs row := by
  obtain ⟨record, hstored⟩ := (h t row hrow).exists_record
  exact ⟨record, mem_records_iff.2 ⟨row, hrow, hstored.decodes⟩, hstored⟩

/-- A question about rows is one about records, where it is so for each record and its row. -/
theorem exists_row_iff (h : db.Sound) {P : Row → Prop} {Q : Record t → Prop}
    (hsame : ∀ row record, record.StoredAs row → (P row ↔ Q record)) :
    (∃ row ∈ db.rows t, P row) ↔ ∃ record ∈ db.records t, Q record := by
  constructor
  · rintro ⟨row, hrow, hp⟩
    obtain ⟨record, hrecord, hstored⟩ := h.exists_record hrow
    exact ⟨record, hrecord, (hsame row record hstored).1 hp⟩
  · rintro ⟨record, hrecord, hq⟩
    obtain ⟨row, hrow, hstored⟩ := h.exists_row hrecord
    exact ⟨row, hrow, (hsame row record hstored).2 hq⟩

/-- **A filter on rows chooses records.** -/
theorem forall₂_select (h : db.Sound) {filter : Columns} {p : Record t → Bool}
    (hsame : ∀ row record, record.StoredAs row → (row.meets filter = true ↔ p record = true)) :
    List.Forall₂ (fun row record => Record.StoredAs record row) (db.select t filter)
      ((db.records t).filter p) :=
  List.rel_filter hsame (h.forall₂_records t)

end Sound

/-- **A value in a key column is at one place of its table**, and the filter of the value takes this
row and no other. -/
theorem Consistent.exists_place (h : db.Consistent) {c : Column} (hc : c ∈ t.columns)
    (hkey : t.isKey c = true) (hrow : row ∈ db.rows t) :
    ∃ front back, db.rows t = front ++ row :: back ∧
      (∀ other ∈ front ++ back, other.get c.name ≠ row.get c.name) ∧
      db.select t ((∅ : Columns).insert c.name (row.get c.name)) = [row] ∧
      (db.rows t).filter (fun other => !other.meets ((∅ : Columns).insert c.name (row.get c.name))) =
        front ++ back := by
  obtain ⟨front, back, hrows⟩ := List.append_of_mem hrow
  -- the value is a key, so no row in front or behind has it
  have hkeys : DistinctKeys t (front ++ row :: back) := hrows ▸ h.keys t
  have hothers : ∀ other ∈ front ++ back, other.get c.name ≠ row.get c.name :=
    fun other hother => hkeys.get_ne hc hkey hother
  have hparts := filter_append_cons (a := row)
    (p := fun other : Row => other.meets ((∅ : Columns).insert c.name (row.get c.name)))
    (Columns.meets_insert_empty.2 rfl) fun other (hother : other ∈ front ++ back) hmeets =>
      hothers other hother (Columns.meets_insert_empty.1 hmeets)
  rw [← hrows] at hparts
  exact ⟨front, back, hrows, hothers, hparts⟩

/-- **A uuid belongs to one record.** -/
theorem records_uuid_nodup (hsound : db.Sound) (hconsistent : db.Consistent) (t : Table) :
    ((db.records t).map Record.uuid).Nodup := by
  -- the column of the identity is the list of the uuids, as texts
  have hsame : (db.rows t).map (fun row => row.get t.identityKey) =
      ((db.records t).map Record.uuid).map Value.text := by
    rw [List.map_map]
    exact map_eq_map_of_forall₂ (hsound.forall₂_records t) fun _ _ hstored =>
      hstored.get_identityKey
  have hnodup := hconsistent.identity_nodup t
  rw [hsame] at hnodup
  exact hnodup.of_map Value.text

end Database

-- ---------------------------------------------------------------------------
-- Operations in a session
-- ---------------------------------------------------------------------------

/-- What only turns the result of a step into an answer ends where the step does. -/
theorem Transact.bind_pure_run {α β : Type} {x : Transact α} {g : α → β} (tx : Transaction) :
    (x >>= fun a => pure (g a)) tx = ((x tx).1.map g, (x tx).2) := by
  rcases hx : x tx with ⟨e | a, after⟩
  · exact bind_error hx
  · exact bind_ok hx

namespace Session

/-- The answer of a transaction to an operation on records. -/
def reply (s : Session) (now : Timestamp) (tx : String) (operation : Operation) :
    Except Refusal Answer :=
  (s.step now (.operate tx operation)).2

/-- An operation in an open transaction of records is answered as its work ends, and leaves the
transaction where its work does. -/
theorem operate_of_open {s : Session} {now : Timestamp} {tx : String} {opened : OpenTransaction}
    {operation : Operation} {α : Type} {x : Transact α} {g : α → Answer}
    (hfind : s.find? tx = some opened) (haccess : opened.access = .records)
    (hrun : operation.run now = x >>= fun a => pure (g a)) :
    s.reply now tx operation = ((x opened.transaction).1.map g).mapError .failure ∧
      (s.step now (.operate tx operation)).1.find? tx =
        some { opened with transaction := (x opened.transaction).2 } := by
  rw [reply, step, inside_of_open _ hfind haccess, hrun, Transact.bind_pure_run]
  exact ⟨rfl, (find?_put _ _ _ _).trans (if_pos rfl)⟩

/-- A run that goes on with an operation on records writes by such operations only. -/
theorem recordWrites_concat {steps : List (Timestamp × Step)} (hwrites : RecordWrites steps)
    (now : Timestamp) (tx : String) (operation : Operation) :
    RecordWrites (steps ++ [(now, .operate tx operation)]) :=
  recordWrites_append.2 ⟨hwrites, by simp [RecordWrites]⟩

end Session

end Rollbook
