import Rollbook.Proofs.ClientError
import Rollbook.Proofs.Composite
import Rollbook.Proofs.Revised

/-!
# Rollbook — when a seat is taken

Inside one transaction the composite rule is kept and enforced exactly: a profile is refused for its
composite key just when another row holds it. The registrar decides this by a filter that it makes
of a record it has read back, and the engine's own duplicates never bear the name of a composite
key; so what it answers can be told from the rows alone.

* `Record.ClashesWith`   — the rows that a record clashes with, and how the clash is reported.
* `create_duplicate_iff` — when a creation is refused for a composite key.
* `modify_duplicate_iff` — when a revision is.
* `composite_inside`     — both, and that the rule is kept, for a transaction in any run.
-/

namespace Rollbook

-- ---------------------------------------------------------------------------
-- Clashes
-- ---------------------------------------------------------------------------

/-- The row holds the composite key of the record, and this is the duplicate that reports it: grade,
class and number of a student, or grade and class of a teacher who has both. -/
def Record.ClashesWith : {t : Table} → Record t → Row → DuplicateEntry → Prop
  | .studentInforms, ⟨_, (grade, schoolClass, number, _), _, _⟩, row, d =>
    row.get "grade" = .int grade.toNat ∧ row.get "class" = .int schoolClass.toNat ∧
      row.get "student_number" = .int number.toNat ∧
      d = ⟨"number", s!"{grade.toNat}{schoolClass.toNat}{Text.padded 2 number.toNat}"⟩
  | .teacherInforms, ⟨_, (some grade, some schoolClass, _), _, _⟩, row, d =>
    row.get "grade" = .int grade.toNat ∧ row.get "class" = .int schoolClass.toNat ∧
      d = ⟨"class", s!"{grade.toNat}{schoolClass.toNat}"⟩
  | _, _, _, _ => False

/-- The duplicate bears the name of a composite key. -/
def DuplicateEntry.Composite (d : DuplicateEntry) : Prop := d.key = "number" ∨ d.key = "class"

/-- The revision supplies a column of the composite key. -/
def Revision.Seats {t : Table} (revision : Revision t) : Prop :=
  ∃ m content, ⟨m, some content⟩ ∈ revision.changes.toList ∧ m.key ∈ t.compositeColumns

variable {t : Table}

/-- A valid number is stored as it is. -/
theorem NumberAttribute.toValue_of_check {a : NumberAttribute} {content : UInt8}
    (h : (Attribute.number a).check content = .ok ()) :
    (Attribute.number a).toValue content = .int content.toNat := by
  have hzero : content ≠ 0 := by simpa [Attribute.isZero] using Attribute.isZero_of_check h
  exact if_neg hzero

namespace Record

variable {record : Record t} {row : Row} {d : DuplicateEntry}

/-- A clash is a matter of the details. -/
theorem clashesWith_congr {other : Record t} (h : record.details = other.details) :
    record.ClashesWith row d ↔ other.ClashesWith row d := by
  obtain ⟨uuid, details, created, updated⟩ := record
  obtain ⟨uuid', details', created', updated'⟩ := other
  cases h
  cases t with
  | studentInforms => exact Iff.rfl
  | teacherInforms => obtain ⟨_ | grade, _ | schoolClass, rest⟩ := details <;> exact Iff.rfl
  | _ => exact Iff.rfl

/-- The composite key of a record without an empty composite column looks for the rows that hold the
same values there. -/
theorem exists_compositeKey_meets_iff (record : Record t) (row : Row)
    (hcomposite : t.compositeColumns ≠ [])
    (hvalues : ∀ name ∈ t.compositeColumns, record.toColumns.get name ≠ .null) :
    ∃ key, record.compositeKey = some key ∧ (row.meets key.filter = true ↔
      ∀ name ∈ t.compositeColumns, row.get name = record.toColumns.get name) := by
  have hfull : t.Full (t.seat record.toColumns) := by
    intro name hname
    rw [Table.seat_of_mem hname]
    exact hvalues name hname
  obtain ⟨key, hkey, hfilter⟩ := exists_compositeKey hcomposite hfull
  exact ⟨key, hkey, (meets_compositeKey hkey hfilter).trans Table.seat_eq_iff⟩

end Record

/-- A valid student clashes with the rows that hold grade, class and number. -/
theorem Record.clashesWith_student_iff {record : Record .studentInforms} {row : Row}
    {d : DuplicateEntry} (hcheck : record.check = .ok ()) :
    record.ClashesWith row d ↔
      ∃ key, record.compositeKey = some key ∧ row.meets key.filter = true ∧
        d = ⟨key.name, key.entry⟩ := by
  obtain ⟨-, hdetails⟩ := check_eq_ok_iff.1 hcheck
  have hvalid := Details.check_eq_ok_iff.1 hdetails
  have hmember : ∀ p ∈ record.details.toList, record.toColumns.get p.1.key = p.1.toValue p.2 :=
    fun _ => get_toColumns_of_mem
  have hkey := exists_compositeKey_meets_iff record row (by decide)
  have hcolumns : Table.studentInforms.compositeColumns = ["grade", "class", "student_number"] :=
    rfl
  obtain ⟨uuid, ⟨grade, schoolClass, number, rest⟩, created, updated⟩ := record
  have hgrade : Columns.get _ "grade" = .int grade.toNat := (hmember ⟨_, grade⟩ (.head _)).trans
    (NumberAttribute.toValue_of_check (hvalid ⟨_, grade⟩ (.head _)))
  have hclass : Columns.get _ "class" = .int schoolClass.toNat :=
    (hmember ⟨_, schoolClass⟩ (.tail _ (.head _))).trans
      (NumberAttribute.toValue_of_check (hvalid ⟨_, schoolClass⟩ (.tail _ (.head _))))
  have hnumber : Columns.get _ "student_number" = .int number.toNat :=
    (hmember ⟨_, number⟩ (.tail _ (.tail _ (.head _)))).trans
      (NumberAttribute.toValue_of_check (hvalid ⟨_, number⟩ (.tail _ (.tail _ (.head _)))))
  obtain ⟨key, hsome, hmeets⟩ := hkey (by simp [hcolumns, hgrade, hclass, hnumber])
  cases hsome
  simp only [hcolumns, List.forall_mem_cons, hgrade, hclass, hnumber] at hmeets
  constructor
  · rintro ⟨hrowGrade, hrowClass, hrowNumber, rfl⟩
    exact ⟨_, rfl, hmeets.2 ⟨hrowGrade, hrowClass, hrowNumber, by simp⟩, rfl⟩
  · rintro ⟨key, hsome, hrow, rfl⟩
    cases hsome
    obtain ⟨hrowGrade, hrowClass, hrowNumber, -⟩ := hmeets.1 hrow
    exact ⟨hrowGrade, hrowClass, hrowNumber, rfl⟩

/-- A valid teacher clashes with the rows that hold grade and class, if the teacher has both. -/
theorem Record.clashesWith_teacher_iff {record : Record .teacherInforms} {row : Row}
    {d : DuplicateEntry} (hcheck : record.check = .ok ()) :
    record.ClashesWith row d ↔
      ∃ key, record.compositeKey = some key ∧ row.meets key.filter = true ∧
        d = ⟨key.name, key.entry⟩ := by
  obtain ⟨-, hdetails⟩ := check_eq_ok_iff.1 hcheck
  have hvalid := Details.check_eq_ok_iff.1 hdetails
  have hmember : ∀ p ∈ record.details.toList, record.toColumns.get p.1.key = p.1.toValue p.2 :=
    fun _ => get_toColumns_of_mem
  have hkey := exists_compositeKey_meets_iff record row (by decide)
  have hcolumns : Table.teacherInforms.compositeColumns = ["grade", "class"] := rfl
  obtain ⟨uuid, ⟨grade, schoolClass, rest⟩, created, updated⟩ := record
  have hgradeMember := hmember ⟨_, grade⟩ (.head _)
  have hgradeValid := hvalid ⟨_, grade⟩ (.head _)
  have hclassMember := hmember ⟨_, schoolClass⟩ (.tail _ (.head _))
  have hclassValid := hvalid ⟨_, schoolClass⟩ (.tail _ (.head _))
  rcases grade with _ | grade <;> rcases schoolClass with _ | schoolClass
  case some.some =>
    have hgrade : Columns.get _ "grade" = .int grade.toNat :=
      hgradeMember.trans (NumberAttribute.toValue_of_check hgradeValid)
    have hclass : Columns.get _ "class" = .int schoolClass.toNat :=
      hclassMember.trans (NumberAttribute.toValue_of_check hclassValid)
    obtain ⟨key, hsome, hmeets⟩ := hkey (by simp [hcolumns, hgrade, hclass])
    cases hsome
    simp only [hcolumns, List.forall_mem_cons, hgrade, hclass] at hmeets
    constructor
    · rintro ⟨hrowGrade, hrowClass, rfl⟩
      exact ⟨_, rfl, hmeets.2 ⟨hrowGrade, hrowClass, by simp⟩, rfl⟩
    · rintro ⟨key, hsome, hrow, rfl⟩
      cases hsome
      obtain ⟨hrowGrade, hrowClass, -⟩ := hmeets.1 hrow
      exact ⟨hrowGrade, hrowClass, rfl⟩
  -- without a grade or a class there is no key to clash
  all_goals
    constructor
    · exact False.elim
    · rintro ⟨key, hsome, -⟩
      cases hsome

/-- A valid record clashes with the rows that its composite key looks for. -/
theorem Record.clashesWith_iff {record : Record t} {row : Row} {d : DuplicateEntry}
    (hcheck : record.check = .ok ()) :
    record.ClashesWith row d ↔
      ∃ key, record.compositeKey = some key ∧ row.meets key.filter = true ∧
        d = ⟨key.name, key.entry⟩ := by
  cases t with
  | studentInforms => exact clashesWith_student_iff hcheck
  | teacherInforms => exact clashesWith_teacher_iff hcheck
  | _ =>
    constructor
    · exact False.elim
    · rintro ⟨key, hsome, -⟩
      cases hsome

/-- A composite key is not vacant when a row of another owner holds it. -/
theorem Database.vacant_eq_false_iff {db : Database} {key : CompositeKey} {owner : Option Value} :
    db.vacant t key owner = false ↔
      ∃ row ∈ db.rows t, owner ≠ some (row.get t.identityKey) ∧ row.meets key.filter = true := by
  rw [vacant, List.all_eq_false]
  constructor
  · rintro ⟨row, hrow, hother⟩
    obtain ⟨hmem, hmeets⟩ := List.mem_filter.1 hrow
    refine ⟨row, hmem, ?_, hmeets⟩
    rintro rfl
    simp at hother
  · rintro ⟨row, hmem, hother, hmeets⟩
    refine ⟨row, List.mem_filter.2 ⟨hmem, hmeets⟩, ?_⟩
    cases owner with
    | none => simp
    | some id => simpa [eq_comm] using hother

/-- A valid record clashes with a row of another owner when its composite key is not vacant. -/
theorem Database.exists_clash_iff (db : Database) {record : Record t} {d : DuplicateEntry}
    (hcheck : record.check = .ok ()) (owner : Option Value) :
    (∃ row ∈ db.rows t, owner ≠ some (row.get t.identityKey) ∧ record.ClashesWith row d) ↔
      ∃ key, record.compositeKey = some key ∧ db.vacant t key owner = false ∧
        d = ⟨key.name, key.entry⟩ := by
  simp only [Record.clashesWith_iff hcheck, vacant_eq_false_iff]
  constructor
  · rintro ⟨row, hrow, hother, key, hkey, hmeets, rfl⟩
    exact ⟨key, hkey, ⟨row, hrow, hother, hmeets⟩, rfl⟩
  · rintro ⟨key, hkey, ⟨row, hrow, hother, hmeets⟩, rfl⟩
    exact ⟨row, hrow, hother, key, hkey, hmeets, rfl⟩

/-- In a consistent database, the filter of a uuid finds its row. -/
theorem Database.Consistent.exists_select_eq {db : Database} (h : db.Consistent) {row : Row}
    {uuid : String} (hrow : row ∈ db.rows t)
    (hown : row.get t.identityKey = t.identity.toValue uuid) :
    ∃ rest, db.select t (t.identityFilter uuid) = row :: rest := by
  have hmem : row ∈ db.select t (t.identityFilter uuid) :=
    List.mem_filter.2 ⟨hrow, Table.meets_identityFilter.2 hown⟩
  cases hselect : db.select t (t.identityFilter uuid) with
  | nil =>
    rw [hselect] at hmem
    cases hmem
  | cons first rest =>
    have hfirst : first ∈ db.select t (t.identityFilter uuid) := hselect ▸ List.mem_cons_self
    obtain ⟨hfirstRow, hmeets⟩ := List.mem_filter.1 hfirst
    have hsame : first = row := List.inj_on_of_nodup_map (h.identity_nodup t) hfirstRow hrow
      ((Table.meets_identityFilter.1 hmeets).trans hown.symm)
    exact ⟨rest, by rw [hsame]⟩

namespace Revision

variable {revision : Revision t}

/-- A revision has a column for what it supplies. -/
theorem mem_names_payload {m : Member} {content : m.target.Content}
    (h : ⟨m, some content⟩ ∈ revision.changes.toList) : m.key ∈ revision.payload.names :=
  (Columns.mem_names_iff _).2 ⟨_, Changes.get?_toColumns Table.details_keys_nodup h⟩

/-- A revision that seats sets a composite column. -/
theorem Seats.touches (h : revision.Seats) : t.touchesComposite revision.payload = true := by
  obtain ⟨m, content, hmem, hkey⟩ := h
  rw [Table.touchesComposite, List.any_eq_true]
  exact ⟨m.key, mem_names_payload hmem, by simpa using hkey⟩

theorem Seats.payload_ne_empty (h : revision.Seats) : ¬revision.payload.isEmpty = true := by
  obtain ⟨m, content, hmem, -⟩ := h
  have hname := mem_names_payload hmem
  intro hempty
  rw [(Columns.isEmpty_iff _).1 hempty] at hname
  cases hname

end Revision

-- ---------------------------------------------------------------------------
-- Refused operations
-- ---------------------------------------------------------------------------

/-- No key of the engine bears the name of a composite key. -/
theorem Table.keyName_not_composite : ∀ c ∈ t.columns, t.isKey c = true →
    t.keyName c.name ≠ "number" ∧ t.keyName c.name ≠ "class" := by
  cases t <;> decide

/-- What the engine finds wrong with keys and references is never reported as a composite key. -/
theorem Breach.OfSchema.ne_composite {b : Breach} {d : DuplicateEntry} (h : b.OfSchema)
    (hd : d.Composite) : Failure.ofEngineError b.report ≠ .duplicateEntry d := by
  cases b with
  | unknownColumn name clause => exact h.elim
  | nullColumn name => exact h.elim
  | referenced f =>
    obtain ⟨t, fk, hfk, rfl⟩ := h
    have hplain : Breach.Plain (.referenced (fk.failure t)) := ForeignKey.plain_failure fk hfk
    rw [ofEngineError_report hplain]
    exact Failure.noConfusion
  | duplicate found =>
    obtain ⟨t, c, hc, hkey, hname⟩ := h
    have hplain : Breach.Plain (.duplicate found) := by
      rw [Plain, hname]
      exact Table.plain_keyName c hc
    rw [ofEngineError_report hplain]
    rintro ⟨rfl⟩
    -- the keys of the engine have other names than the composite ones
    obtain ⟨hnumber, hclass⟩ := Table.keyName_not_composite c hc hkey
    rcases hd with hd | hd
    · exact hnumber (hname ▸ hd)
    · exact hclass (hname ▸ hd)
  | noReferent f =>
    obtain ⟨t, fk, hfk, rfl⟩ := h
    have hplain : Breach.Plain (.noReferent (fk.failure t)) := ForeignKey.plain_failure fk hfk
    rw [ofEngineError_report hplain]
    exact Failure.noConfusion

namespace Registrar

open Transact Transaction

variable {now : Timestamp} {tx : Transaction} {d : DuplicateEntry}

/-- No statement is refused for a composite key: the engine knows keys of one column only. -/
theorem execute_ne_composite {statement : Statement} (hsound : tx.snapshot.Sound)
    (hchecked : statement.Checked) (hd : d.Composite) :
    FailsIn (execute now statement) tx (· ≠ .duplicateEntry d) := by
  intro e h
  rcases hexecute : tx.snapshot.execute now statement with b | ⟨db, n⟩
  · rw [execute_error hexecute] at h
    cases h
    exact (Database.execute_error hsound hchecked hexecute).ne_composite hd
  · rw [execute_ok hexecute] at h
    cases h

/-- A step behind the check for a vacant key is refused for a composite key when the check fails,
unless it is refused so itself. -/
theorem vacant_duplicate_iff {α : Type} {record : Record t} {owner : Option Value}
    {write : Transact α} (hwrite : FailsIn write tx (· ≠ .duplicateEntry d)) :
    ((do
      match record.compositeKey with
      | some key => ensureVacant t key owner
      | none => pure ()
      write : Transact α) tx).1 = .error (.duplicateEntry d) ↔
      ∃ key, record.compositeKey = some key ∧ tx.snapshot.vacant t key owner = false ∧
        d = ⟨key.name, key.entry⟩ := by
  cases hkey : record.compositeKey with
  -- without a key there is no check, and the step itself is not refused so
  | none =>
    constructor
    · exact fun h => absurd rfl (hwrite _ h)
    · rintro ⟨key, hsome, -⟩
      cases hsome
  | some key =>
    have hknown := known_compositeKey hkey
    show ((ensureVacant t key owner >>= fun _ => write) tx).1 = _ ↔ _
    cases hvacant : tx.snapshot.vacant t key owner with
    | true =>
      rw [bind_ok (ensureVacant_ok hknown hvacant)]
      constructor
      · exact fun h => absurd rfl (hwrite _ h)
      · rintro ⟨key, ⟨rfl⟩, htaken, -⟩
        rw [hvacant] at htaken
        cases htaken
    | false =>
      rw [bind_error (ensureVacant_error hknown hvacant)]
      constructor
      · intro h
        cases h
        exact ⟨key, rfl, hvacant, rfl⟩
      · rintro ⟨key, ⟨rfl⟩, -, rfl⟩
        rfl

/-- **When a creation is refused for a composite key**: a row holds the key already. -/
theorem create_duplicate_iff {record : Record t} (hsound : tx.snapshot.Sound)
    (hcheck : record.check = .ok ()) (hd : d.Composite) :
    (create now record tx).1 = .error (.duplicateEntry d) ↔
      ∃ row ∈ tx.snapshot.rows t, record.ClashesWith row d := by
  have hchecked : Statement.Checked (.insert t record.toColumns) := ⟨record, hcheck, rfl⟩
  have hclash := tx.snapshot.exists_clash_iff (d := d) hcheck none
  simp only [ne_eq, reduceCtorEq, not_false_eq_true, true_and] at hclash
  rw [hclash, create, hcheck, ensure_ok_bind]
  exact vacant_duplicate_iff
    (insert_get_failsIn hcheck (execute_ne_composite hsound hchecked hd))

/-- The record that the check of a revision makes has the revised contents, and is valid. -/
theorem exists_merged {record : Record t} {revision : Revision t} (hrecord : record.check = .ok ())
    (hcheck : revision.check = .ok ()) (now : Timestamp) :
    ∃ merged, Record.ofColumns t (record.toColumns.overlay revision.payload) = .ok merged ∧
      merged.check = .ok () ∧ merged.details = (record.revise revision now).details := by
  obtain ⟨merged, hmerged, hvalid, -⟩ :=
    ((Table.valid_toColumns hrecord).overlay hcheck).exists_record
  refine ⟨merged, hmerged, hvalid, ?_⟩
  have hdetails : Details.ofColumns t.details record.toColumns = .ok record.details := by
    refine Details.build_eq_ok_iff.2 fun p hp => ?_
    have hcontent := Details.check_eq_ok_iff.1 (Record.check_eq_ok_iff.1 hrecord).2 p hp
    rw [Record.get_toColumns_of_mem hp]
    exact Member.ofValue_toValue (Member.nonZero_of_check hcontent)
  have hrevised := Details.ofColumns_revise Table.details_keys_nodup hdetails
    (c := revision.changes) fun m _ => Columns.get_overlay _ _ _
  obtain ⟨-, hread, -⟩ := Record.ofColumns_eq_ok_iff.1 hmerged
  exact Except.ok.inj (hread.symm.trans hrevised)

/-- **When a revision that supplies a column of the composite key is refused for the key**: a row of
another uuid holds the key of the revised record already. -/
theorem modify_duplicate_iff {uuid : String} {revision : Revision t} {record : Record t} {row : Row}
    (hsound : tx.snapshot.Sound) (hconsistent : tx.snapshot.Consistent)
    (hid : revision.uuid = none) (huuid : t.identity.check uuid = .ok ())
    (hcheck : revision.check = .ok ()) (hseats : revision.Seats)
    (hrow : row ∈ tx.snapshot.rows t) (hown : row.get t.identityKey = t.identity.toValue uuid)
    (hread : Record.ofColumns t row = .ok record) (hd : d.Composite) :
    (modify now uuid revision tx).1 = .error (.duplicateEntry d) ↔
      ∃ other ∈ tx.snapshot.rows t, other.get t.identityKey ≠ t.identity.toValue uuid ∧
        (record.revise revision now).ClashesWith other d := by
  obtain ⟨stored, hstored⟩ := (hsound t row hrow).exists_record
  have hrecord : stored = record := Except.ok.inj (hstored.decodes.symm.trans hread)
  obtain ⟨merged, hmerged, hvalid, hdetails⟩ := exists_merged (hrecord ▸ hstored.valid) hcheck now
  have hclash := tx.snapshot.exists_clash_iff (d := d) hvalid (some (t.identity.toValue uuid))
  simp only [Record.clashesWith_congr hdetails, ne_eq, Option.some.injEq,
    eq_comm (a := t.identity.toValue uuid)] at hclash
  have hwrite : FailsIn (do
      let _ ← Transaction.update now t (t.identityFilter uuid) revision.payload) tx
        (· ≠ .duplicateEntry d) := by
    have hchecked : Statement.Checked (.update t (t.identityFilter uuid) revision.payload) :=
      ⟨uuid, revision, hcheck, rfl, rfl⟩
    refine FailsIn.bind ?_ fun _ _ _ => failsIn_pure _
    rw [Transaction.update, if_neg hseats.payload_ne_empty]
    exact execute_ne_composite hsound hchecked hd
  -- the check reads the one row of the uuid
  obtain ⟨rest, hselect⟩ := hconsistent.exists_select_eq hrow hown
  rw [modify_of_valid hid huuid hcheck, if_neg hseats.payload_ne_empty, if_pos hseats.touches,
    hselect]
  show ((decoded (Record.ofColumns t row) >>= fun current => _) tx).1 = _ ↔ _
  rw [hread, decoded_ok_bind, ensureMovable, hmerged, decoded_ok_bind]
  -- what the check finds is a row of another uuid that the revised record clashes with
  have hguard := (vacant_duplicate_iff hwrite).trans hclash.symm
  cases hkey : merged.compositeKey with
  | none =>
    rw [hkey] at hguard
    exact hguard
  | some key =>
    rw [hkey] at hguard
    exact hguard

end Registrar

-- ---------------------------------------------------------------------------
-- Whole runs
-- ---------------------------------------------------------------------------

/-- In sound rows the composite columns hold what small numbers are stored as. -/
theorem Database.Sound.typed {db : Database} (h : db.Sound) : db.Typed := by
  intro t row hrow name hname
  obtain ⟨m, hm, rfl⟩ := Table.exists_detail_of_composite name hname
  obtain ⟨content, -, hvalue⟩ := (h t row hrow).details m hm
  rw [← hvalue]
  exact Member.small_toValue (Table.isNumber_of_composite m hm hname) content

namespace Session

variable {s : Session} {steps : List (Timestamp × Step)} {now : Timestamp} {tx : String}
  {opened : OpenTransaction}

/-- An operation fails in a session as it fails in its transaction. -/
theorem operate_error_iff {α : Type} {x : Transact α} {g : α → Answer} {operation : Operation}
    {e : Failure} (hfind : s.find? tx = some opened) (haccess : opened.access = .records)
    (hrun : operation.run now = x >>= fun a => pure (g a)) :
    (s.step now (.operate tx operation)).2 = .error (.failure e) ↔
      (x opened.transaction).1 = .error e := by
  rw [← Transact.bind_pure_error_iff (g := g), ← hrun, step, inside_of_open _ hfind haccess]
  cases (operation.run now opened.transaction).1 with
  | error e' => simp [Except.mapError]
  | ok answer => simp [Except.mapError]

/-- The copy of a transaction keeps the seats apart until the transaction ends. -/
theorem exists_seatsApart_run {further : List (Timestamp × Step)}
    (hwrites : RecordWrites (steps ++ further)) (hfind : (new.run steps).find? tx = some opened)
    (hapart : opened.transaction.snapshot.SeatsApart)
    (hbounds : ∀ p ∈ further, p.2.bounds tx = false) :
    ∃ later, (new.run (steps ++ further)).find? tx = some later ∧
      later.transaction.snapshot.SeatsApart := by
  induction further using List.reverseRecOn with
  | nil =>
    rw [List.append_nil]
    exact ⟨opened, hfind, hapart⟩
  | append_singleton further p ih =>
    rw [← List.append_assoc] at hwrites ⊢
    obtain ⟨hbefore, hstep⟩ := recordWrites_append.1 hwrites
    obtain ⟨later, hlater, hlaterApart⟩ := ih hbefore fun q hq => hbounds q (by simp [hq])
    have htyped := ((throughout_sound hbefore).snapshot tx later hlater).typed
    rw [run_concat, find?_step_of_not_bounds p.1 (hbounds p (by simp)), hlater]
    exact ⟨_, rfl, seatsApart_attempt hlater hstep htyped hlaterApart⟩

/-- **The composite rule inside one transaction.** Where all writing goes through operations on
records, a transaction whose copy keeps the rule keeps it until it ends, whatever its operations
answer. A valid profile is refused for its composite key just when a row holds the key already, and
so is a valid revision of a stored one that supplies a column of the key, just when another row
holds the key of the profile as revised. -/
theorem composite_inside (hwrites : RecordWrites steps)
    (hfind : (new.run steps).find? tx = some opened) :
    (opened.transaction.snapshot.CompositeRule → ∀ further, RecordWrites further →
      (∀ p ∈ further, p.2.bounds tx = false) →
        ∃ later, (new.run (steps ++ further)).find? tx = some later ∧
          later.transaction.snapshot.CompositeRule) ∧
    (opened.access = .records → ∀ (now : Timestamp) (t : Table),
      (∀ (record : Record t) (d : DuplicateEntry), record.check = .ok () → d.Composite →
        (((new.run steps).step now (.operate tx (.create t record))).2 =
            .error (.failure (.duplicateEntry d)) ↔
          ∃ row ∈ opened.transaction.snapshot.rows t, record.ClashesWith row d)) ∧
      ∀ (uuid : String) (revision : Revision t), ∀ row ∈ opened.transaction.snapshot.rows t,
        revision.uuid = none → t.identity.check uuid = .ok () → revision.check = .ok () →
        revision.Seats → row.get t.identityKey = t.identity.toValue uuid →
          ∃ record : Record t, record.StoredAs row ∧ ∀ d : DuplicateEntry, d.Composite →
            (((new.run steps).step now (.operate tx (.modify t uuid revision))).2 =
                .error (.failure (.duplicateEntry d)) ↔
              ∃ other ∈ opened.transaction.snapshot.rows t,
                other.get t.identityKey ≠ t.identity.toValue uuid ∧
                  (record.revise revision now).ClashesWith other d)) := by
  have hsound := (throughout_sound hwrites).snapshot tx opened hfind
  have hconsistent := (throughout_consistent steps).snapshot tx opened hfind
  constructor
  · intro hrule further hfurther hbounds
    have hapart := (Database.compositeRule_iff hconsistent).1 hrule
    obtain ⟨later, hlater, hlaterApart⟩ :=
      exists_seatsApart_run (recordWrites_append.2 ⟨hwrites, hfurther⟩) hfind hapart hbounds
    have hlaterConsistent := (throughout_consistent _).snapshot tx later hlater
    exact ⟨later, hlater, (Database.compositeRule_iff hlaterConsistent).2 hlaterApart⟩
  · intro haccess now t
    constructor
    · intro record d hcheck hd
      exact (operate_error_iff hfind haccess rfl).trans
        (Registrar.create_duplicate_iff hsound hcheck hd)
    · intro uuid revision row hrow hid huuid hcheck hseats hown
      obtain ⟨record, hstored⟩ := (hsound t row hrow).exists_record
      refine ⟨record, hstored, fun d hd => ?_⟩
      exact (operate_error_iff hfind haccess rfl).trans (Registrar.modify_duplicate_iff hsound
        hconsistent hid huuid hcheck hseats hrow hown hstored.decodes hd)

/-- A transaction that gives a homeroom to one of two teachers, and to the other a grade only. -/
def twoTeachers : List (Timestamp × Step) :=
  [(.ofSeconds 1, .begin .records "a"),
    (.ofSeconds 2, .operate "a" (.create .teacherAuths
      ⟨"teacher-000000000001", ("kim1", "hash", ()), none, none⟩)),
    (.ofSeconds 3, .operate "a" (.create .teacherInforms
      ⟨"teacher-000000000001", (some (2 : UInt8), some (1 : UInt8), "Kim", "01000000001", ()),
        none, none⟩)),
    (.ofSeconds 4, .operate "a" (.create .teacherAuths
      ⟨"teacher-000000000002", ("park", "hash", ()), none, none⟩)),
    (.ofSeconds 5, .operate "a" (.create .teacherInforms
      ⟨"teacher-000000000002", (some (2 : UInt8), none, "Park", "01000000002", ()), none, none⟩))]

/-- The revision that gives a teacher the first class. -/
def firstClass : Revision .teacherInforms := ⟨none, (none, some (1 : UInt8), none, none, ())⟩

/-- A third teacher is refused the homeroom, and so is the one who has the grade already. -/
theorem composite_inside_twoTeachers :
    ((new.run twoTeachers).step (.ofSeconds 6) (.operate "a" (.create .teacherInforms
      ⟨"teacher-000000000003", (some (2 : UInt8), some (1 : UInt8), "Choi", "01000000003", ()),
        none, none⟩))).2 = .error (.failure (.duplicateEntry ⟨"class", "21"⟩)) ∧
    ((new.run twoTeachers).step (.ofSeconds 6) (.operate "a"
      (.modify .teacherInforms "teacher-000000000002" firstClass))).2 =
        .error (.failure (.duplicateEntry ⟨"class", "21"⟩)) ∧
    ∃ later, (new.run twoTeachers).find? "a" = some later ∧
      (later.transaction.snapshot.rows .teacherInforms).length = 2 ∧
      later.transaction.snapshot.CompositeRule := by
  have hwrites : RecordWrites twoTeachers := by simp [RecordWrites, twoTeachers]
  obtain ⟨hbegin, hrest⟩ := recordWrites_append.1 (show RecordWrites
    ([(.ofSeconds 1, .begin .records "a")] ++ twoTeachers.tail) from hwrites)
  have hbounds : ∀ p ∈ twoTeachers.tail, p.2.bounds "a" = false := by
    simp [twoTeachers, Step.bounds]
  -- the transaction begins without a profile, and so with the rule
  have hbegun : (new.run [(.ofSeconds 1, .begin .records "a")]).find? "a" =
      some ⟨.records, .begin .empty⟩ := by rfl
  obtain ⟨hkept, -⟩ := composite_inside hbegin hbegun
  obtain ⟨later, hfind, hrule⟩ := hkept ⟨.nil, .nil⟩ twoTeachers.tail hrest hbounds
  have hopen : (new.run twoTeachers).find? "a" = some later := hfind
  have hheld : ((new.run twoTeachers).find? "a").map (fun opened => (opened.access,
      (opened.transaction.snapshot.rows .teacherInforms).map fun row =>
        (row.get "teacher_uuid", row.get "grade", row.get "class",
          Record.ofColumns .teacherInforms row))) =
      some (.records, [(.text "teacher-000000000001", .int 2, .int 1, .ok ⟨"teacher-000000000001",
          (some (2 : UInt8), some (1 : UInt8), "Kim", "01000000001", ()),
          some (.ofSeconds 3), some (.ofSeconds 3)⟩),
        (.text "teacher-000000000002", .int 2, .null, .ok ⟨"teacher-000000000002",
          (some (2 : UInt8), none, "Park", "01000000002", ()),
          some (.ofSeconds 5), some (.ofSeconds 5)⟩)]) := by rfl
  rw [hopen, Option.map_some, Option.some.injEq, Prod.mk.injEq] at hheld
  obtain ⟨haccess, hvalues⟩ := hheld
  obtain ⟨first, rest, hrows, hfirst, hvalues⟩ := List.map_eq_cons_iff.1 hvalues
  obtain ⟨second, rfl, hsecond⟩ := List.map_eq_singleton_iff.1 hvalues
  simp only [Prod.mk.injEq] at hfirst hsecond
  obtain ⟨hfirstId, hgrade, hclass, -⟩ := hfirst
  obtain ⟨hsecondId, -, -, hsecond⟩ := hsecond
  have hfirstRow : first ∈ later.transaction.snapshot.rows .teacherInforms := by simp [hrows]
  have hsecondRow : second ∈ later.transaction.snapshot.rows .teacherInforms := by simp [hrows]
  obtain ⟨-, hrefused⟩ := composite_inside hwrites hopen
  obtain ⟨hcreate, hmodify⟩ := hrefused haccess (.ofSeconds 6) .teacherInforms
  refine ⟨?_, ?_, later, hopen, by simp [hrows], hrule⟩
  · refine (hcreate _ _ (by rfl) (.inr rfl)).2 ⟨first, hfirstRow, ?_⟩
    exact And.intro hgrade (And.intro hclass (by rfl))
  · have hseats : firstClass.Seats :=
      ⟨.possible "class" (.number .schoolClass), (1 : UInt8), .tail _ (.head _), by decide⟩
    obtain ⟨record, hstored, hanswer⟩ := hmodify "teacher-000000000002" firstClass second hsecondRow
      rfl (by rfl) (by rfl) hseats hsecondId
    have hrecord := Except.ok.inj (hstored.decodes.symm.trans hsecond)
    subst hrecord
    refine (hanswer _ (.inr rfl)).2 ⟨first, hfirstRow, ?_, ?_⟩
    · have hother : first.get Table.teacherInforms.identityKey = .text "teacher-000000000001" :=
        hfirstId
      rw [hother]
      decide
    · exact And.intro hgrade (And.intro hclass (by rfl))

end Session

end Rollbook
