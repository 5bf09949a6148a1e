import Rollbook.Proofs.Records
import Rollbook.Proofs.Verdict

/-!
# Rollbook — deletions are exact

To delete an account is to filter the rows of its table by a uuid, after a search of all foreign
keys for the value that goes. The uuid is a key, so the filter drops one row at most; and whoever
refers to the value refers to this account, since a link of a student and the uuid of a profile are
read back from the columns that the engine compares.

* `Role.dependents`, `Database.Refers` — who may refer to an account, and who does.
* `referenced?_account_eq_some_iff`    — the engine finds the first table that refers to an account.
* `Transaction.Removes`                — what a deletion answers and what it leaves.
* `delete_run`                         — deletions where operations on records alone have written.
-/

namespace Rollbook

-- ---------------------------------------------------------------------------
-- Who refers to an account
-- ---------------------------------------------------------------------------

/-- The tables whose records may refer to an account of the role, in the order in which they are
searched. -/
def Role.dependents : Role → List Table
  | .parent => [.studentAuths, .parentInforms]
  | .teacher => [.teacherInforms]
  | .student => [.studentInforms]
  | .admin => []

/-- Some record of the table refers to the account of the uuid. -/
def Database.Refers (db : Database) (role : Role) (uuid : String) (child : Table) : Prop :=
  ∃ record ∈ db.records child, record.referent? = some (role, uuid)

/-- The tables that refer to the accounts of a role are its dependents, in the order in which they
are looked through. -/
theorem Role.map_fst_referrers (role : Role) :
    (Database.referrers role.accounts).map Prod.fst = role.dependents := by
  cases role <;> rfl

namespace Database

variable {db : Database} {t : Table} {role : Role} {row : Row} {account : Record role.accounts}
  {b : Breach}

/-- Who refers to the row of an account refers to the account. -/
theorem Sound.strands_iff (h : db.Sound) (hstored : account.StoredAs row) {p : Table × ForeignKey}
    (hp : p ∈ referrers role.accounts) :
    (row.get p.2.refColumn ≠ .null ∧
      (∀ next, none = some next → Columns.get next p.2.refColumn ≠ row.get p.2.refColumn) ∧
        ∃ r ∈ db.rows p.1, r.get p.2.column = row.get p.2.refColumn) ↔
      db.Refers role account.uuid p.1 := by
  obtain ⟨child, fk⟩ := p
  obtain ⟨hfk, href⟩ := mem_referrers_iff.1 hp
  have hvalue : row.get fk.refColumn = .text account.uuid := by
    rw [Table.refColumn_eq fk hfk, href, hstored.get_identityKey]
  have hrefers := h.exists_row_iff (t := child) (P := fun r => r.get fk.column = .text account.uuid)
    fun r record hrecord => hrecord.get_reference_eq_iff hfk href
  simp only [hvalue]
  exact ⟨fun hstrands => hrefers.1 hstrands.2.2, fun hfound => ⟨nofun, nofun, hrefers.2 hfound⟩⟩

/-- **The engine finds the first table that refers to an account**, and the foreign key of this
table. -/
theorem referenced?_account_eq_some_iff (h : db.Sound) (hstored : account.StoredAs row) :
    db.referenced? role.accounts row none = some b ↔
      ∃ p, IsFirst (fun p => db.Refers role account.uuid p.1) (referrers role.accounts) p ∧
        .referenced (p.2.failure p.1) = b := by
  rw [referenced?, Option.map_eq_some_iff]
  refine exists_congr fun p => and_congr_left' ?_
  rw [find?_eq_some_iff_isFirst (Change.referenced_iff row none)]
  exact isFirst_congr fun p hp => h.strands_iff hstored hp

/-- The engine lets an account go when none of the dependent tables refers to it. -/
theorem referenced?_account_eq_none_iff (h : db.Sound) (hstored : account.StoredAs row) :
    db.referenced? role.accounts row none = none ↔
      ∀ child ∈ role.dependents, ¬db.Refers role account.uuid child := by
  rw [referenced?, Option.map_eq_none_iff, List.find?_eq_none, ← role.map_fst_referrers,
    List.forall_mem_map]
  refine forall₂_congr fun p hp => not_congr ?_
  exact (Change.referenced_iff row none p).trans (h.strands_iff hstored hp)

/-- The deletion of an account that is there looks at its row only. -/
theorem Consistent.delete_eq (h : db.Consistent) {uuid : String} (hrow : row ∈ db.rows t)
    (hown : row.get t.identityKey = t.identity.toValue uuid) :
    ∃ front back, db.rows t = front ++ row :: back ∧
      db.delete t (t.identityFilter uuid) =
        match db.referenced? t row none with
        | some b => .error b
        | none => .ok (db.set t (front ++ back), 1) := by
  obtain ⟨c, hc, hname⟩ := t.exists_identity
  obtain ⟨front, back, hrows, -, hselect, hrest⟩ :=
    h.exists_place hc (by simp [Table.isKey, hname]) hrow
  rw [hname, hown] at hselect hrest
  refine ⟨front, back, hrows, ?_⟩
  rw [Database.delete, (unknownColumn?_eq_none_iff .whereClause).2 (t.known_identityFilter uuid),
    Table.identityFilter, hselect, hrest]
  cases hreferenced : db.referenced? t row none <;> simp [hreferenced]

/-- The deletion of an account that is not there takes nothing. -/
theorem delete_absent {uuid : String}
    (h : ∀ row ∈ db.rows t, row.get t.identityKey ≠ t.identity.toValue uuid) :
    db.delete t (t.identityFilter uuid) = .ok (db, 0) := by
  have hmeets : ∀ row ∈ db.rows t, ¬row.meets (t.identityFilter uuid) = true :=
    fun row hrow hmeets => h row hrow (Table.meets_identityFilter.1 hmeets)
  have hkept : (db.rows t).filter (fun row => !row.meets (t.identityFilter uuid)) = db.rows t :=
    List.filter_eq_self.2 fun row hrow => by simpa using hmeets row hrow
  have hselect : db.select t (t.identityFilter uuid) = [] := List.filter_eq_nil_iff.2 hmeets
  rw [delete, (unknownColumn?_eq_none_iff .whereClause).2 (t.known_identityFilter uuid), hselect,
    hkept, set_rows]
  rfl

end Database

-- ---------------------------------------------------------------------------
-- Deletions
-- ---------------------------------------------------------------------------

/-- What a transaction answers to the deletion of an account, and what becomes of it. A malformed
uuid is refused. Without an account of the uuid, every row stays and the deletion succeeds. An
account that others refer to stays as well, and the refusal names the foreign key of the first table
that does. Any other account goes, with its row and no other. -/
structure Transaction.Removes (role : Role) (uuid : String) (before : Transaction)
    (answer : Except Refusal Answer) (after : Transaction) : Prop where
  invalid    : ∀ v, role.accounts.identity.check uuid = .error v →
    answer = .error (.failure (.validation v)) ∧ after = before
  absent     : role.accounts.identity.check uuid = .ok () →
    (∀ account ∈ before.snapshot.records role.accounts, account.uuid ≠ uuid) →
      answer = .ok .done ∧ after.snapshot = before.snapshot
  referenced : role.accounts.identity.check uuid = .ok () →
    (∃ account ∈ before.snapshot.records role.accounts, account.uuid = uuid) →
      ∀ child, IsFirst (before.snapshot.Refers role uuid) role.dependents child →
        ∃ fk, child.foreignKeys = [fk] ∧ answer = .error (.failure (.foreignKey
          ⟨⟨"memory", child.name, fk.constraint, fk.column⟩,
            ⟨role.accounts.name, role.accounts.identityKey⟩⟩)) ∧ after = before
  removed    : role.accounts.identity.check uuid = .ok () →
    (∃ account ∈ before.snapshot.records role.accounts, account.uuid = uuid) →
      (∀ child ∈ role.dependents, ¬before.snapshot.Refers role uuid child) →
        answer = .ok .done ∧ ∃ front row back account,
          before.snapshot.rows role.accounts = front ++ row :: back ∧
            Record.ofColumns role.accounts row = .ok account ∧ account.uuid = uuid ∧
            after.snapshot = before.snapshot.set role.accounts (front ++ back)

namespace Registrar

open Transact Transaction

variable {role : Role} {uuid : String} {now : Timestamp} {tx : Transaction} {db : Database}
  {n : Nat}

/-- A removal that the copy accepts is done, and its delete is the last entry of the journal. -/
theorem delete_ok (hcheck : role.accounts.identity.check uuid = .ok ())
    (h : tx.snapshot.delete role.accounts (role.accounts.identityFilter uuid) = .ok (db, n)) :
    delete now role uuid tx = (.ok (), ⟨db, tx.journal ++
      [⟨now, .delete role.accounts (role.accounts.identityFilter uuid)⟩]⟩) := by
  rw [delete, hcheck, ensure_ok_bind]
  exact bind_ok (execute_ok h)

/-- A removal that the copy refuses fails with the breach as reported, and leaves no entry. -/
theorem delete_error {b : Breach} (hcheck : role.accounts.identity.check uuid = .ok ())
    (h : tx.snapshot.delete role.accounts (role.accounts.identityFilter uuid) = .error b) :
    delete now role uuid tx = (.error (.ofEngineError b.report), tx) := by
  rw [delete, hcheck, ensure_ok_bind]
  exact bind_error (execute_error h)

/-- **A deletion does just this.** -/
theorem delete_removes (hsound : tx.snapshot.Sound) (hconsistent : tx.snapshot.Consistent) :
    tx.Removes role uuid
      (((delete now role uuid tx).1.map fun _ => Answer.done).mapError Refusal.failure)
      (delete now role uuid tx).2 where
  invalid v hcheck := by
    rw [delete, hcheck, ensure_error_bind]
    exact ⟨rfl, rfl⟩
  absent hcheck hnone := by
    -- a row of the uuid would be read as an account of the uuid
    have hrows : ∀ row ∈ tx.snapshot.rows role.accounts,
        row.get role.accounts.identityKey ≠ role.accounts.identity.toValue uuid := by
      intro row hrow hown
      obtain ⟨account, haccount, hstored⟩ := hsound.exists_record hrow
      rw [hstored.get_identityKey, Table.toValue_identity hcheck, Value.text.injEq] at hown
      exact hnone account haccount hown
    rw [delete_ok hcheck (Database.delete_absent hrows)]
    exact ⟨rfl, rfl⟩
  referenced hcheck hfound child hfirst := by
    obtain ⟨account, haccount, rfl⟩ := hfound
    obtain ⟨row, hrow, hstored⟩ := hsound.exists_row haccount
    have hown := hstored.get_identityKey.trans (Table.toValue_identity hcheck).symm
    obtain ⟨front, back, -, hdelete⟩ := hconsistent.delete_eq hrow hown
    rw [← role.map_fst_referrers, isFirst_map_iff] at hfirst
    -- the first dependent table is the table of the first reference that the engine finds
    obtain ⟨⟨child, fk⟩, hfirst, rfl⟩ := hfirst
    obtain ⟨hfk, href⟩ := Database.mem_referrers_iff.1 hfirst.mem
    rw [(Database.referenced?_account_eq_some_iff hsound hstored).2 ⟨_, hfirst, rfl⟩] at hdelete
    obtain ⟨record, -, hreferent⟩ := hfirst.holds
    obtain ⟨own, hall, -⟩ := Record.exists_foreignKey_of_referent? hreferent
    obtain rfl : fk = own := List.mem_singleton.1 (hall ▸ hfk)
    refine ⟨fk, hall, ?_⟩
    rw [delete_error hcheck hdelete, Breach.ofEngineError_referenced hfk, ForeignKey.failure,
      Table.refColumn_eq fk hfk, href]
    exact ⟨rfl, rfl⟩
  -- the one row of the uuid goes, and the account was read from it
  removed hcheck hfound hfree := by
    obtain ⟨account, haccount, rfl⟩ := hfound
    obtain ⟨row, hrow, hstored⟩ := hsound.exists_row haccount
    have hown := hstored.get_identityKey.trans (Table.toValue_identity hcheck).symm
    obtain ⟨front, back, hrows, hdelete⟩ := hconsistent.delete_eq hrow hown
    rw [(Database.referenced?_account_eq_none_iff hsound hstored).2 hfree] at hdelete
    rw [delete_ok hcheck hdelete]
    exact ⟨rfl, front, row, back, account, hrows, hstored.decodes, rfl, rfl⟩

/-- After a deletion that has succeeded, there is no account of the uuid. -/
theorem absent_of_delete_ok {after : Transaction} (hsound : after.snapshot.Sound)
    (h : delete now role uuid tx = (.ok (), after)) :
    role.accounts.identity.check uuid = .ok () ∧
      ∀ account ∈ after.snapshot.records role.accounts, account.uuid ≠ uuid := by
  cases hcheck : role.accounts.identity.check uuid with
  | error v =>
    rw [delete, hcheck, ensure_error_bind] at h
    cases h
  | ok u =>
    refine ⟨rfl, fun account haccount huuid => ?_⟩
    rcases hdelete : tx.snapshot.delete role.accounts (role.accounts.identityFilter uuid) with
      b | ⟨db, n⟩
    · rw [delete_error hcheck hdelete] at h
      cases h
    · rw [delete_ok hcheck hdelete] at h
      cases h
      obtain ⟨-, -, rfl, -⟩ := Database.delete_eq_ok_iff.1 hdelete
      obtain ⟨row, hrow, hstored⟩ := hsound.exists_row haccount
      rw [Database.rows_set_self] at hrow
      obtain ⟨-, hkept⟩ := List.mem_filter.1 hrow
      -- the row would have met the filter of the deletion
      have hmeets : row.meets (role.accounts.identityFilter uuid) = true := by
        rw [Table.meets_identityFilter, hstored.get_identityKey, huuid,
          Table.toValue_identity hcheck]
      rw [hmeets] at hkept
      cases hkept

end Registrar

-- ---------------------------------------------------------------------------
-- Whole runs
-- ---------------------------------------------------------------------------

namespace Session

variable {steps : List (Timestamp × Step)} {tx : String} {opened : OpenTransaction}

/-- At any point of a run, where the copy is sound and consistent, a removal in an open transaction
answers and leaves what the removal alone does. -/
theorem delete_step (hwrites : RecordWrites steps) (hfind : (new.run steps).find? tx = some opened)
    (haccess : opened.access = .records) (now : Timestamp) (role : Role) (uuid : String) :
    (new.run steps).reply now tx (.delete role uuid) =
        ((Registrar.delete now role uuid opened.transaction).1.map
          fun _ => Answer.done).mapError .failure ∧
      ((new.run steps).step now (.operate tx (.delete role uuid))).1.find? tx =
        some { opened with transaction := (Registrar.delete now role uuid opened.transaction).2 } ∧
      opened.transaction.Removes role uuid ((new.run steps).reply now tx (.delete role uuid))
        (Registrar.delete now role uuid opened.transaction).2 := by
  have hsound := (throughout_sound hwrites).snapshot tx opened hfind
  have hconsistent := (throughout_consistent steps).snapshot tx opened hfind
  have hrun : (Operation.delete role uuid).run now =
    Registrar.delete now role uuid >>= fun _ => pure Answer.done := rfl
  obtain ⟨hanswer, hafter⟩ := operate_of_open hfind haccess hrun
  rw [hanswer]
  exact ⟨rfl, hafter, Registrar.delete_removes hsound hconsistent⟩

/-- **Deletions are exact.** Where all writing goes through operations on records, an open
transaction removes the account of a uuid and nothing else, unless the account is referred to. To
delete once more what has been deleted changes nothing, and no valid deletion of an administrator
fails. -/
theorem delete_run (hwrites : RecordWrites steps) (hfind : (new.run steps).find? tx = some opened)
    (haccess : opened.access = .records) (now : Timestamp) (role : Role) (uuid : String) :
    ∃ after, ((new.run steps).step now (.operate tx (.delete role uuid))).1.find? tx =
        some { opened with transaction := after } ∧
      opened.transaction.Removes role uuid ((new.run steps).reply now tx (.delete role uuid)) after ∧
      (∀ answer, (new.run steps).reply now tx (.delete role uuid) = .ok answer → ∀ later,
        let next := ((new.run steps).step now (.operate tx (.delete role uuid))).1
        next.reply later tx (.delete role uuid) = .ok .done ∧
          ∃ again, (next.step later (.operate tx (.delete role uuid))).1.find? tx =
              some { opened with transaction := again } ∧
            again.snapshot = after.snapshot) ∧
      (role = .admin → role.accounts.identity.check uuid = .ok () →
        (new.run steps).reply now tx (.delete role uuid) = .ok .done) := by
  obtain ⟨hanswer, hafter, hremoves⟩ := delete_step hwrites hfind haccess now role uuid
  refine ⟨_, hafter, hremoves, fun answer hok later => ?_, ?_⟩
  · have hdeleted : Registrar.delete now role uuid opened.transaction =
        (.ok (), (Registrar.delete now role uuid opened.transaction).2) := by
      rw [hanswer] at hok
      rcases hdelete : Registrar.delete now role uuid opened.transaction with ⟨e | u, after⟩
      · rw [hdelete] at hok
        cases hok
      · rfl
    -- the second deletion goes on from a run that is longer by the first
    have hnext := recordWrites_concat hwrites now tx (.delete role uuid)
    have hrun : new.run (steps ++ [(now, .operate tx (.delete role uuid))]) =
      ((new.run steps).step now (.operate tx (.delete role uuid))).1 := run_concat _ _ _
    rw [← hrun] at hafter ⊢
    have hsound := (throughout_sound hnext).snapshot tx _ hafter
    obtain ⟨hcheck, hnone⟩ := Registrar.absent_of_delete_ok hsound hdeleted
    obtain ⟨-, hagain, hremovesAgain⟩ := delete_step hnext hafter haccess later role uuid
    obtain ⟨hdone, hsame⟩ := hremovesAgain.absent hcheck hnone
    exact ⟨hdone, _, hagain, hsame⟩
  · -- no table refers to administrators, so nothing is left to refuse the deletion
    rintro rfl hcheck
    by_cases hfound : ∃ account ∈ opened.transaction.snapshot.records Role.admin.accounts,
        account.uuid = uuid
    · exact (hremoves.removed hcheck hfound nofun).1
    · exact (hremoves.absent hcheck fun account haccount huuid =>
        hfound ⟨account, haccount, huuid⟩).1

/-- Of two parents, the first has a profile, and a student is linked to this parent. -/
def linkedParent : List (Timestamp × Step) :=
  let parent := "parent-000000000001"
  [(.ofSeconds 1, .begin .records "a"),
    (.ofSeconds 2, .operate "a" (.create .parentAuths ⟨parent, ("lee1", "hash", ()), none, none⟩)),
    (.ofSeconds 3, .operate "a" (.create .parentAuths
      ⟨"parent-000000000002", ("lee2", "hash", ()), none, none⟩)),
    (.ofSeconds 4, .operate "a" (.create .parentInforms
      ⟨parent, ("Lee", "01000000001", ()), none, none⟩)),
    (.ofSeconds 5, .operate "a" (.create .studentAuths
      ⟨"student-000000000001", ("choi", "hash", some parent, ()), none, none⟩))]

/-- The first parent may not go, for the student's link; the second goes, and to delete it once more
does nothing. -/
theorem delete_run_linkedParent :
    (new.run linkedParent).reply (.ofSeconds 6) "a" (.delete .parent "parent-000000000001") =
        .error (.failure (.foreignKey ⟨⟨"memory", "student_auths", "fk_student_auths_parent_uuid",
          "parent_uuid"⟩, ⟨"parent_auths", "parent_uuid"⟩⟩)) ∧
      (((new.run linkedParent).step (.ofSeconds 6)
        (.operate "a" (.delete .parent "parent-000000000002"))).1.reply (.ofSeconds 7) "a"
          (.delete .parent "parent-000000000002") = .ok .done) ∧
      (new.run linkedParent).reply (.ofSeconds 6) "a" (.delete .admin "admin-000000000001") =
        .ok .done := by
  have hwrites : RecordWrites linkedParent := by simp [RecordWrites, linkedParent]
  have hopen : ((new.run linkedParent).find? "a").map (fun opened => (opened.access,
      (opened.transaction.snapshot.records .parentAuths).map Record.uuid,
      (opened.transaction.snapshot.records .studentAuths).map Record.referent?)) =
      some (.records, ["parent-000000000001", "parent-000000000002"],
        [some (.parent, "parent-000000000001")]) := by rfl
  obtain ⟨opened, hfind, hheld⟩ := Option.map_eq_some_iff.1 hopen
  simp only [Prod.mk.injEq] at hheld
  obtain ⟨haccess, huuids, hreferents⟩ := hheld
  have hdelete := delete_run hwrites hfind haccess (.ofSeconds 6)
  refine ⟨?_, ?_, ?_⟩
  · obtain ⟨after, -, hremoves, -⟩ := hdelete .parent "parent-000000000001"
    have haccount : "parent-000000000001" ∈
        (opened.transaction.snapshot.records .parentAuths).map Record.uuid := by simp [huuids]
    have hlinked : some (.parent, "parent-000000000001") ∈
        (opened.transaction.snapshot.records .studentAuths).map Record.referent? := by
      simp [hreferents]
    obtain ⟨fk, hfk, hrefused, -⟩ := hremoves.referenced (by rfl) (List.mem_map.1 haccount)
      .studentAuths ⟨[], [.parentInforms], rfl, List.mem_map.1 hlinked,
        List.forall_mem_nil _⟩
    cases hfk
    exact hrefused
  · obtain ⟨after, -, -, hagain, -⟩ := hdelete .parent "parent-000000000002"
    exact (hagain .done (by rfl) (.ofSeconds 7)).1
  · obtain ⟨after, -, -, -, hadmin⟩ := hdelete .admin "admin-000000000001"
    exact hadmin rfl (by rfl)

end Session

end Rollbook
