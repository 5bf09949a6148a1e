import Rollbook.Proofs.Records
import Rollbook.Proofs.Untouched

/-!
# Rollbook — lookups are exact

A lookup takes the first row that meets a filter of one column. Two things make this the record that
was asked for: the column is a key, so that no other row meets the filter, and a stored row holds in
it what its record holds, so that the filter asks for the same as the caller.

* `Database.Answers`         — the answer to a search for the one record of a kind.
* `Registrar.findBy_answers` — what the registrar finds by a key column is this answer.
* `lookup_run`               — lookups by login id and by uuid, where operations on records alone
  have written.
-/

namespace Rollbook

/-- The answer to a search for the record of which `p` holds: the record, if some row is read as it,
and then no other row is read as such a record; and else that nothing has been found. -/
structure Database.Answers (db : Database) {t : Table} (p : Record t → Prop)
    (answer : Except Refusal Answer) : Prop where
  found   : ∀ record, answer = .ok (.record t record) ↔
    ∃ row ∈ db.rows t, Record.ofColumns t row = .ok record ∧ p record
  only    : ∀ record, answer = .ok (.record t record) → ∃ front row back,
    db.rows t = front ++ row :: back ∧ Record.ofColumns t row = .ok record ∧
      ∀ other ∈ front ++ back, ∀ stored, Record.ofColumns t other = .ok stored → ¬p stored
  missing : (∀ record, answer ≠ .ok (.record t record)) → answer = .error (.failure .notFound)

-- ---------------------------------------------------------------------------
-- Lookups
-- ---------------------------------------------------------------------------

/-- The login id of an account is stored in a key column. -/
theorem Role.exists_loginColumn (role : Role) : ∃ c ∈ role.accounts.columns,
    role.accounts.isKey c = true ∧ c.name = (Attribute.text (.loginId role)).key := by
  cases role <;> decide

namespace Registrar

open Transact Transaction

variable {t : Table} {tx : Transaction}

/-- **What is found by a key column is the record that was asked for**, where the column of a stored
row tells whether its record is this one. -/
theorem findBy_answers {a : Attribute} {content : a.Content} (hsound : tx.snapshot.Sound)
    (hconsistent : tx.snapshot.Consistent) {c : Column} (hc : c ∈ t.columns)
    (hkey : t.isKey c = true) (hname : c.name = a.key) (hcheck : a.check content = .ok ())
    {p : Record t → Prop} (hvalue : ∀ row record, Record.StoredAs record row →
      (row.get a.key = a.toValue content ↔ p record)) :
    tx.snapshot.Answers p
      (((findBy t a content tx).1.map (Answer.record t)).mapError Refusal.failure) := by
  have hknown : ∀ name ∈ ((∅ : Columns).insert a.key (a.toValue content)).names,
      (t.column? name).isSome = true := by
    intro name hmem
    rw [Columns.mem_names_singleton.1 hmem]
    exact Table.column?_isSome_iff.2 ⟨c, hc, hname⟩
  have hread : ∀ row ∈ tx.snapshot.rows t, ∀ record, Record.ofColumns t row = .ok record →
      (row.get a.key = a.toValue content ↔ p record) :=
    fun row hrow record hrecord => hvalue row record ((hsound t row hrow).storedAs hrecord)
  rw [findBy, hcheck, ensure_ok_bind, first, bind_ok (select_ok hknown tx)]
  by_cases hfound : ∃ row ∈ tx.snapshot.rows t, row.get a.key = a.toValue content
  · obtain ⟨row, hrow, hown⟩ := hfound
    obtain ⟨front, back, hrows, hothers, hselect, -⟩ := hconsistent.exists_place hc hkey hrow
    rw [hname, hown] at hothers hselect
    rw [hselect]
    obtain ⟨record, hrecord⟩ := (hsound t row hrow).exists_record
    -- the row that is found is the only one with the value, so no other record is the wanted one
    have hp : p record := (hvalue row record hrecord).1 hown
    have hother : ∀ other ∈ front ++ back, ∀ stored, Record.ofColumns t other = .ok stored →
        ¬p stored := by
      intro other hmem stored hstored hp
      have hotherRow : other ∈ tx.snapshot.rows t := by
        rw [hrows, List.perm_middle.mem_iff]
        exact List.mem_cons_of_mem _ hmem
      exact hothers other hmem ((hread other hotherRow stored hstored).2 hp)
    show tx.snapshot.Answers p
      (((decoded (Record.ofColumns t row) tx).1.map (Answer.record t)).mapError Refusal.failure)
    rw [hrecord.decodes]
    refine ⟨fun stored => ⟨?_, ?_⟩, ?_, fun h => absurd rfl (h record)⟩
    · rintro ⟨⟩
      exact ⟨row, hrow, hrecord.decodes, hp⟩
    · -- a row with the wanted record is the row that was found
      rintro ⟨other, hmem, hstored, hp⟩
      rw [hrows, List.perm_middle.mem_iff] at hmem
      obtain rfl | hmem := List.mem_cons.1 hmem
      · obtain rfl : record = stored := Except.ok.inj (hrecord.decodes.symm.trans hstored)
        rfl
      · exact absurd hp (hother other hmem stored hstored)
    · rintro stored ⟨⟩
      exact ⟨front, row, back, hrows, hrecord.decodes, hother⟩
  · -- without such a row nothing is selected, and no record is the wanted one
    have hselect : tx.snapshot.select t ((∅ : Columns).insert a.key (a.toValue content)) = [] := by
      rw [Database.select, List.filter_eq_nil_iff]
      exact fun row hrow hmeets => hfound ⟨row, hrow, Columns.meets_insert_empty.1 hmeets⟩
    rw [hselect]
    refine ⟨fun record => ⟨?_, ?_⟩, ?_, fun _ => rfl⟩
    · rintro ⟨⟩
    · rintro ⟨row, hrow, hrecord, hp⟩
      exact absurd ⟨row, hrow, (hread row hrow record hrecord).2 hp⟩ hfound
    · rintro record ⟨⟩

variable {role : Role} {id uuid : String}

/-- A valid login identifier is looked up exactly: the accounts that have it are the rows that are
found. -/
theorem login_answers (hsound : tx.snapshot.Sound) (hconsistent : tx.snapshot.Consistent)
    (hcheck : (Attribute.text (.loginId role)).check id = .ok ()) :
    tx.snapshot.Answers (fun account : Record role.accounts => account.loginId? = some id)
      (((login role id tx).1.map (Answer.record role.accounts)).mapError Refusal.failure) := by
  obtain ⟨c, hc, hkey, hname⟩ := role.exists_loginColumn
  refine findBy_answers hsound hconsistent hc hkey hname hcheck fun row account hstored => ?_
  obtain ⟨held, hheld, hvalue⟩ := hstored.get_loginId
  have hwanted : (Attribute.text (.loginId role)).toValue id = .text id := rfl
  rw [hvalue, hwanted, hheld, Option.some.injEq, Value.text.injEq]

/-- A valid uuid is looked up exactly: it is a key, so the one row that has it is found. -/
theorem get_answers (hsound : tx.snapshot.Sound) (hconsistent : tx.snapshot.Consistent)
    (hcheck : t.identity.check uuid = .ok ()) :
    tx.snapshot.Answers (fun record : Record t => record.uuid = uuid)
      (((get t uuid tx).1.map (Answer.record t)).mapError Refusal.failure) := by
  obtain ⟨c, hc, hname⟩ := t.exists_identity
  -- the identity is a key column of every table
  have hkey : t.isKey c = true := by simp [Table.isKey, hname]
  refine findBy_answers hsound hconsistent hc hkey hname hcheck fun row record hstored => ?_
  have hvalue : row.get t.identity.key = .text record.uuid := hstored.get_identityKey
  rw [hvalue, Table.toValue_identity hcheck, Value.text.injEq]

/-- What is looked up by an invalid content is refused at once. -/
theorem findBy_invalid {a : Attribute} {content : a.Content} {v : Violation}
    (hcheck : a.check content = .error v) :
    findBy t a content tx = (.error (.validation v), tx) := by
  rw [findBy, hcheck, ensure_error_bind]

end Registrar

-- ---------------------------------------------------------------------------
-- Whole runs
-- ---------------------------------------------------------------------------

namespace Session

variable {steps : List (Timestamp × Step)} {tx : String} {opened : OpenTransaction}

/-- A lookup leaves its session as it was. -/
theorem agree_of_looksUp {s : Session} {operation : Operation} (hfind : s.find? tx = some opened)
    (haccess : opened.access = .records) (hlooks : operation.LooksUp) (now : Timestamp) :
    Agree (fun _ => True) (s.step now (.operate tx operation)).1 s := by
  have hnone : operation.issued? opened.transaction.snapshot = none := by
    cases operation <;> first | rfl | cases hlooks
  rw [step, inside_of_open _ hfind haccess, operation.run_state, hnone]
  exact agree_put_self hfind

/-- A login is looked up exactly at any point of a run, where the copy is sound and consistent. -/
theorem login_answers (hwrites : RecordWrites steps)
    (hfind : (new.run steps).find? tx = some opened) (haccess : opened.access = .records)
    (now : Timestamp) {role : Role} {id : String}
    (hcheck : (Attribute.text (.loginId role)).check id = .ok ()) :
    opened.transaction.snapshot.Answers
      (fun account : Record role.accounts => account.loginId? = some id)
      ((new.run steps).reply now tx (.login role id)) := by
  have hanswer : (new.run steps).reply now tx (.login role id) =
      ((Registrar.login role id opened.transaction).1.map
        (Answer.record role.accounts)).mapError .failure := (operate_of_open hfind haccess rfl).1
  rw [hanswer]
  exact Registrar.login_answers ((throughout_sound hwrites).snapshot tx opened hfind)
    ((throughout_consistent steps).snapshot tx opened hfind) hcheck

theorem get_answers (hwrites : RecordWrites steps)
    (hfind : (new.run steps).find? tx = some opened) (haccess : opened.access = .records)
    (now : Timestamp) {t : Table} {uuid : String} (hcheck : t.identity.check uuid = .ok ()) :
    opened.transaction.snapshot.Answers (fun record : Record t => record.uuid = uuid)
      ((new.run steps).reply now tx (.get t uuid)) := by
  have hanswer : (new.run steps).reply now tx (.get t uuid) =
      ((Registrar.get t uuid opened.transaction).1.map (Answer.record t)).mapError .failure :=
    (operate_of_open hfind haccess rfl).1
  rw [hanswer]
  exact Registrar.get_answers ((throughout_sound hwrites).snapshot tx opened hfind)
    ((throughout_consistent steps).snapshot tx opened hfind) hcheck

/-- What is looked up by an invalid content is refused as such. -/
theorem reply_of_invalid {s : Session} {now : Timestamp} {operation : Operation} {t : Table}
    {a : Attribute} {content : a.Content} {v : Violation} (hfind : s.find? tx = some opened)
    (haccess : opened.access = .records)
    (hrun : operation.run now =
      Registrar.findBy t a content >>= fun record => pure (Answer.record t record))
    (hcheck : a.check content = .error v) :
    s.reply now tx operation = .error (.failure (.validation v)) := by
  rw [(operate_of_open hfind haccess hrun).1, Registrar.findBy_invalid hcheck]
  rfl

/-- **Lookups are exact and agree with each other.** Where all writing goes through operations on
records, an open transaction answers to a valid login id with the account that some row of its copy
is read as and that has this login id, and no other row is read as such an account; to a valid uuid
it answers in the same way, for accounts and profiles. Where there is no such row, nothing has been
found. The account of a login id is the account of its uuid. Whatever is invalid is refused as such,
and no lookup changes anything. -/
theorem lookup_run (hwrites : RecordWrites steps) (hfind : (new.run steps).find? tx = some opened)
    (haccess : opened.access = .records) (now : Timestamp) :
    (∀ role id, (Attribute.text (.loginId role)).check id = .ok () →
      opened.transaction.snapshot.Answers
        (fun account : Record role.accounts => account.loginId? = some id)
        ((new.run steps).reply now tx (.login role id))) ∧
    (∀ t uuid, t.identity.check uuid = .ok () →
      opened.transaction.snapshot.Answers (fun record : Record t => record.uuid = uuid)
        ((new.run steps).reply now tx (.get t uuid))) ∧
    (∀ role id account,
      (new.run steps).reply now tx (.login role id) = .ok (.record role.accounts account) →
        (new.run steps).reply now tx (.get role.accounts account.uuid) =
          .ok (.record role.accounts account)) ∧
    (∀ role id v, (Attribute.text (.loginId role)).check id = .error v →
      (new.run steps).reply now tx (.login role id) = .error (.failure (.validation v))) ∧
    (∀ t uuid v, t.identity.check uuid = .error v →
      (new.run steps).reply now tx (.get t uuid) = .error (.failure (.validation v))) ∧
    ∀ operation, operation.LooksUp →
      Agree (fun _ => True) ((new.run steps).step now (.operate tx operation)).1
        (new.run steps) := by
  have hinvalid : ∀ role id v, (Attribute.text (.loginId role)).check id = .error v →
      (new.run steps).reply now tx (.login role id) = .error (.failure (.validation v)) :=
    fun role id v hcheck => reply_of_invalid hfind haccess rfl hcheck
  refine ⟨fun role id hcheck => login_answers hwrites hfind haccess now hcheck,
    fun t uuid hcheck => get_answers hwrites hfind haccess now hcheck,
    fun role id account hanswer => ?_, hinvalid,
    fun t uuid v hcheck => reply_of_invalid hfind haccess rfl hcheck,
    fun operation hlooks => agree_of_looksUp hfind haccess hlooks now⟩
  cases hcheck : (Attribute.text (.loginId role)).check id with
  | error v =>
    rw [hinvalid role id v hcheck] at hanswer
    cases hanswer
  | ok u =>
    -- the account has been read from a row, so its uuid is valid
    have hlogin := login_answers hwrites hfind haccess now hcheck
    obtain ⟨row, hrow, hread, -⟩ := (hlogin.found account).1 hanswer
    have hsound := (throughout_sound hwrites).snapshot tx opened hfind
    have hvalid := ((hsound _ row hrow).storedAs hread).check_uuid
    have hget := get_answers hwrites hfind haccess now hvalid
    exact (hget.found account).2 ⟨row, hrow, hread, rfl⟩

/-- Of two accounts, the first is deleted, and the second gets another login id. -/
def renamedAccount : List (Timestamp × Step) :=
  [(.ofSeconds 1, .begin .records "a"),
    (.ofSeconds 2, .operate "a" (.create .parentAuths
      ⟨"parent-000000000001", ("lee1", "hash", ()), none, none⟩)),
    (.ofSeconds 3, .operate "a" (.create .parentAuths
      ⟨"parent-000000000002", ("lee2", "hash", ()), none, none⟩)),
    (.ofSeconds 4, .operate "a" (.delete .parent "parent-000000000001")),
    (.ofSeconds 5, .operate "a" (.modify .parentAuths "parent-000000000002"
      ⟨none, (some "lee3", none, ())⟩))]

/-- The new login id leads to the second account, and so does its uuid; the login id of the first
account leads nowhere, and one that is too short is refused. -/
theorem lookup_run_renamedAccount :
    let account : Record .parentAuths := ⟨"parent-000000000002", ("lee3", "hash", ()),
      some (.ofSeconds 3), some (.ofSeconds 5)⟩
    (new.run renamedAccount).reply (.ofSeconds 6) "a" (.get .parentAuths "parent-000000000002") =
        .ok (.record .parentAuths account) ∧
      (new.run renamedAccount).reply (.ofSeconds 6) "a" (.login .parent "lee") =
        .error (.failure (.validation (.length (.loginId .parent) 3 4 20))) ∧
      ∃ opened, (new.run renamedAccount).find? "a" = some opened ∧
        opened.transaction.snapshot.Answers
          (fun account : Record .parentAuths => account.loginId? = some "lee3")
          (.ok (.record .parentAuths account)) ∧
        opened.transaction.snapshot.Answers
          (fun account : Record .parentAuths => account.loginId? = some "lee1")
          (.error (.failure .notFound)) := by
  intro account
  have hwrites : RecordWrites renamedAccount := by simp [RecordWrites, renamedAccount]
  have hopen : ((new.run renamedAccount).find? "a").map OpenTransaction.access =
      some .records := by rfl
  have hsecond : (new.run renamedAccount).reply (.ofSeconds 6) "a" (.login .parent "lee3") =
      .ok (.record .parentAuths account) := by rfl
  have hfirst : (new.run renamedAccount).reply (.ofSeconds 6) "a" (.login .parent "lee1") =
      .error (.failure .notFound) := by rfl
  obtain ⟨opened, hfind, haccess⟩ := Option.map_eq_some_iff.1 hopen
  obtain ⟨hlogin, -, hget, hinvalid, -⟩ := lookup_run hwrites hfind haccess (.ofSeconds 6)
  refine ⟨hget .parent "lee3" account hsecond, hinvalid .parent "lee" _ (by rfl), opened, hfind,
    ?_, ?_⟩
  · -- the answers of the run are known, and the conditions say what they mean
    rw [← hsecond]
    exact hlogin .parent "lee3" (by rfl)
  · rw [← hfirst]
    exact hlogin .parent "lee1" (by rfl)

end Session

end Rollbook
