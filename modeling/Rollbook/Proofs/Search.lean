import Rollbook.Proofs.Records

/-!
# Rollbook — searches mean what their filters say

A search is given as a sparse record and carried out as a comparison of columns. A row meets the
columns of a search just when laying them over it changes nothing, that is, when revising its record
by the search would leave the record as it is; and this is agreement, content by content, where the
zero of a content that may be missing asks for those who lack it.

* `Record.Agrees`, `Revision.Invalid` — what a search asks for, and what it may not ask for.
* `Record.StoredAs.meets_criteria_iff` — a row meets a search as its record agrees with it.
* `Registrar.uuidsMatching_eq`        — a valid search answers with the uuids of these records.
* `find_run`                          — the same where operations on records alone have written.
-/

namespace Rollbook

-- ---------------------------------------------------------------------------
-- What a search asks for
-- ---------------------------------------------------------------------------

/-- The tuple holds each supplied content, where the zero of an optional member asks for none. -/
def Details.Agrees : {ms : List Member} → Details ms → Changes ms → Prop
  | [], (), () => True
  | m :: _, (content, rest), (change, changes) =>
    (∀ wanted, change = some wanted → content = m.supplied wanted) ∧ rest.Agrees changes

/-- The record agrees with everything that the search supplies, the identity included. -/
structure Record.Agrees {t : Table} (record : Record t) (wanted : Revision t) : Prop where
  identity : ∀ uuid ∈ wanted.uuid, record.uuid = uuid
  details  : record.details.Agrees wanted.changes

/-- The search supplies an invalid content. The zero of a grade or a class is none for a teacher. -/
def Revision.Invalid {person : Person} (wanted : Revision person.profiles) : Prop :=
  (∃ uuid, wanted.uuid = some uuid ∧ person.profiles.identity.check uuid ≠ .ok ()) ∨
    ∃ m content, ⟨m, some content⟩ ∈ wanted.changes.toList ∧ m.target.check content ≠ .ok () ∧
      ¬(person = .teacher ∧ (m.target = .number .grade ∨ m.target = .number .schoolClass) ∧
        m.target.isZero content = true)

/-- A tuple agrees with changes that would leave it as it is. -/
theorem Details.revise_eq_self_iff {ms : List Member} {d : Details ms} {c : Changes ms} :
    d.revise c = d ↔ d.Agrees c := by
  induction ms with
  | nil => exact iff_of_true rfl trivial
  | cons m ms ih =>
    obtain ⟨content, rest⟩ := d
    obtain ⟨change, changes⟩ := c
    refine Prod.ext_iff.trans (and_congr ?_ ih)
    cases change with
    | none => simp [revise]
    | some wanted => simp [revise, eq_comm]

instance {ms : List Member} (d : Details ms) (c : Changes ms) : Decidable (d.Agrees c) :=
  decidable_of_iff (d.revise c = d) Details.revise_eq_self_iff

variable {t : Table}

theorem Record.agrees_iff {record : Record t} {wanted : Revision t} :
    record.Agrees wanted ↔
      (∀ uuid ∈ wanted.uuid, record.uuid = uuid) ∧ record.details.Agrees wanted.changes :=
  ⟨fun h => ⟨h.identity, h.details⟩, fun h => ⟨h.1, h.2⟩⟩

instance (record : Record t) (wanted : Revision t) : Decidable (record.Agrees wanted) :=
  decidable_of_iff _ Record.agrees_iff.symm

/-- Nothing supplied is nothing asked for. -/
theorem Details.agrees_of_none {ms : List Member} {d : Details ms} {c : Changes ms}
    (h : ∀ p ∈ c.toList, p.2 = none) : d.Agrees c := by
  induction ms with
  | nil => trivial
  | cons m ms ih =>
    obtain ⟨content, rest⟩ := d
    obtain ⟨change, changes⟩ := c
    obtain ⟨hchange, hrest⟩ := List.forall_mem_cons.1 h
    obtain rfl : change = none := hchange
    exact ⟨nofun, ih hrest⟩

/-- The records of a table that agree with a search, in table order. -/
def Database.matching (db : Database) (wanted : Revision t) : List (Record t) :=
  (db.records t).filter fun record => record.Agrees wanted

theorem Database.matching_eq_nil_iff {db : Database} {wanted : Revision t} :
    db.matching wanted = [] ↔ ∀ record ∈ db.records t, ¬record.Agrees wanted := by
  rw [matching, List.filter_eq_nil_iff]
  simp only [decide_eq_true_eq]

/-- The answer to a search for profiles. It is refused as invalid just when it supplies an invalid
content; it finds nothing just when it is valid and no record agrees with it; and else it is
answered with the uuids of the records that do, in table order and none of them twice. Each row of
the table counts as its record, and a search that supplies nothing finds all. -/
structure Database.Finds (db : Database) {person : Person} (wanted : Revision person.profiles)
    (answer : Except Refusal Answer) : Prop where
  rows     : List.Forall₂ (fun row record => Record.StoredAs record row) (db.rows person.profiles)
    (db.records person.profiles)
  invalid  : (∃ v, answer = .error (.failure (.validation v))) ↔ wanted.Invalid
  nothing  : answer = .error (.failure .notFound) ↔
    ¬wanted.Invalid ∧ ∀ record ∈ db.records person.profiles, ¬record.Agrees wanted
  found    : ¬wanted.Invalid → (∃ record ∈ db.records person.profiles, record.Agrees wanted) →
    answer = .ok (.uuids ((db.matching wanted).map Record.uuid))
  distinct : ((db.matching wanted).map Record.uuid).Nodup
  all      : wanted.uuid = none → (∀ p ∈ wanted.changes.toList, p.2 = none) →
    db.matching wanted = db.records person.profiles

-- ---------------------------------------------------------------------------
-- Valid searches
-- ---------------------------------------------------------------------------

/-- Changes pass when each that is supplied does; what is not supplied is not looked at. -/
theorem Changes.check_eq_ok_iff {ms : List Member} {c : Changes ms} :
    c.check = .ok () ↔
      ∀ m content, ⟨m, some content⟩ ∈ c.toList → m.checkChange content = .ok () := by
  rw [check, forM_eq_ok_iff]
  constructor
  · exact fun h m content hmem => h ⟨m, some content⟩ hmem
  · rintro h ⟨m, _ | content⟩ hmem
    · rfl
    · exact h m content hmem

/-- A revision passes when its uuid does, if there is one, and its changes do. -/
theorem Revision.check_eq_ok_iff {revision : Revision t} :
    revision.check = .ok () ↔
      (∀ uuid, revision.uuid = some uuid → t.identity.check uuid = .ok ()) ∧
        revision.changes.check = .ok () := by
  rw [check]
  cases revision.uuid with
  | none => exact (and_iff_right fun _ h => by cases h).symm
  | some uuid =>
    refine bind_eq_ok_iff.trans ⟨?_, ?_⟩
    · rintro ⟨⟨⟩, huuid, hchanges⟩
      exact ⟨fun _ h => Option.some.inj h ▸ huuid, hchanges⟩
    · rintro ⟨huuid, hchanges⟩
      exact ⟨(), huuid uuid rfl, hchanges⟩

/-- A supplied content passes if it is valid, or if it is the zero of a member that may be missing,
which clears it. -/
theorem Member.checkChange_eq_ok_iff {m : Member} {content : m.target.Content} :
    m.checkChange content = .ok () ↔
      m.optional = true ∧ m.target.isZero content = true ∨ m.target.check content = .ok () := by
  rw [checkChange]
  cases m.optional <;> cases m.target.isZero content <;> simp

/-- Of the details of profiles, only grade and class of a teacher may be missing. -/
theorem Person.optional_iff {person : Person} : ∀ m ∈ person.profiles.details,
    m.optional = true ↔
      person = .teacher ∧ (m.target = .number .grade ∨ m.target = .number .schoolClass) := by
  cases person <;> decide

/-- **A search passes its check unless it supplies an invalid content.** -/
theorem Revision.check_ne_ok_iff {person : Person} {wanted : Revision person.profiles} :
    wanted.check ≠ .ok () ↔ wanted.Invalid := by
  rw [ne_eq, check_eq_ok_iff, Changes.check_eq_ok_iff, not_and_or]
  push Not
  -- the two sides differ in how they tell which contents a zero may clear
  refine or_congr Iff.rfl ⟨?_, ?_⟩
  · rintro ⟨m, content, hmem, hcheck⟩
    rw [ne_eq, Member.checkChange_eq_ok_iff, not_or] at hcheck
    refine ⟨m, content, hmem, hcheck.2, fun hzero => hcheck.1 ?_⟩
    exact ⟨(Person.optional_iff m (Changes.fst_mem_of_mem_toList hmem)).2 ⟨hzero.1, hzero.2.1⟩,
      hzero.2.2⟩
  · rintro ⟨m, content, hmem, hcheck, hzero⟩
    refine ⟨m, content, hmem, ?_⟩
    rw [ne_eq, Member.checkChange_eq_ok_iff, not_or]
    refine ⟨fun hclear => hzero ?_, hcheck⟩
    obtain ⟨hteacher, htarget⟩ :=
      (Person.optional_iff m (Changes.fst_mem_of_mem_toList hmem)).1 hclear.1
    exact ⟨hteacher, htarget, hclear.2⟩

-- ---------------------------------------------------------------------------
-- Rows that meet a search
-- ---------------------------------------------------------------------------

/-- A stored row holds the columns of a search just when its record agrees with the search. -/
theorem Record.StoredAs.meets_payload_iff {row : Row} {record : Record t} {wanted : Revision t}
    (h : record.StoredAs row) :
    row.meets wanted.payload = true ↔ record.details.Agrees wanted.changes := by
  obtain ⟨-, hdetails, -⟩ := Record.ofColumns_eq_ok_iff.1 h.decodes
  rw [Columns.meets_iff, ← Details.revise_eq_self_iff]
  constructor
  · intro hmeets
    -- laid over the row the columns change nothing, so revising the record changes nothing
    have hrevised : Details.ofColumns t.details row =
        .ok (record.details.revise wanted.changes) := by
      refine Details.ofColumns_revise Table.details_keys_nodup hdetails fun m _ => ?_
      show _ = (wanted.payload.get? m.key).getD _
      cases hvalue : wanted.payload.get? m.key with
      | none => rfl
      | some value => exact hmeets m.key value hvalue
    exact Except.ok.inj (hrevised.symm.trans hdetails)
  · intro hsame name value hvalue
    obtain ⟨m, content, hmem, rfl, rfl⟩ := Changes.exists_supplied_of_get? hvalue
    -- the record is its own revision, so it has each supplied content already
    have hold : ⟨m, m.supplied content⟩ ∈ record.details.toList :=
      hsame ▸ Details.mem_revise_of_supplied hmem
    exact (h.get hold).trans (Table.toValue_supplied (Changes.fst_mem_of_mem_toList hmem) content)

/-- **A stored row meets a search as its record agrees with it.** -/
theorem Record.StoredAs.meets_criteria_iff {row : Row} {record : Record t} {wanted : Revision t}
    (h : record.StoredAs row) (hcheck : wanted.check = .ok ()) :
    row.meets wanted.criteria = true ↔ record.Agrees wanted := by
  obtain ⟨huuid, -⟩ := Revision.check_eq_ok_iff.1 hcheck
  rw [Record.agrees_iff, ← h.meets_payload_iff, Revision.criteria]
  cases hid : wanted.uuid with
  | none => simp
  | some uuid =>
    rw [Columns.meets_insert wanted.get?_payload_identityKey, h.get_identityKey,
      Table.toValue_identity (huuid uuid hid), Value.text.injEq]
    simp

-- ---------------------------------------------------------------------------
-- Searches
-- ---------------------------------------------------------------------------

namespace Registrar

open Transact Transaction

variable {tx : Transaction} {wanted : Revision t}

/-- What can be decoded one by one is decoded as a whole. -/
theorem mapM_decoded {α β : Type} {f : α → Except DecodeError β} {xs : List α} {ys : List β}
    (h : List.Forall₂ (fun a b => f a = .ok b) xs ys) :
    (xs.mapM fun a => decoded (f a)) tx = (.ok ys, tx) := by
  induction h with
  | nil => rfl
  | cons hhead htail ih =>
    rw [List.mapM_cons, hhead, decoded_ok_bind, bind_ok ih]
    rfl

/-- **A valid search answers with the uuids of the records that agree with it**, in the order of the
table. -/
theorem uuidsMatching_eq (hsound : tx.snapshot.Sound) (hcheck : wanted.check = .ok ()) :
    uuidsMatching wanted tx =
      (if tx.snapshot.matching wanted = [] then .error .notFound
      else .ok ((tx.snapshot.matching wanted).map Record.uuid), tx) := by
  -- the rows that are chosen are those of the records that agree, one by one
  have hmatching : List.Forall₂ (fun row record => Record.StoredAs record row)
      (tx.snapshot.select t wanted.criteria) (tx.snapshot.matching wanted) :=
    hsound.forall₂_select fun row record hstored => by
      rw [decide_eq_true_eq, hstored.meets_criteria_iff hcheck]
  rw [uuidsMatching, hcheck, ensure_ok_bind, bind_ok (select_ok wanted.known_criteria tx)]
  cases hrows : tx.snapshot.select t wanted.criteria with
  | nil =>
    rw [hrows, List.forall₂_nil_left_iff] at hmatching
    rw [hmatching, if_pos rfl]
    rfl
  | cons row rest =>
    have hnonempty : tx.snapshot.matching wanted ≠ [] := by
      intro hnil
      rw [hrows, hnil] at hmatching
      cases hmatching
    rw [hrows] at hmatching
    rw [if_neg hnonempty]
    refine mapM_decoded ?_
    rw [List.forall₂_map_right_iff]
    exact hmatching.imp fun row record hstored =>
      (Record.ofColumns_eq_ok_iff.1 hstored.decodes).1

theorem uuidsMatching_invalid {v : Violation} (hcheck : wanted.check = .error v) :
    uuidsMatching wanted tx = (.error (.validation v), tx) := by
  rw [uuidsMatching, hcheck, ensure_error_bind]

/-- A search gives all that is asked of it. One structure holds the conditions, so that each of the
cases of the search is considered for each of them. -/
theorem uuidsMatching_finds {person : Person} (hsound : tx.snapshot.Sound)
    (hconsistent : tx.snapshot.Consistent) (wanted : Revision person.profiles) :
    tx.snapshot.Finds wanted
      (((uuidsMatching wanted tx).1.map Answer.uuids).mapError Refusal.failure) where
  rows := hsound.forall₂_records _
  invalid := by
    rw [← Revision.check_ne_ok_iff]
    cases hcheck : wanted.check with
    | error v =>
      rw [uuidsMatching_invalid hcheck]
      exact iff_of_true ⟨v, rfl⟩ nofun
    | ok u =>
      rw [uuidsMatching_eq hsound hcheck]
      split <;> simp [Except.map, Except.mapError]
  nothing := by
    rw [← Revision.check_ne_ok_iff, ← Database.matching_eq_nil_iff, not_not]
    cases hcheck : wanted.check with
    | error v =>
      rw [uuidsMatching_invalid hcheck]
      exact iff_of_false nofun nofun
    | ok u =>
      rw [uuidsMatching_eq hsound hcheck]
      split
      · next hnil => exact iff_of_true rfl ⟨rfl, hnil⟩
      · next hfound => exact iff_of_false nofun fun h => hfound h.2
  found hvalid hfound := by
    rw [← Revision.check_ne_ok_iff, not_not] at hvalid
    have hnonempty : tx.snapshot.matching wanted ≠ [] := by
      rw [ne_eq, Database.matching_eq_nil_iff]
      exact fun hnone => hfound.elim fun record h => hnone record h.1 h.2
    rw [uuidsMatching_eq hsound hvalid, if_neg hnonempty]
    rfl
  -- the uuids are a sublist of those of all records, which are distinct
  distinct := (Database.records_uuid_nodup hsound hconsistent _).sublist
    (List.filter_sublist.map Record.uuid)
  all hid hchanges := by
    refine List.filter_eq_self.2 fun record _ => decide_eq_true ⟨?_, Details.agrees_of_none hchanges⟩
    rw [hid]
    exact nofun

end Registrar

-- ---------------------------------------------------------------------------
-- Whole runs
-- ---------------------------------------------------------------------------

namespace Session

variable {steps : List (Timestamp × Step)} {tx : String} {opened : OpenTransaction}

/-- **Searches mean what their filters say**, where all writing goes through operations on records:
an open transaction answers as the records of its copy agree with what is supplied. -/
theorem find_run (hwrites : RecordWrites steps) (hfind : (new.run steps).find? tx = some opened)
    (haccess : opened.access = .records) (now : Timestamp) (person : Person)
    (wanted : Revision person.profiles) :
    opened.transaction.snapshot.Finds wanted
      ((new.run steps).reply now tx (.find person wanted)) := by
  have hsound := (throughout_sound hwrites).snapshot tx opened hfind
  have hconsistent := (throughout_consistent steps).snapshot tx opened hfind
  have hanswer : (new.run steps).reply now tx (.find person wanted) =
      ((Registrar.uuidsMatching wanted opened.transaction).1.map Answer.uuids).mapError .failure :=
    (operate_of_open hfind haccess rfl).1
  rw [hanswer]
  exact Registrar.uuidsMatching_finds hsound hconsistent wanted

/-- Two teachers of one grade, of whom only the first has a class. -/
def classAssigned : List (Timestamp × Step) :=
  [(.ofSeconds 1, .begin .records "a"),
    (.ofSeconds 2, .operate "a" (.create .teacherAuths
      ⟨"teacher-000000000001", ("kim1", "hash", ()), none, none⟩)),
    (.ofSeconds 3, .operate "a" (.create .teacherInforms
      ⟨"teacher-000000000001", (some (2 : UInt8), some (1 : UInt8), "Kim", "01000000001", ()),
        none, none⟩)),
    (.ofSeconds 4, .operate "a" (.create .teacherAuths
      ⟨"teacher-000000000002", ("park", "hash", ()), none, none⟩)),
    (.ofSeconds 5, .operate "a" (.create .teacherInforms
      ⟨"teacher-000000000002", (some (2 : UInt8), none, "Park", "01000000002", ()), none, none⟩))]

/-- A search for the teachers of the second grade who have no class. -/
def withoutClass : Revision Person.teacher.profiles :=
  ⟨none, (some (2 : UInt8), some (0 : UInt8), none, none, ())⟩

/-- A search for the students of no grade. -/
def withoutGrade : Revision Person.student.profiles :=
  ⟨none, (some (0 : UInt8), none, none, none, none, none, ())⟩

/-- The second teacher is found to have no class, and to ask for students of no grade is invalid. -/
theorem find_run_classAssigned :
    (∃ opened, (new.run classAssigned).find? "a" = some opened ∧
      opened.transaction.snapshot.Finds withoutClass (.ok (.uuids ["teacher-000000000002"]))) ∧
      ∃ v, (new.run classAssigned).reply (.ofSeconds 6) "a" (.find .student withoutGrade) =
        .error (.failure (.validation v)) := by
  have hwrites : RecordWrites classAssigned := by simp [RecordWrites, classAssigned]
  have hopen : ((new.run classAssigned).find? "a").map OpenTransaction.access =
      some .records := by rfl
  have hfound : (new.run classAssigned).reply (.ofSeconds 6) "a" (.find .teacher withoutClass) =
      .ok (.uuids ["teacher-000000000002"]) := by rfl
  obtain ⟨opened, hfind, haccess⟩ := Option.map_eq_some_iff.1 hopen
  have hfinds := find_run hwrites hfind haccess (.ofSeconds 6)
  constructor
  · refine ⟨opened, hfind, ?_⟩
    rw [← hfound]
    exact hfinds .teacher withoutClass
  · refine (hfinds .student withoutGrade).invalid.2 (.inr ?_)
    exact ⟨.required "grade" (.number .grade), (0 : UInt8), .head _, by decide, by decide⟩

end Session

end Rollbook
