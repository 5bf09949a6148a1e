import Rollbook.Proofs.Outcome
import Rollbook.Proofs.Records
import Rollbook.Proofs.Search
import Rollbook.Proofs.Taken

/-!
# Rollbook — one revision in the place of two

Two revisions of one record, made one after the other, come to the same as the one revision in which
the contents of the second override those of the first. What the two write is the same by the laws
of overlays; that the one is accepted does not follow step by step, since it is checked against rows
that neither of the two was checked against. It follows from where the two have led: a revision is
accepted if the rows that it leaves are consistent and keep the seats apart, and the moment of the
last change, in which alone the two outcomes may differ, is no part of either.

* `Revision.payload_override`     — what the combined revision writes.
* `Registrar.modify_of_outcome`   — a revision with a good outcome is accepted.
* `Registrar.modify_override`     — one revision in the place of two.
* `Registrar.modify_again`        — a revision that is made again changes nothing.
* `modify_composes`               — both, for a transaction in any run.
-/

namespace Rollbook

variable {t : Table} {now : Timestamp}

-- ---------------------------------------------------------------------------
-- Combined revisions
-- ---------------------------------------------------------------------------

/-- The changes of both, where the second override the first member by member. -/
def Changes.override : {ms : List Member} → Changes ms → Changes ms → Changes ms
  | [], _, _ => ()
  | _ :: _, (first, firsts), (second, seconds) => (second.or first, firsts.override seconds)

/-- The revision that supplies what either supplies, and of what both supply the second. -/
def Revision.override (first second : Revision t) : Revision t :=
  ⟨second.uuid.or first.uuid, first.changes.override second.changes⟩

namespace Changes

variable {ms : List Member} {first second : Changes ms}

/-- What is supplied by both together is supplied by one of them. -/
theorem mem_of_mem_override {m : Member} {content : m.target.Content}
    (h : ⟨m, some content⟩ ∈ (first.override second).toList) :
    ⟨m, some content⟩ ∈ first.toList ∨ ⟨m, some content⟩ ∈ second.toList := by
  induction ms with
  | nil => cases h
  | cons head ms ih =>
    obtain ⟨change, firsts⟩ := first
    obtain ⟨later, seconds⟩ := second
    rcases List.mem_cons.1 h with heq | h
    · obtain ⟨rfl, heq⟩ := Sigma.mk.inj heq
      rcases Option.or_eq_some_iff.1 (eq_of_heq heq).symm with rfl | ⟨-, rfl⟩
      · exact .inr List.mem_cons_self
      · exact .inl List.mem_cons_self
    · exact (ih h).imp (List.mem_cons_of_mem _) (List.mem_cons_of_mem _)

/-- Changes of other members have no column of the first one. -/
theorem get?_toColumns_of_not_mem {name : String} {c : Changes ms}
    (h : name ∉ ms.map Member.key) : c.toColumns.get? name = none := by
  cases hvalue : c.toColumns.get? name with
  | none => rfl
  | some value =>
    obtain ⟨m, hm, -, hkey, -⟩ := exists_of_get? hvalue
    exact absurd (List.mem_map.2 ⟨m, hm, hkey⟩) h

/-- What the first member supplies, and what the others do. A member that supplies nothing leaves
its column to the others, where it does not occur again. -/
theorem get?_toColumns_cons {m : Member} (change : Option m.target.Content) (rest : Changes ms)
    (name : String) :
    (@toColumns (m :: ms) (change, rest)).get? name =
      if name = m.key then (change.map m.target.toValue).or (rest.toColumns.get? name)
      else rest.toColumns.get? name := by
  cases change with
  | none => exact (ite_self _).symm
  | some content => exact Columns.get?_insert _ _ _ _

/-- The columns of both together are the second laid over the first. -/
theorem toColumns_override (hkeys : (ms.map Member.key).Nodup) (first second : Changes ms) :
    (first.override second).toColumns = first.toColumns.overlay second.toColumns := by
  ext name : 1
  rw [Columns.get?_overlay]
  induction ms with
  | nil => rfl
  | cons m ms ih =>
    obtain ⟨change, firsts⟩ := first
    obtain ⟨later, seconds⟩ := second
    obtain ⟨hhead, hkeys⟩ := List.nodup_cons.1 hkeys
    rw [override, get?_toColumns_cons, get?_toColumns_cons, get?_toColumns_cons, ih hkeys]
    by_cases hname : name = m.key
    · -- no other member is stored in the column of the first one
      rw [← hname] at hhead
      rw [if_pos hname, if_pos hname, if_pos hname, get?_toColumns_of_not_mem hhead,
        get?_toColumns_of_not_mem hhead]
      cases later <;> simp
    · rw [if_neg hname, if_neg hname, if_neg hname]

end Changes

namespace Revision

variable {first second : Revision t}

/-- The override of two revisions sets what the second sets, and what the first sets besides. -/
theorem payload_override (first second : Revision t) :
    (first.override second).payload = first.payload.overlay second.payload :=
  Changes.toColumns_override Table.details_keys_nodup _ _

/-- The override names no uuid if neither revision does. -/
theorem uuid_override (hfirst : first.uuid = none) (hsecond : second.uuid = none) :
    (first.override second).uuid = none := by
  rw [override, hfirst, hsecond]
  rfl

/-- Valid revisions make a valid one together. -/
theorem check_override (hfirst : first.check = .ok ()) (hsecond : second.check = .ok ()) :
    (first.override second).check = .ok () := by
  obtain ⟨hfirstUuid, hfirstChanges⟩ := check_eq_ok_iff.1 hfirst
  obtain ⟨hsecondUuid, hsecondChanges⟩ := check_eq_ok_iff.1 hsecond
  refine check_eq_ok_iff.2 ⟨fun uuid huuid => ?_, Changes.check_eq_ok_iff.2 ?_⟩
  · rcases Option.or_eq_some_iff.1 huuid with h | ⟨-, h⟩
    · exact hsecondUuid uuid h
    · exact hfirstUuid uuid h
  · intro m content hmem
    rcases Changes.mem_of_mem_override hmem with h | h
    · exact Changes.check_eq_ok_iff.1 hfirstChanges m content h
    · exact Changes.check_eq_ok_iff.1 hsecondChanges m content h

end Revision

-- ---------------------------------------------------------------------------
-- Rows that differ in the moment of their last change
-- ---------------------------------------------------------------------------

namespace Columns

/-- Two overlays, one after the other, are one. -/
theorem overlay_overlay (row first second : Columns) :
    (row.overlay first).overlay second = row.overlay (first.overlay second) := by
  ext name : 1
  simp only [get?_overlay, Option.or_assoc]

/-- The two are equal column by column, but for one column. -/
def EqualBut (but : String) (a b : Columns) : Prop := ∀ name, name ≠ but → a.get? name = b.get? name

variable {but : String} {a b c : Columns}

theorem EqualBut.symm (h : a.EqualBut but b) : b.EqualBut but a :=
  fun name hname => (h name hname).symm

theorem EqualBut.trans (h : a.EqualBut but b) (h' : b.EqualBut but c) : a.EqualBut but c :=
  fun name hname => (h name hname).trans (h' name hname)

theorem EqualBut.get (h : a.EqualBut but b) {name : String} (hname : name ≠ but) :
    a.get name = b.get name := by
  rw [Columns.get, h name hname]
  rfl

theorem EqualBut.overlay (h : a.EqualBut but b) (changes : Columns) :
    (a.overlay changes).EqualBut but (b.overlay changes) := by
  intro name hname
  rw [get?_overlay, get?_overlay, h name hname]

end Columns

namespace Database

variable {filter payload : Columns} {row : Row} {uuid : String}

theorem revise_of_not_meets (h : ¬row.meets filter = true) (payload : Columns) (now : Timestamp) :
    revise filter payload now row = row := by
  rw [revise_eq_ite, if_neg fun halters => h halters.1]

/-- An updated row is the row with the new values, up to the moment. -/
theorem equalBut_revise (h : row.meets filter = true) (payload : Columns) (now : Timestamp) :
    (revise filter payload now row).EqualBut updatedAtKey (row.overlay payload) := by
  intro name hname
  rw [revise_eq_ite]
  by_cases hsame : row.overlay payload = row
  · rw [if_neg fun halters => halters.2 hsame, hsame]
  · rw [if_pos ⟨h, hsame⟩, Columns.get?_insert_of_ne _ _ hname]

/-- A row keeps its uuid in an update by a revision. -/
theorem meets_revise_iff (revision : Revision t) (now : Timestamp) :
    (revise (t.identityFilter uuid) revision.payload now row).meets (t.identityFilter uuid) = true ↔
      row.meets (t.identityFilter uuid) = true := by
  rw [Table.meets_identityFilter, Table.meets_identityFilter,
    revision.get_revise _ _ _ Table.identityKey_ne_updatedAt Table.identityKey_not_detail]

/-- A row that has been updated twice is the row that is updated once by both, up to the moment. -/
theorem equalBut_revise_revise (hmeets : row.meets (t.identityFilter uuid) = true)
    (first second : Revision t) (moment later now : Timestamp) :
    (revise (t.identityFilter uuid) second.payload later
      (revise (t.identityFilter uuid) first.payload moment row)).EqualBut updatedAtKey
        (revise (t.identityFilter uuid) (first.override second).payload now row) := by
  have hfirst := equalBut_revise hmeets first.payload moment
  have hsecond := equalBut_revise ((meets_revise_iff first moment).2 hmeets) second.payload later
  have honce := equalBut_revise hmeets (first.override second).payload now
  have hpayload : row.overlay (first.override second).payload =
      (row.overlay first.payload).overlay second.payload := by
    rw [Revision.payload_override, Columns.overlay_overlay]
  rw [hpayload] at honce
  exact (hsecond.trans (hfirst.overlay second.payload)).trans honce.symm

/-- A row that has been updated holds the new values already. -/
theorem overlay_revise (revision : Revision t) (hmeets : row.meets filter = true)
    (now : Timestamp) :
    (revise filter revision.payload now row).overlay revision.payload =
      revise filter revision.payload now row := by
  ext name : 1
  rw [Columns.get?_overlay]
  by_cases hname : name = updatedAtKey
  · rw [hname, revision.get?_payload_eq_none Table.detail_ne_updatedAt, Option.none_or]
  · rw [equalBut_revise hmeets revision.payload now name hname, Columns.get?_overlay,
      ← Option.or_assoc, Option.or_self]

end Database

-- ---------------------------------------------------------------------------
-- Databases that differ in the moment of one row
-- ---------------------------------------------------------------------------

/-- The same rows in all tables and in the same order, except that the row of a uuid may have been
changed last at another moment. -/
structure Database.EqualButMoment (t : Table) (uuid : String) (a b : Database) : Prop where
  tables : ∀ t', t' ≠ t → b.rows t' = a.rows t'
  rows   : List.Forall₂ (fun r r' => r.EqualBut updatedAtKey r' ∧
    (r.get t.identityKey ≠ t.identity.toValue uuid → r = r')) (a.rows t) (b.rows t)

/-- A reference is no moment, on either side. -/
theorem Table.reference_ne_updatedAt {t : Table} : ∀ fk ∈ t.foreignKeys,
    fk.column ≠ updatedAtKey ∧ fk.refColumn ≠ updatedAtKey := by
  cases t <;> decide

namespace Database.EqualButMoment

variable {a b : Database} {uuid : String}

/-- Row by row, the tables agree but for the moment, those not revised even in that. -/
theorem forall₂ (h : EqualButMoment t uuid a b) (t' : Table) :
    List.Forall₂ (Columns.EqualBut updatedAtKey) (a.rows t') (b.rows t') := by
  by_cases ht : t' = t
  · subst ht
    exact h.rows.imp fun _ _ hrows => hrows.1
  · rw [h.tables t' ht, List.forall₂_same]
    exact fun _ _ _ _ => rfl

/-- The tables hold the same values in every other column. -/
theorem map_get (h : EqualButMoment t uuid a b) (t' : Table) {name : String}
    (hname : name ≠ updatedAtKey) :
    (a.rows t').map (fun row => row.get name) = (b.rows t').map fun row => row.get name :=
  map_eq_map_of_forall₂ (h.forall₂ t') fun _ _ hrows => hrows.get hname

/-- A value other than the moment is found in both databases or in neither. -/
theorem exists_get_iff (h : EqualButMoment t uuid a b) {t' : Table} {name : String}
    (hname : name ≠ updatedAtKey) {value : Value} :
    (∃ row ∈ a.rows t', row.get name = value) ↔ ∃ row ∈ b.rows t', row.get name = value := by
  rw [← List.mem_map, ← List.mem_map, h.map_get t' hname]

/-- Consistency does not depend on the moment of the last change, as long as there is one. -/
theorem consistent (h : EqualButMoment t uuid a b) (ha : a.Consistent) (hb : b.Sound) :
    b.Consistent where
  fits t' row hrow :=
    ⟨(hb t' row hrow).columns, nullColumn?_eq_none_iff.1 (hb t' row hrow).nullColumn?_eq_none⟩
  keys t' c hc hkey := by
    rw [← h.map_get t' (Table.ne_updatedAt_of_isKey c hc hkey)]
    exact ha.keys t' c hc hkey
  references t' row hrow fk hfk hvalue := by
    obtain ⟨hcolumn, hrefColumn⟩ := Table.reference_ne_updatedAt fk hfk
    obtain ⟨old, hold, hsame⟩ := (h.exists_get_iff hcolumn).2 ⟨row, hrow, rfl⟩
    rw [← hsame] at hvalue ⊢
    exact (h.exists_get_iff hrefColumn).1 (ha.references t' old hold fk hfk hvalue)

/-- Neither does the seat of a uuid. -/
theorem seat?_eq (h : EqualButMoment t uuid a b) (t' : Table) (id : Value) :
    b.seat? t' id = a.seat? t' id := by
  have hseat : ∀ db : Database, db.seat? t' id =
      (((db.rows t').map fun row => (row.get t'.identityKey, t'.seat row)).find?
        fun p => p.1 = id).map Prod.snd := by
    intro db
    rw [seat?, List.find?_map, Option.map_map]
    rfl
  have hsame : (a.rows t').map (fun row => (row.get t'.identityKey, t'.seat row)) =
      (b.rows t').map fun row => (row.get t'.identityKey, t'.seat row) := by
    refine map_eq_map_of_forall₂ (h.forall₂ t') fun row row' hrows => ?_
    have hseats : t'.seat row = t'.seat row' :=
      Table.seat_eq_iff.2 fun name hname => hrows.get (Table.composite_ne_updatedAt name hname)
    rw [hrows.get Table.identityKey_ne_updatedAt, hseats]
  rw [hseat, hseat, hsame]

end Database.EqualButMoment

-- ---------------------------------------------------------------------------
-- What a revision makes of a database
-- ---------------------------------------------------------------------------

/-- The database with the contents of the revision laid over the row of a uuid. -/
def Revision.apply (revision : Revision t) (uuid : String) (now : Timestamp) (db : Database) :
    Database :=
  db.set t ((db.rows t).map (Database.revise (t.identityFilter uuid) revision.payload now))

namespace Revision

variable {db : Database} {uuid : String} {revision first second : Revision t}

theorem rows_apply (revision : Revision t) (uuid : String) (now : Timestamp) (db : Database) :
    (revision.apply uuid now db).rows t =
      (db.rows t).map (Database.revise (t.identityFilter uuid) revision.payload now) :=
  Database.rows_set_self _ _ _

/-- A valid revision leaves valid records. -/
theorem sound_apply (h : db.Sound) (hcheck : revision.check = .ok ()) (uuid : String)
    (now : Timestamp) : (revision.apply uuid now db).Sound := by
  refine Database.forall_rows_set h fun row hrow => ?_
  obtain ⟨old, hold, rfl⟩ := List.mem_map.1 hrow
  rw [Database.revise]
  cases hrevised : Database.revised? (t.identityFilter uuid) revision.payload now old with
  | none => exact h t old hold
  | some next => exact (h t old hold).revised hcheck hrevised

/-- **Both revisions one after the other come to the same as the one**, up to the moment of the last
change. -/
theorem apply_apply (first second : Revision t) (moment later now : Timestamp) (db : Database) :
    Database.EqualButMoment t uuid (second.apply uuid later (first.apply uuid moment db))
      ((first.override second).apply uuid now db) where
  tables t' ht := by
    simp only [apply, Database.rows_set_of_ne _ _ ht]
  rows := by
    rw [rows_apply, rows_apply, rows_apply, List.map_map, List.forall₂_map_left_iff,
      List.forall₂_map_right_iff, List.forall₂_same]
    intro row _
    rw [Function.comp_apply]
    -- the row of the uuid is revised on both sides, any other row on none
    by_cases hmeets : row.meets (t.identityFilter uuid) = true
    · refine ⟨Database.equalBut_revise_revise hmeets first second moment later now, ?_⟩
      intro hother
      -- a revision leaves the uuid, so this row is still the one of the uuid
      have hidentity := (Database.meets_revise_iff second later).2
        ((Database.meets_revise_iff first moment).2 hmeets)
      exact absurd (Table.meets_identityFilter.1 hidentity) hother
    · rw [Database.revise_of_not_meets hmeets, Database.revise_of_not_meets hmeets,
        Database.revise_of_not_meets hmeets]
      exact ⟨fun _ _ => rfl, fun _ => rfl⟩

/-- A revision that has been made changes nothing when it is made again. -/
theorem apply_self (revision : Revision t) (now later : Timestamp) (db : Database) :
    revision.apply uuid later (revision.apply uuid now db) = revision.apply uuid now db := by
  have hsame : ∀ row ∈ (revision.apply uuid now db).rows t,
      row.meets (t.identityFilter uuid) = true → row.overlay revision.payload = row := by
    intro row hrow hmeets
    rw [rows_apply] at hrow
    obtain ⟨old, -, rfl⟩ := List.mem_map.1 hrow
    exact Database.overlay_revise revision ((Database.meets_revise_iff revision now).1 hmeets) now
  have hrows := Database.map_revise_of_same later hsame
  conv_lhs => rw [apply]
  rw [hrows, Database.set_rows]

end Revision

-- ---------------------------------------------------------------------------
-- Good databases
-- ---------------------------------------------------------------------------

/-- A valid record with a composite key holds a full seat. -/
theorem Record.full_of_compositeKey {record : Record t} {key : CompositeKey}
    (hcheck : record.check = .ok ()) (hkey : record.compositeKey = some key) :
    t.compositeColumns ≠ [] ∧ t.Full (t.seat record.toColumns) := by
  have hvalid := Details.check_eq_ok_iff.1 (check_eq_ok_iff.1 hcheck).2
  have hvalue : ∀ p ∈ record.details.toList, p.1.toValue p.2 ≠ .null →
      record.toColumns.get p.1.key ≠ .null := by
    intro p hp hvalue
    rwa [get_toColumns_of_mem hp]
  obtain ⟨uuid, details, created, updated⟩ := record
  cases t with
  -- the columns of a student's seat must all be there
  | studentInforms =>
    refine ⟨by decide, fun name hname => ?_⟩
    have hrequired : ∀ m ∈ Table.studentInforms.details,
        m.key ∈ Table.studentInforms.compositeColumns → m.optional = false := by decide
    obtain ⟨m, hm, rfl⟩ := Table.exists_detail_of_composite name hname
    rw [Table.seat_of_mem hname]
    exact ((Table.valid_toColumns hcheck).details m hm).ne_null (hrequired m hm hname)
  | teacherInforms =>
    refine ⟨by decide, fun name hname => ?_⟩
    rw [Table.seat_of_mem hname]
    obtain ⟨_ | grade, _ | schoolClass, rest⟩ := details <;> cases hkey
    -- a teacher's key is made of contents that are not zero, because they are valid
    have hgradeCheck : (Attribute.number .grade).check grade = .ok () :=
      hvalid ⟨.possible "grade" (.number .grade), some grade⟩ (.head _)
    have hclassCheck : (Attribute.number .schoolClass).check schoolClass = .ok () :=
      hvalid ⟨.possible "class" (.number .schoolClass), some schoolClass⟩ (.tail _ (.head _))
    have hgrade := hvalue ⟨.possible "grade" (.number .grade), some grade⟩ (.head _)
      (Attribute.toValue_ne_null (Attribute.isZero_of_check hgradeCheck))
    have hclass := hvalue ⟨.possible "class" (.number .schoolClass), some schoolClass⟩
      (.tail _ (.head _)) (Attribute.toValue_ne_null (Attribute.isZero_of_check hclassCheck))
    simp only [Table.compositeColumns, List.mem_cons, List.not_mem_nil, or_false] at hname
    rcases hname with rfl | rfl
    · exact hgrade
    · exact hclass
  | _ => cases hkey

namespace Database

/-- What holds of every database that operations on records have led to from a good one: its rows
are valid records, it is consistent, and its seats are apart. -/
structure Good (db : Database) : Prop where
  sound      : db.Sound
  consistent : db.Consistent
  apart      : db.SeatsApart

namespace Good

variable {db next : Database} {n : Nat} {uuid : String} {revision : Revision t}

/-- A statement that an operation issues leaves a good state good: each of the three properties is
kept, and the last needs the first. -/
theorem execute {operation : Operation} {statement : Statement} (h : db.Good)
    (hissued : operation.issued? db = some statement)
    (hexecute : db.execute now statement = .ok (next, n)) : next.Good where
  sound := keeps_sound _ _ _ _ _ h.sound (Operation.checked_of_issued? hissued) hexecute
  consistent := h.consistent.execute hexecute
  apart := h.apart.execute h.sound.typed hissued hexecute

/-- What is equal to a good database but for a moment is good if its rows are sound. -/
theorem of_equalButMoment {a b : Database} (h : a.Good) (hsound : b.Sound)
    (hequal : EqualButMoment t uuid a b) : b.Good where
  sound := hsound
  consistent := hequal.consistent h.consistent hsound
  apart := h.apart.of_unmoved fun t' id _ => hequal.seat?_eq t' id

/-- The record that the check of a revision makes holds the seat that its row has afterwards. -/
theorem seat_revise_eq {row : Row} {record merged : Record t} (h : db.Good)
    (hcheck : revision.check = .ok ()) (hrow : row ∈ db.rows t)
    (hown : row.get t.identityKey = t.identity.toValue uuid) (hstored : record.StoredAs row)
    (hdetails : merged.details = (record.revise revision now).details) :
    t.seat (revise (t.identityFilter uuid) revision.payload now row) = t.seat merged.toColumns := by
  have hrevised := hstored.revise (h.sound t row hrow) hcheck hown now
  refine Table.seat_eq_iff.2 fun name hname => ?_
  obtain ⟨m, hm, rfl⟩ := Table.exists_detail_of_composite name hname
  obtain ⟨p, hp, rfl⟩ := Details.exists_mem_toList (d := merged.details) hm
  rw [Record.get_toColumns_of_mem hp]
  exact hrevised.get (hdetails ▸ hp)

/-- **If a revision leads to a good database, nobody else holds the composite key that it asks
for.** -/
theorem vacant_of_apply {row : Row} {record merged : Record t} (h : db.Good)
    (hleads : (revision.apply uuid now db).Good) (hcheck : revision.check = .ok ())
    (hrow : row ∈ db.rows t) (hown : row.get t.identityKey = t.identity.toValue uuid)
    (hstored : record.StoredAs row) (hvalid : merged.check = .ok ())
    (hdetails : merged.details = (record.revise revision now).details) :
    merged.compositeKey.all
      (fun key => db.vacant t key (some (t.identity.toValue uuid))) = true := by
  rw [Option.all_eq_true]
  intro key hkey
  by_contra htaken
  rw [Bool.not_eq_true, vacant_eq_false_iff] at htaken
  obtain ⟨other, hother, howner, hmeets⟩ := htaken
  obtain ⟨hcomposite, hfull⟩ := Record.full_of_compositeKey hvalid hkey
  obtain ⟨_, hsome, hfilter⟩ := Record.exists_compositeKey hcomposite hfull
  obtain rfl := Option.some.inj (hkey.symm.trans hsome)
  -- the row of another uuid stays, so that two rows would hold the same seat afterwards
  have hnot : ¬other.meets (t.identityFilter uuid) = true :=
    fun hown => howner (congrArg some (Table.meets_identityFilter.1 hown).symm)
  have hotherLeft : other ∈ (revision.apply uuid now db).rows t := by
    rw [Revision.rows_apply]
    exact List.mem_map.2 ⟨other, hother, revise_of_not_meets hnot _ _⟩
  have hrowLeft : revise (t.identityFilter uuid) revision.payload now row ∈
      (revision.apply uuid now db).rows t := by
    rw [Revision.rows_apply]
    exact List.mem_map_of_mem hrow
  have hotherSeat := seat?_of_mem hleads.consistent hotherLeft
  have hrowSeat := seat?_of_mem hleads.consistent hrowLeft
  rw [(Record.meets_compositeKey hkey hfilter).1 hmeets] at hotherSeat
  rw [h.seat_revise_eq hcheck hrow hown hstored hdetails,
    revision.get_revise _ _ _ Table.identityKey_ne_updatedAt Table.identityKey_not_detail,
    hown] at hrowSeat
  exact howner (congrArg some (hleads.apart t hcomposite _ _ _ hrowSeat hotherSeat hfull))

end Good

end Database

-- ---------------------------------------------------------------------------
-- Revisions by the registrar
-- ---------------------------------------------------------------------------

namespace Registrar

open Transact Transaction

variable {uuid : String} {revision first second : Revision t} {tx after : Transaction}

/-- A good copy is left good, whatever becomes of the revision. -/
theorem good_modify (h : tx.snapshot.Good) (now : Timestamp) (uuid : String)
    (revision : Revision t) : (modify now uuid revision tx).2.snapshot.Good := by
  rw [modify_state]
  rcases tx.attempt_cases now ((Operation.modify t uuid revision).issued? tx.snapshot) with
    hsame | ⟨statement, db, n, hissued, hexecute, hafter⟩
  · rw [hsame]
    exact h
  · rw [hafter]
    exact h.execute hissued hexecute

/-- The write of a revision goes through if it leads to a consistent database. -/
theorem update_of_outcome (h : tx.snapshot.Consistent) (hpayload : ¬revision.payload.isEmpty = true)
    (hleads : (revision.apply uuid now tx.snapshot).Consistent) :
    ∃ after, (do
      let _ ← update now t (t.identityFilter uuid) revision.payload : Transact Unit) tx =
        (.ok (), after) := by
  have hknown : (Statement.update t (t.identityFilter uuid) revision.payload).Known :=
    ⟨revision.known_payload, t.known_identityFilter uuid⟩
  rw [Revision.apply, ← Database.outcome_update] at hleads
  obtain ⟨⟨db, n⟩, hexecute⟩ := Database.exists_execute_of_consistent h hknown hleads
  rw [update, if_neg hpayload, bind_ok (execute_ok hexecute)]
  exact ⟨_, rfl⟩

/-- **A valid revision that leads to a good database is accepted.** -/
theorem modify_of_outcome (h : tx.snapshot.Good) (hid : revision.uuid = none)
    (huuid : t.identity.check uuid = .ok ()) (hcheck : revision.check = .ok ())
    (hleads : (revision.apply uuid now tx.snapshot).Good) :
    ∃ after, modify now uuid revision tx = (.ok (), after) ∧
      after.snapshot = revision.apply uuid now tx.snapshot := by
  suffices haccepted : ∃ after, modify now uuid revision tx = (.ok (), after) by
    obtain ⟨after, hafter⟩ := haccepted
    exact ⟨after, hafter, modify_ok hafter⟩
  rw [modify_of_valid hid huuid hcheck]
  split
  · exact ⟨tx, rfl⟩
  · next hpayload =>
    -- the engine accepts the update, for its outcome is consistent
    have hwrite := update_of_outcome h.consistent hpayload hleads.consistent
    split
    · cases hselect : tx.snapshot.select t (t.identityFilter uuid) with
      | nil => exact ⟨tx, rfl⟩
      | cons row rest =>
        have hfound : row ∈ tx.snapshot.select t (t.identityFilter uuid) :=
          hselect ▸ List.mem_cons_self
        obtain ⟨hrow, hmeets⟩ := List.mem_filter.1 hfound
        obtain ⟨record, hstored⟩ := (h.sound t row hrow).exists_record
        obtain ⟨merged, hmerged, hvalid, hdetails⟩ := exists_merged hstored.valid hcheck now
        -- and the registrar accepts it, for in a good outcome nobody shares the seat
        have hvacant := h.vacant_of_apply hleads hcheck hrow (Table.meets_identityFilter.1 hmeets)
          hstored hvalid hdetails
        simp only [hstored.decodes, decoded_ok_bind]
        rw [bind_ok (ensureMovable_ok hmerged hvacant)]
        exact hwrite
    · exact hwrite

/-- **One revision in the place of two.** Where two revisions of a uuid have been accepted one after
the other, the one that they make together is accepted as well and leaves the same rows, except for
the moment at which the row of the uuid was last changed. -/
theorem modify_override {moment later : Timestamp} {mid : Transaction} (h : tx.snapshot.Good)
    (hfirst : modify moment uuid first tx = (.ok (), mid))
    (hsecond : modify later uuid second mid = (.ok (), after)) (now : Timestamp) :
    ∃ once, modify now uuid (first.override second) tx = (.ok (), once) ∧
      Database.EqualButMoment t uuid after.snapshot once.snapshot := by
  obtain ⟨hfirstId, huuid, hfirstCheck⟩ := valid_of_modify_ok hfirst
  obtain ⟨hsecondId, -, hsecondCheck⟩ := valid_of_modify_ok hsecond
  have hmidGood := good_modify h moment uuid first
  rw [hfirst] at hmidGood
  -- what two accepted revisions leave is good, and the one leads to the same but for a moment
  have hafterGood := good_modify hmidGood later uuid second
  rw [hsecond] at hafterGood
  have hafter : after.snapshot = second.apply uuid later (first.apply uuid moment tx.snapshot) := by
    rw [modify_ok hsecond, modify_ok hfirst]
    rfl
  have hequal : Database.EqualButMoment t uuid after.snapshot
      ((first.override second).apply uuid now tx.snapshot) := by
    rw [hafter]
    exact Revision.apply_apply first second moment later now tx.snapshot
  have hcheck := Revision.check_override hfirstCheck hsecondCheck
  have hleads := hafterGood.of_equalButMoment (Revision.sound_apply h.sound hcheck uuid now) hequal
  obtain ⟨once, honce, hleft⟩ := modify_of_outcome h
    (Revision.uuid_override hfirstId hsecondId) huuid hcheck hleads
  exact ⟨once, honce, hleft ▸ hequal⟩

/-- **A revision that has been accepted is accepted again, and then changes nothing**, not even the
moment of the last change. -/
theorem modify_again {moment : Timestamp} {mid : Transaction} (h : tx.snapshot.Good)
    (hfirst : modify moment uuid revision tx = (.ok (), mid)) (now : Timestamp) :
    ∃ again, modify now uuid revision mid = (.ok (), again) ∧ again.snapshot = mid.snapshot := by
  obtain ⟨hid, huuid, hcheck⟩ := valid_of_modify_ok hfirst
  have hgood := good_modify h moment uuid revision
  rw [hfirst] at hgood
  have hsame : revision.apply uuid now mid.snapshot = mid.snapshot := by
    rw [modify_ok hfirst]
    exact revision.apply_self moment now tx.snapshot
  obtain ⟨again, hagain, hleft⟩ := modify_of_outcome hgood hid huuid hcheck (hsame.symm ▸ hgood)
  exact ⟨again, hagain, hleft.trans hsame⟩

end Registrar

-- ---------------------------------------------------------------------------
-- Whole runs
-- ---------------------------------------------------------------------------

namespace Session

variable {s : Session} {steps : List (Timestamp × Step)} {tx uuid : String}
  {opened : OpenTransaction} {revision : Revision t}

/-- A revision that its transaction accepts is accepted in a session. -/
theorem reply_modify_of_ok {after : Transaction} (hfind : s.find? tx = some opened)
    (haccess : opened.access = .records)
    (h : Registrar.modify now uuid revision opened.transaction = (.ok (), after)) :
    s.reply now tx (.modify t uuid revision) = .ok .done ∧
      (s.step now (.operate tx (.modify t uuid revision))).1.find? tx =
        some { opened with transaction := after } := by
  have hrun : (Operation.modify t uuid revision).run now =
      Registrar.modify now uuid revision >>= fun _ => pure .done := rfl
  have hopen := operate_of_open hfind haccess hrun
  rw [h] at hopen
  exact hopen

/-- A revision that a session accepts has been accepted by its transaction. -/
theorem exists_modify_of_reply_ok {answer : Answer} (hfind : s.find? tx = some opened)
    (h : s.reply now tx (.modify t uuid revision) = .ok answer) :
    ∃ after, Registrar.modify now uuid revision opened.transaction = (.ok (), after) := by
  obtain ⟨found, after, hfound, hrun, -⟩ := exists_of_operate_ok h
  obtain rfl := Option.some.inj (hfind.symm.trans hfound)
  obtain ⟨⟨⟩, mid, hmodify, -⟩ := Transact.bind_eq_ok hrun
  exact ⟨mid, hmodify⟩

/-- **Revisions compose.** Where all writing goes through operations on records, in a transaction
whose copy keeps the composite rule: if two revisions of a uuid are accepted one after the other,
then the revision in which the contents of the second override those of the first would have been
accepted in their place, and would have left the same rows in all tables, except for the moment at
which the row of the uuid was last changed. A revision that has been accepted is accepted again, and
leaves every row as it is. -/
theorem modify_composes (hwrites : RecordWrites steps)
    (hfind : (new.run steps).find? tx = some opened) (haccess : opened.access = .records)
    (hrule : opened.transaction.snapshot.CompositeRule) {first : Revision t} {moment : Timestamp}
    {answer : Answer}
    (hfirst : (new.run steps).reply moment tx (.modify t uuid first) = .ok answer) :
    let s := new.run steps
    let mid := (s.step moment (.operate tx (.modify t uuid first))).1
    (∀ later (second : Revision t) answer',
      mid.reply later tx (.modify t uuid second) = .ok answer' →
        ∀ now, s.reply now tx (.modify t uuid (first.override second)) = .ok .done ∧
          ∃ twice once, (mid.step later (.operate tx (.modify t uuid second))).1.find? tx =
              some twice ∧
            (s.step now (.operate tx (.modify t uuid (first.override second)))).1.find? tx =
              some once ∧
            Database.EqualButMoment t uuid twice.transaction.snapshot once.transaction.snapshot) ∧
    ∀ later, mid.reply later tx (.modify t uuid first) = .ok .done ∧
      ∃ before after, mid.find? tx = some before ∧
        (mid.step later (.operate tx (.modify t uuid first))).1.find? tx = some after ∧
        after.transaction.snapshot = before.transaction.snapshot := by
  intro s mid
  have hconsistent := (throughout_consistent steps).snapshot tx opened hfind
  -- the copy is good: sound and consistent in every run, and apart by assumption
  have hgood : opened.transaction.snapshot.Good :=
    ⟨(throughout_sound hwrites).snapshot tx opened hfind, hconsistent,
      (Database.compositeRule_iff hconsistent).1 hrule⟩
  obtain ⟨between, hmodify⟩ := exists_modify_of_reply_ok hfind hfirst
  obtain ⟨-, hmid⟩ := reply_modify_of_ok hfind haccess hmodify
  constructor
  · intro later second answer' hsecond now
    obtain ⟨after, hafter⟩ := exists_modify_of_reply_ok hmid hsecond
    obtain ⟨once, honce, hequal⟩ := Registrar.modify_override hgood hmodify hafter now
    obtain ⟨-, htwice⟩ := reply_modify_of_ok hmid haccess hafter
    obtain ⟨hanswer, hleft⟩ := reply_modify_of_ok hfind haccess honce
    exact ⟨hanswer, _, _, htwice, hleft, hequal⟩
  · intro later
    obtain ⟨again, hagain, hsame⟩ := Registrar.modify_again hgood hmodify later
    obtain ⟨hanswer, hleft⟩ := reply_modify_of_ok hmid haccess hagain
    exact ⟨hanswer, _, _, hmid, hleft, hsame⟩

/-- The revision that gives a teacher the third grade and another name. -/
def gradeReturned : Revision .teacherInforms :=
  ⟨none, (some (3 : UInt8), none, some "Park", none, ())⟩

/-- The step that makes a revision of the teacher. -/
def revising (revision : Revision .teacherInforms) : Step :=
  .operate "a" (.modify .teacherInforms "teacher-000000000001" revision)

/-- What a transaction holds of the profiles of teachers. -/
def homerooms (opened : OpenTransaction) : List (List Value) :=
  (opened.transaction.snapshot.rows .teacherInforms).map fun row =>
    [row.get "grade", row.get "class", row.get "name", row.get updatedAtKey]

/-- A grade is cleared and then set: the one revision sets it, and leaves another moment. -/
theorem modify_composes_gradeReturned :
    ∃ twice once,
      ((((new.run homeroomAssigned).step (.ofSeconds 4) (revising gradeCleared)).1.step
        (.ofSeconds 5) (revising gradeReturned)).1.find? "a") = some twice ∧
      (((new.run homeroomAssigned).step (.ofSeconds 6)
        (revising (gradeCleared.override gradeReturned))).1.find? "a") = some once ∧
      Database.EqualButMoment .teacherInforms "teacher-000000000001" twice.transaction.snapshot
        once.transaction.snapshot ∧
      homerooms twice = [[.int 3, .int 1, .text "Park", .timestamp (.ofSeconds 5)]] ∧
      homerooms once = [[.int 3, .int 1, .text "Park", .timestamp (.ofSeconds 6)]] := by
  have hwrites : RecordWrites homeroomAssigned := by simp [RecordWrites, homeroomAssigned]
  have hopen : ((new.run homeroomAssigned).find? "a").map (fun opened => (opened.access,
      (opened.transaction.snapshot.rows .studentInforms).length,
      (opened.transaction.snapshot.rows .teacherInforms).length)) =
      some (.records, 0, 1) := by rfl
  have hfirst : ((new.run homeroomAssigned).step (.ofSeconds 4) (revising gradeCleared)).2 =
      .ok .done := by rfl
  have hsecond : (((new.run homeroomAssigned).step (.ofSeconds 4) (revising gradeCleared)).1.step
      (.ofSeconds 5) (revising gradeReturned)).2 = .ok .done := by rfl
  have hseenTwice : ((((new.run homeroomAssigned).step (.ofSeconds 4)
      (revising gradeCleared)).1.step (.ofSeconds 5) (revising gradeReturned)).1.find? "a").map
        homerooms = some [[.int 3, .int 1, .text "Park", .timestamp (.ofSeconds 5)]] := by rfl
  have hseenOnce : (((new.run homeroomAssigned).step (.ofSeconds 6)
      (revising (gradeCleared.override gradeReturned))).1.find? "a").map homerooms =
        some [[.int 3, .int 1, .text "Park", .timestamp (.ofSeconds 6)]] := by rfl
  obtain ⟨opened, hfind, hheld⟩ := Option.map_eq_some_iff.1 hopen
  obtain ⟨haccess, hcounts⟩ := Prod.mk.inj hheld
  obtain ⟨hstudents, hteachers⟩ := Prod.mk.inj hcounts
  -- with one profile there is nobody to share a seat with
  have hrule : opened.transaction.snapshot.CompositeRule := by
    obtain ⟨row, hrows⟩ := List.length_eq_one_iff.1 hteachers
    constructor
    · rw [List.length_eq_zero_iff.1 hstudents]
      exact .nil
    · rw [hrows]
      exact List.pairwise_singleton _ _
  obtain ⟨hcomposed, -⟩ := modify_composes hwrites hfind haccess hrule hfirst
  obtain ⟨-, twice, once, htwice, honce, hequal⟩ :=
    hcomposed (.ofSeconds 5) gradeReturned .done hsecond (.ofSeconds 6)
  refine ⟨twice, once, htwice, honce, hequal, ?_, ?_⟩
  · exact Option.some.inj ((congrArg (Option.map homerooms) htwice).symm.trans hseenTwice)
  · exact Option.some.inj ((congrArg (Option.map homerooms) honce).symm.trans hseenOnce)

end Session

end Rollbook
