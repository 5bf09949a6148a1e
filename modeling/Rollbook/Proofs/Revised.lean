import Rollbook.Proofs.Integrity
import Rollbook.Proofs.Stored

/-!
# Rollbook — what a revision leaves

A revision is a sparse record, and what it writes is a set of bare columns. Here the two are shown
to be the same thing: laying the columns over the stored row is replacing the supplied contents of
the record, where a zero that may clear a content leaves none. Nothing else moves, except the moment
of the last change, and that only if the record is another one afterwards.

* `Details.ofColumns_revise` — columns with the new values are read as the revised contents.
* `Table.Sound.leaves`       — what becomes of a stored row.
* `modify_ok`                — an accepted revision is an update of the copy, be it an empty one.
* `modify_run`               — what an accepted revision leaves, where operations on records alone
  have written.
-/

namespace Rollbook

-- ---------------------------------------------------------------------------
-- Revised contents
-- ---------------------------------------------------------------------------

/-- What a supplied content becomes: the zero of an optional member stands for none. -/
def Member.supplied : (m : Member) → m.target.Content → m.Content
  | ⟨_, _, false, _⟩, content => content
  | ⟨_, a, true, _⟩, content => if a.isZero content then none else some content

/-- The tuple with each supplied content in the place of the old one. -/
def Details.revise : {ms : List Member} → Details ms → Changes ms → Details ms
  | [], (), () => ()
  | m :: _, (content, rest), (change, changes) =>
    ((change.map m.supplied).getD content, revise rest changes)

/-- The record with each supplied content in the place of the old one, last changed now if that
makes it another record. -/
def Record.revise {t : Table} (record : Record t) (revision : Revision t) (now : Timestamp) :
    Record t :=
  let details := record.details.revise revision.changes
  { record with
    details := details
    updatedAt := if details = record.details then record.updatedAt else some now }

/-- A supplied content is read back as what it becomes. -/
theorem Member.ofValue_supplied (m : Member) (content : m.target.Content) :
    m.ofValue (m.target.toValue content) = .ok (m.supplied content) := by
  obtain ⟨label, target, optional, unique⟩ := m
  cases optional with
  | false => exact target.ofValue_toValue content
  | true =>
    show target.ofValue? (target.toValue content) =
      .ok (if target.isZero content then none else some content)
    cases hzero : target.isZero content with
    | false => exact Attribute.ofValue?_toValue hzero
    | true =>
      have hread := target.ofValue_toValue content
      rw [if_pos rfl]
      by_cases hvalue : target.toValue content = .null
      · rw [hvalue, Attribute.ofValue?]
      · rw [Attribute.ofValue?, hread, Except.map, hzero]
        · rfl
        · exact hvalue

namespace Changes

variable {ms : List Member} {c : Changes ms}

/-- Supplied or not, a field is one of the layout. -/
theorem fst_mem_of_mem_toList {p : (m : Member) × Option m.target.Content} (h : p ∈ c.toList) :
    p.1 ∈ ms := by
  induction ms with
  | nil => cases h
  | cons m ms ih =>
    obtain ⟨change, rest⟩ := c
    rcases List.mem_cons.1 h with rfl | h
    · exact List.mem_cons_self
    · exact List.mem_cons_of_mem _ (ih h)

/-- The columns of changes are those of the supplied contents. -/
theorem exists_supplied_of_get? {name : String} {value : Value}
    (h : c.toColumns.get? name = some value) :
    ∃ m content, ⟨m, some content⟩ ∈ c.toList ∧ m.key = name ∧
      m.target.toValue content = value := by
  induction ms with
  | nil => cases h
  | cons m ms ih =>
    obtain ⟨_ | content, rest⟩ := c
    · obtain ⟨m', content, hmem, hfound⟩ := ih h
      exact ⟨m', content, List.mem_cons_of_mem _ hmem, hfound⟩
    · rw [toColumns, Columns.get?_insert] at h
      split at h
      · next hname =>
        cases h
        exact ⟨m, content, List.mem_cons_self, hname.symm, rfl⟩
      · obtain ⟨m', content, hmem, hfound⟩ := ih h
        exact ⟨m', content, List.mem_cons_of_mem _ hmem, hfound⟩

/-- Changes have a column for each member with a supplied content, and for no other. -/
theorem get?_toColumns (hkeys : (ms.map Member.key).Nodup)
    {p : (m : Member) × Option m.target.Content} (hp : p ∈ c.toList) :
    c.toColumns.get? p.1.key = p.2.map p.1.target.toValue := by
  induction ms with
  | nil => cases hp
  | cons m ms ih =>
    obtain ⟨change, rest⟩ := c
    rw [List.map_cons, List.nodup_cons] at hkeys
    obtain ⟨hhead, hkeys⟩ := hkeys
    rcases List.mem_cons.1 hp with rfl | hp
    · cases change with
      | some content => exact Columns.get?_insert_self _ _ _
      | none =>
        -- no other member is stored in the column of this one
        show rest.toColumns.get? m.key = none
        cases hvalue : rest.toColumns.get? m.key with
        | none => rfl
        | some value =>
          obtain ⟨m', hm', -, hkey, -⟩ := exists_of_get? hvalue
          exact absurd (hkey ▸ List.mem_map_of_mem hm') hhead
    · have hne : p.1.key ≠ m.key :=
        fun heq => hhead (heq ▸ List.mem_map_of_mem (fst_mem_of_mem_toList hp))
      rw [← ih hkeys hp]
      cases change with
      | none => rfl
      | some content => exact Columns.get?_insert_of_ne _ _ hne

end Changes

namespace Details

variable {ms : List Member} {d : Details ms} {c : Changes ms}

/-- A content of the revised tuple is what has been supplied for its member, or else the old one. -/
theorem exists_of_mem_revise {p : (m : Member) × m.Content} (hp : p ∈ (d.revise c).toList) :
    ∃ content change, ⟨p.1, content⟩ ∈ d.toList ∧ ⟨p.1, change⟩ ∈ c.toList ∧
      p.2 = (change.map p.1.supplied).getD content := by
  induction ms with
  | nil => cases hp
  | cons m ms ih =>
    obtain ⟨content, rest⟩ := d
    obtain ⟨change, changes⟩ := c
    rcases List.mem_cons.1 hp with rfl | hp
    · exact ⟨content, change, List.mem_cons_self, List.mem_cons_self, rfl⟩
    · obtain ⟨old, new, hold, hnew, hvalue⟩ := ih hp
      exact ⟨old, new, List.mem_cons_of_mem _ hold, List.mem_cons_of_mem _ hnew, hvalue⟩

/-- What has been supplied is part of the revised tuple. -/
theorem mem_revise_of_supplied {m : Member} {content : m.target.Content}
    (h : ⟨m, some content⟩ ∈ c.toList) : ⟨m, m.supplied content⟩ ∈ (d.revise c).toList := by
  induction ms with
  | nil => cases h
  | cons head ms ih =>
    obtain ⟨old, rest⟩ := d
    obtain ⟨change, changes⟩ := c
    rcases List.mem_cons.1 h with heq | h
    · obtain ⟨rfl, heq⟩ := Sigma.mk.inj heq
      cases heq
      exact List.mem_cons_self
    · exact List.mem_cons_of_mem _ (ih h)

/-- **Columns with the supplied values are read as the revised tuple.** -/
theorem ofColumns_revise {row columns : Columns} (hkeys : (ms.map Member.key).Nodup)
    (hrow : ofColumns ms row = .ok d)
    (hcolumns : ∀ m ∈ ms, columns.get m.key = (c.toColumns.get? m.key).getD (row.get m.key)) :
    ofColumns ms columns = .ok (d.revise c) := by
  refine build_eq_ok_iff.2 fun p hp => ?_
  obtain ⟨content, change, hold, hnew, hvalue⟩ := exists_of_mem_revise hp
  have hmember : p.1 ∈ ms := fst_mem_of_mem_toList hp
  have hget := Changes.get?_toColumns hkeys hnew
  rw [hcolumns p.1 hmember, hget, hvalue]
  cases change with
  | none => exact build_eq_ok_iff.1 hrow _ hold
  | some change => exact p.1.ofValue_supplied change

end Details

-- ---------------------------------------------------------------------------
-- Revised rows
-- ---------------------------------------------------------------------------

/-- What an accepted revision of the record of a uuid leaves in the place of a row: the row itself
if it is another's, and else what the revised record is stored as. -/
structure Revision.Leaves {t : Table} (revision : Revision t) (uuid : String) (now : Timestamp)
    (before after : Row) : Prop where
  identity : after.get t.identityKey = before.get t.identityKey
  created  : after.get createdAtKey = before.get createdAtKey
  others   : before.get t.identityKey ≠ t.identity.toValue uuid → after = before
  own      : before.get t.identityKey = t.identity.toValue uuid →
    ∃ record : Record t, record.uuid = uuid ∧ record.StoredAs before ∧
      (record.revise revision now).StoredAs after
  kept     : (∀ name, name ≠ updatedAtKey → after.get name = before.get name) → after = before
  moved    : (∃ name, name ≠ updatedAtKey ∧ after.get name ≠ before.get name) →
    after.get updatedAtKey = .timestamp now

section Rows

variable {t : Table} {row : Row} {record : Record t} {revision : Revision t} {uuid : String}
  {now : Timestamp}

/-- What a supplied content becomes is stored as the content itself. -/
theorem Table.toValue_supplied {m : Member} (hm : m ∈ t.details) (content : m.target.Content) :
    m.toValue (m.supplied content) = m.target.toValue content := by
  have hclear : m.optional = true → m.target.isZero content = true →
      m.target.toValue content = .null := fun hoptional => toValue_of_isZero hm hoptional
  obtain ⟨label, target, optional, unique⟩ := m
  cases optional with
  | false => rfl
  | true =>
    show target.toValue? (if target.isZero content then none else some content) = _
    cases hzero : target.isZero content with
    | false => rfl
    | true => exact (hclear rfl hzero).symm

/-- A stored row holds what its record holds. -/
theorem Record.StoredAs.get {p : (m : Member) × m.Content} (h : record.StoredAs row)
    (hp : p ∈ record.details.toList) : row.get p.1.key = p.1.toValue p.2 := by
  obtain ⟨created, updated, -, -, hrow⟩ := h.moments
  have hmember := Details.fst_mem_of_mem_toList hp
  rw [hrow, Columns.get, Columns.get?_insert_of_ne _ _ (Table.detail_ne_updatedAt _ hmember),
    Columns.get?_insert_of_ne _ _ (Table.detail_ne_createdAt _ hmember)]
  exact Record.get_toColumns_of_mem hp

/-- An overlay that leaves every detail of a sound row as it is leaves the row as it is. -/
theorem Table.Sound.overlay_eq (h : t.Sound row)
    (hsame : ∀ m ∈ t.details, (row.overlay revision.payload).get m.key = row.get m.key) :
    row.overlay revision.payload = row := by
  ext name : 1
  rw [Columns.get?_overlay]
  cases hvalue : revision.payload.get? name with
  | none => rfl
  | some value =>
    obtain ⟨m, hm, -, rfl, -⟩ := Changes.exists_of_get? hvalue
    have hcolumn : m.key ∈ row.names :=
      (h.columns _).2 (exists_column_iff.2 (.inr (.inl ⟨m, hm, rfl⟩)))
    rw [Columns.get?_of_mem_names hcolumn, ← hsame m hm, Columns.get_overlay, hvalue]
    rfl

/-- A sound row is overlaid by itself just when its record is revised to itself. -/
theorem Table.Sound.overlay_eq_iff (h : t.Sound row) (hstored : record.StoredAs row) :
    row.overlay revision.payload = row ↔
      record.details.revise revision.changes = record.details := by
  obtain ⟨-, hdetails, -⟩ := Record.ofColumns_eq_ok_iff.1 hstored.decodes
  constructor
  · intro hsame
    have hrevised := Details.ofColumns_revise details_keys_nodup hdetails (c := revision.changes)
      fun m _ => Columns.get_overlay row revision.payload m.key
    rw [hsame, hdetails, Except.ok.injEq] at hrevised
    exact hrevised.symm
  · intro hsame
    refine h.overlay_eq fun m _ => ?_
    rw [Columns.get_overlay]
    cases hvalue : revision.payload.get? m.key with
    | none => rfl
    | some value =>
      -- what has been supplied for the member is what the record holds already
      obtain ⟨m', content, hmem, hkey, rfl⟩ := Changes.exists_supplied_of_get? hvalue
      have hold : ⟨m', m'.supplied content⟩ ∈ record.details.toList :=
        hsame ▸ Details.mem_revise_of_supplied hmem
      rw [← hkey, hstored.get hold, toValue_supplied (Changes.fst_mem_of_mem_toList hmem)]
      rfl

/-- A revision leaves every column alone that is neither a detail nor the moment of the last
change. -/
theorem Revision.get_revise (revision : Revision t) (filter : Columns) (now : Timestamp) (row : Row)
    {name : String} (hmoment : name ≠ updatedAtKey) (hdetails : ∀ m ∈ t.details, m.key ≠ name) :
    (Database.revise filter revision.payload now row).get name = row.get name := by
  rw [Database.get_revise hmoment, revision.get?_payload_eq_none hdetails]
  exact ite_self _

/-- The record of an updated row is the revised record. -/
theorem Record.StoredAs.revise (h : record.StoredAs row) (hsound : t.Sound row)
    (hcheck : revision.check = .ok ()) (hid : row.get t.identityKey = t.identity.toValue uuid)
    (now : Timestamp) :
    (record.revise revision now).StoredAs
      (Database.revise (t.identityFilter uuid) revision.payload now row) := by
  have hmeets : row.meets (t.identityFilter uuid) = true := Table.meets_identityFilter.2 hid
  cases hrevised : Database.revised? (t.identityFilter uuid) revision.payload now row with
  | none =>
    have hdetails : record.details.revise revision.changes = record.details :=
      (hsound.overlay_eq_iff h).1 ((Database.revised?_eq_none_iff now).1 hrevised hmeets)
    -- nothing is revised, and so the record keeps its moment, too
    have hrecord : record.revise revision now = record := by
      rw [Record.revise]
      simp only [hdetails, if_pos]
    rw [Database.revise, hrevised, hrecord]
    exact h
  | some next =>
    obtain ⟨-, hne, hnext⟩ := Database.revised?_eq_some_iff.1 hrevised
    have hdetails : record.details.revise revision.changes ≠ record.details :=
      fun hsame => hne ((hsound.overlay_eq_iff h).2 hsame)
    have hrow : Database.revise (t.identityFilter uuid) revision.payload now row = next := by
      rw [Database.revise, hrevised, Option.getD_some]
    -- the revised row is read part by part
    obtain ⟨huuid, hold, hcreated, -⟩ := Record.ofColumns_eq_ok_iff.1 h.decodes
    have hread : Record.ofColumns t next = .ok (record.revise revision now) := by
      rw [← hrow]
      refine Record.ofColumns_eq_ok_iff.2 ⟨?_, ?_, ?_, ?_⟩
      · rw [revision.get_revise _ _ _ Table.identityKey_ne_updatedAt Table.identityKey_not_detail]
        exact huuid
      · refine Details.ofColumns_revise Table.details_keys_nodup hold fun m hm => ?_
        rw [Database.get_revise (Table.detail_ne_updatedAt m hm), if_pos hmeets]
        rfl
      · rw [revision.get_revise _ _ _ (by decide) Table.detail_ne_createdAt]
        exact hcreated
      · rw [hrow, hnext, Columns.get, Columns.get?_insert_self, Record.revise]
        exact (if_neg hdetails).symm
    obtain ⟨stored, hstored⟩ := (hsound.revised hcheck hrevised).exists_record
    have hsame := hstored.decodes
    rw [hread, Except.ok.injEq] at hsame
    rw [hrow, hsame]
    exact hstored

/-- **What an update by a revision makes of a stored row.** -/
theorem Table.Sound.leaves (h : t.Sound row) (hcheck : revision.check = .ok ()) (uuid : String)
    (now : Timestamp) :
    revision.Leaves uuid now row
      (Database.revise (t.identityFilter uuid) revision.payload now row) where
  identity := revision.get_revise _ now row identityKey_ne_updatedAt identityKey_not_detail
  created := revision.get_revise _ now row (by decide) detail_ne_createdAt
  others hid := by
    have hmeets : ¬row.meets (t.identityFilter uuid) = true :=
      fun hmeets => hid (meets_identityFilter.1 hmeets)
    rw [Database.revise, (Database.revised?_eq_none_iff now).2 fun hown => absurd hown hmeets,
      Option.getD_none]
  own hid := by
    obtain ⟨record, hstored⟩ := h.exists_record
    refine ⟨record, ?_, hstored, hstored.revise h hcheck hid now⟩
    obtain ⟨huuid, -⟩ := Record.ofColumns_eq_ok_iff.1 hstored.decodes
    rw [hid] at huuid
    exact Except.ok.inj (huuid.symm.trans (t.identity.ofValue_toValue uuid))
  kept hsame := by
    rw [Database.revise]
    cases hrevised : Database.revised? (t.identityFilter uuid) revision.payload now row with
    | none => rfl
    | some next =>
      obtain ⟨hmeets, hne, -⟩ := Database.revised?_eq_some_iff.1 hrevised
      refine absurd (h.overlay_eq fun m hm => ?_) hne
      have hmember := hsame m.key (detail_ne_updatedAt m hm)
      rw [Database.get_revise (detail_ne_updatedAt m hm), if_pos hmeets] at hmember
      rw [Columns.get_overlay, hmember]
  moved hmoved := by
    rw [Database.revise] at hmoved ⊢
    cases hrevised : Database.revised? (t.identityFilter uuid) revision.payload now row with
    | none =>
      rw [hrevised, Option.getD_none] at hmoved
      obtain ⟨name, -, hne⟩ := hmoved
      exact absurd rfl hne
    | some next =>
      obtain ⟨-, -, rfl⟩ := Database.revised?_eq_some_iff.1 hrevised
      rw [Option.getD_some, Columns.get, Columns.get?_insert_self]
      rfl

end Rows

-- ---------------------------------------------------------------------------
-- Accepted revisions
-- ---------------------------------------------------------------------------

/-- An update that alters no row leaves them all. -/
theorem Database.map_revise_of_same {filter payload : Columns} {rows : List Row} (now : Timestamp)
    (h : ∀ row ∈ rows, row.meets filter = true → row.overlay payload = row) :
    rows.map (revise filter payload now) = rows := by
  refine (List.map_congr_left fun row hrow => ?_).trans (List.map_id rows)
  rw [revise, (revised?_eq_none_iff now).2 (h row hrow), Option.getD_none, id]

namespace Registrar

open Transact Transaction

variable {t : Table} {uuid : String} {revision : Revision t} {now : Timestamp} {tx : Transaction}

/-- Only a valid revision is accepted, and only for a valid uuid. -/
theorem valid_of_modify_ok {after : Transaction}
    (h : modify now uuid revision tx = (.ok (), after)) :
    revision.uuid = none ∧ t.identity.check uuid = .ok () ∧ revision.check = .ok () := by
  by_contra hinvalid
  obtain ⟨e, hrefused⟩ : ∃ e, modify now uuid revision tx = (.error e, tx) :=
    modify_of_not_valid hinvalid
  rw [hrefused] at h
  cases h

/-- **An accepted revision has updated the row of its uuid**, where there is one and anything to
set. -/
theorem modify_ok {after : Transaction} (h : modify now uuid revision tx = (.ok (), after)) :
    after.snapshot = tx.snapshot.set t ((tx.snapshot.rows t).map
      (Database.revise (t.identityFilter uuid) revision.payload now)) := by
  obtain ⟨hid, huuid, hcheck⟩ := valid_of_modify_ok h
  -- where every row stays as it is, so does the copy
  have hidle : (∀ row ∈ tx.snapshot.rows t, row.meets (t.identityFilter uuid) = true →
      row.overlay revision.payload = row) → tx.snapshot = tx.snapshot.set t
        ((tx.snapshot.rows t).map
          (Database.revise (t.identityFilter uuid) revision.payload now)) := by
    intro hsame
    rw [Database.map_revise_of_same now hsame, Database.set_rows]
  rw [modify_of_valid hid huuid hcheck] at h
  split at h
  · next hempty =>
    cases h
    refine hidle fun row _ _ => ?_
    rw [(Columns.isEmpty_iff _).1 hempty]
    rfl
  · next hpayload =>
    have hwrite : ∀ {mid}, (do
        let _ ← update now t (t.identityFilter uuid) revision.payload : Transact Unit) mid =
          (.ok (), after) → mid.snapshot = tx.snapshot →
        after.snapshot = tx.snapshot.set t ((tx.snapshot.rows t).map
          (Database.revise (t.identityFilter uuid) revision.payload now)) := by
      intro mid hmid hsame
      obtain ⟨n, mid', hexecute, hdone⟩ := bind_eq_ok hmid
      cases hdone
      rw [update, if_neg hpayload] at hexecute
      obtain ⟨-, -, rows, hrows, hafter⟩ := Database.update_eq_ok_iff.1 (execute_eq_ok hexecute)
      obtain ⟨rfl, -⟩ := Database.updateRows_eq_ok hrows
      rw [hafter, hsame, List.nil_append]
    split at h
    · cases hrow : tx.snapshot.select t (t.identityFilter uuid) with
      | nil =>
        rw [hrow] at h
        cases h
        refine hidle fun row hmem hmeets => ?_
        have hfound : row ∈ tx.snapshot.select t (t.identityFilter uuid) :=
          List.mem_filter.2 ⟨hmem, hmeets⟩
        rw [hrow] at hfound
        cases hfound
      | cons row rest =>
        rw [hrow] at h
        obtain ⟨current, mid, hdecoded, h⟩ := bind_eq_ok h
        obtain ⟨⟨⟩, mid', hmovable, h⟩ := bind_eq_ok h
        refine hwrite h ?_
        have hfirst := reads_decoded (Record.ofColumns t row) tx
        have hsecond := reads_ensureMovable uuid current revision.payload mid
        rw [hdecoded] at hfirst
        rw [hmovable] at hsecond
        rw [← show mid = tx from hfirst, ← show mid' = mid from hsecond]
    · exact hwrite h rfl

end Registrar

-- ---------------------------------------------------------------------------
-- Whole runs
-- ---------------------------------------------------------------------------

/-- What an accepted revision of the record of a uuid leaves of a database: of the other tables
everything, of its own the rows in their order, each with what the revision leaves in its place. At
most one of them has the uuid. -/
structure Database.Revised {t : Table} (revision : Revision t) (uuid : String) (now : Timestamp)
    (before after : Database) : Prop where
  tables : ∀ t', t' ≠ t → after.rows t' = before.rows t'
  rows   : List.Forall₂ (revision.Leaves uuid now) (before.rows t) (after.rows t)
  unique : ((before.rows t).map fun row => row.get t.identityKey).Nodup

namespace Session

variable {s : Session} {steps : List (Timestamp × Step)} {now : Timestamp} {tx : String}

/-- An operation that succeeds has found its transaction open for records, and has left it open. -/
theorem exists_of_operate_ok {operation : Operation} {answer : Answer}
    (h : (s.step now (.operate tx operation)).2 = .ok answer) :
    ∃ opened after, s.find? tx = some opened ∧
      operation.run now opened.transaction = (.ok answer, after) ∧
      (s.step now (.operate tx operation)).1.find? tx =
        some { opened with transaction := after } := by
  rw [Session.step] at h ⊢
  by_cases hopen : ∃ opened, s.find? tx = some opened ∧ opened.access = .records
  · obtain ⟨opened, hfind, haccess⟩ := hopen
    rw [inside_of_open (operation.run now) hfind haccess] at h ⊢
    rcases hrun : operation.run now opened.transaction with ⟨e | result, after⟩
    · rw [hrun] at h
      cases h
    · rw [hrun] at h
      cases h
      refine ⟨opened, after, hfind, hrun, ?_⟩
      rw [find?_put, if_pos rfl]
  · obtain ⟨refusal, hrefused⟩ := inside_of_not_open (operation.run now)
      fun opened hfind haccess => hopen ⟨opened, hfind, haccess⟩
    rw [hrefused] at h
    cases h

/-- **What an accepted revision leaves**, where all writing goes through operations on records: the
other tables, the other rows of its table, and every column that it does not set. The row of the
uuid, if there is one, is read as the record that has each supplied content in the place of the old
one, and was last changed now if that changed anything. -/
theorem modify_run (hwrites : RecordWrites steps) {t : Table} {uuid : String}
    {revision : Revision t} {answer : Answer}
    (h : ((new.run steps).step now (.operate tx (.modify t uuid revision))).2 = .ok answer) :
    ∃ opened after, (new.run steps).find? tx = some opened ∧
      ((new.run steps).step now (.operate tx (.modify t uuid revision))).1.find? tx =
        some { opened with transaction := after } ∧
      Database.Revised revision uuid now opened.transaction.snapshot after.snapshot := by
  obtain ⟨opened, after, hfind, hrun, hafter⟩ := exists_of_operate_ok h
  refine ⟨opened, after, hfind, hafter, ?_⟩
  obtain ⟨⟨⟩, mid, hmodify, hdone⟩ := Transact.bind_eq_ok hrun
  cases hdone
  obtain ⟨-, -, hcheck⟩ := Registrar.valid_of_modify_ok hmodify
  have hsound := (throughout_sound hwrites).snapshot tx opened hfind
  have hconsistent := (throughout_consistent steps).snapshot tx opened hfind
  rw [Registrar.modify_ok hmodify]
  refine ⟨fun t' ht => Database.rows_set_of_ne _ _ ht, ?_, ?_⟩
  · rw [Database.rows_set_self, List.forall₂_map_right_iff, List.forall₂_same]
    exact fun row hrow => (hsound t row hrow).leaves hcheck uuid now
  · exact hconsistent.identity_nodup t

/-- A transaction in which a teacher has been given a homeroom. -/
def homeroomAssigned : List (Timestamp × Step) :=
  [(.ofSeconds 1, .begin .records "a"),
    (.ofSeconds 2, .operate "a" (.create .teacherAuths
      ⟨"teacher-000000000001", ("kim1", "hash", ()), none, none⟩)),
    (.ofSeconds 3, .operate "a" (.create .teacherInforms
      ⟨"teacher-000000000001", (some (2 : UInt8), some (1 : UInt8), "Kim", "01000000001", ()),
        none, none⟩))]

/-- The revision that clears the grade of a teacher. -/
def gradeCleared : Revision .teacherInforms := ⟨none, (some (0 : UInt8), none, none, none, ())⟩

/-- The grade is gone, the class is as before, and the profile was last changed at the revision. -/
theorem modify_run_gradeCleared :
    ∃ opened, ∃ after : Transaction, (new.run homeroomAssigned).find? "a" = some opened ∧
      Database.Revised gradeCleared "teacher-000000000001" (.ofSeconds 4)
        opened.transaction.snapshot after.snapshot ∧
      (after.snapshot.rows .teacherInforms).map (fun row =>
        (row.get "grade", row.get "class", row.get createdAtKey, row.get updatedAtKey)) =
          [(.null, .int 1, .timestamp (.ofSeconds 3), .timestamp (.ofSeconds 4))] := by
  have hwrites : RecordWrites homeroomAssigned := by simp [RecordWrites, homeroomAssigned]
  have hanswer : ((new.run homeroomAssigned).step (.ofSeconds 4) (.operate "a"
      (.modify .teacherInforms "teacher-000000000001" gradeCleared))).2 = .ok .done := by rfl
  have hleft : (((new.run homeroomAssigned).step (.ofSeconds 4) (.operate "a"
      (.modify .teacherInforms "teacher-000000000001" gradeCleared))).1.find? "a").map
        (fun opened => (opened.transaction.snapshot.rows .teacherInforms).map fun row =>
          (row.get "grade", row.get "class", row.get createdAtKey, row.get updatedAtKey)) =
      some [(.null, .int 1, .timestamp (.ofSeconds 3), .timestamp (.ofSeconds 4))] := by rfl
  obtain ⟨opened, after, hfind, hafter, hrevised⟩ := modify_run hwrites hanswer
  rw [hafter, Option.map_some, Option.some.injEq] at hleft
  exact ⟨opened, after, hfind, hrevised, hleft⟩

end Session

end Rollbook
