import Mathlib.Data.List.Nodup
import Rollbook.Proofs.Results
import Rollbook.Record

/-!
# Rollbook — contents by way of their columns

A content that is stored and read again comes back as it was, except that a zero comes back as
missing where a content may be missing. Validity settles the exception, for no zero is valid. So
columns that hold a valid content for the identity and for every member stand for exactly one valid
record, and a valid revision leads from such columns to such columns.

Main results:

* `Attribute.ofValue_toValue`, `Member.ofValue_toValue` — a content survives its stored value.
* `Details.build_eq_ok_iff`, `Details.check_eq_ok_iff` — reading and checking, member by member.
* `Table.Valid.overlay` — valid changes keep valid columns valid.
* `Table.Valid.exists_record` — valid columns are read as a valid record, which writes them again.
-/

namespace Rollbook

-- ---------------------------------------------------------------------------
-- Attributes
-- ---------------------------------------------------------------------------

namespace Attribute

/-- What is stored for a content is read as the content. -/
theorem ofValue_toValue (a : Attribute) (content : a.Content) :
    a.ofValue (a.toValue content) = .ok content := by
  cases a with
  | text a =>
    cases a with
    | uuid role =>
      cases role with
      | parent =>
        -- the link to a parent is null when it is empty, and is read as empty again
        by_cases hempty : content = ""
        · subst hempty
          rfl
        · rw [toValue, if_neg hempty]
          rfl
      | _ => rfl
    | _ => rfl
  | number a =>
    -- a zero is null, and every other number fits its eight bits
    by_cases hzero : content = (0 : UInt8)
    · subst hzero
      rfl
    · have hbound : (0 : Int) ≤ content.toNat ∧ (content.toNat : Int) < 256 := by
        have hlt := content.toNat_lt
        omega
      rw [toValue, if_neg hzero, ofValue, if_pos hbound, Int.toNat_natCast, UInt8.ofNat_toNat]

/-- Only a zero is stored as nothing. -/
theorem toValue_ne_null {a : Attribute} {content : a.Content} (h : a.isZero content = false) :
    a.toValue content ≠ .null := by
  cases a with
  | text a =>
    have hne : content ≠ "" := by simpa [isZero] using h
    cases a with
    | uuid role => cases role <;> simp [toValue, hne]
    | _ => simp [toValue]
  | number a =>
    have hne : content ≠ (0 : UInt8) := by simpa [isZero] using h
    simp [toValue, hne]

/-- A content that is not zero comes back as it is where it may be missing. -/
theorem ofValue?_toValue {a : Attribute} {content : a.Content} (h : a.isZero content = false) :
    a.ofValue? (a.toValue content) = .ok (some content) := by
  have hread := a.ofValue_toValue content
  have hvalue := toValue_ne_null h
  rw [ofValue?, hread, Except.map, h]
  · rfl
  · exact hvalue

/-- No rule lets the empty text or the number zero pass. -/
theorem isZero_of_check {a : Attribute} {content : a.Content} (h : a.check content = .ok ()) :
    a.isZero content = false := by
  cases hzero : a.isZero content with
  | false => rfl
  | true =>
    cases a with
    | text a =>
      obtain rfl : content = "" := by simpa [isZero] using hzero
      cases a with
      | uuid role => cases role <;> cases h
      | _ => cases h
    | number a =>
      obtain rfl : content = (0 : UInt8) := by simpa [isZero] using hzero
      cases h

end Attribute

-- ---------------------------------------------------------------------------
-- Members
-- ---------------------------------------------------------------------------

namespace Member

/-- The content, where there is one, is not the zero of its attribute. -/
def NonZero : (m : Member) → m.Content → Prop
  | ⟨_, a, false, _⟩, content => a.isZero content = false
  | ⟨_, a, true, _⟩, content => ∀ c, content = some c → a.isZero c = false

/-- The value is what some valid content of the member is stored as. -/
def Admits (m : Member) (value : Value) : Prop :=
  ∃ content : m.Content, m.check content = .ok () ∧ m.toValue content = value

variable {m : Member} {content : m.Content}

/-- Contents that pass the check are not zero, so writing them never gives null by accident. -/
theorem nonZero_of_check (h : m.check content = .ok ()) : m.NonZero content := by
  obtain ⟨label, target, optional, unique⟩ := m
  cases optional with
  | false => exact Attribute.isZero_of_check h
  | true =>
    rintro c rfl
    exact Attribute.isZero_of_check h

/-- What is stored for a content other than a zero is read as the content. -/
theorem ofValue_toValue (h : m.NonZero content) : m.ofValue (m.toValue content) = .ok content := by
  obtain ⟨label, target, optional, unique⟩ := m
  cases optional with
  | false => exact target.ofValue_toValue content
  | true =>
    cases content with
    | none => rfl
    | some c => exact Attribute.ofValue?_toValue (h c rfl)

theorem Admits.ne_null {value : Value} (h : m.Admits value) (hrequired : m.optional = false) :
    value ≠ .null := by
  obtain ⟨content, hcheck, rfl⟩ := h
  obtain ⟨label, target, optional, unique⟩ := m
  cases hrequired
  exact Attribute.toValue_ne_null (Attribute.isZero_of_check hcheck)

/-- A valid change sets the column of the member to what a valid content is stored as, provided that
a zero that clears the member is stored as nothing. -/
theorem admits_of_checkChange {change : m.target.Content}
    (hclear : m.optional = true → m.target.isZero change = true →
      m.target.toValue change = .null)
    (h : m.checkChange change = .ok ()) : m.Admits (m.target.toValue change) := by
  obtain ⟨label, target, optional, unique⟩ := m
  cases optional with
  | false => exact ⟨change, h, rfl⟩
  | true =>
    cases hzero : target.isZero change with
    | true => exact ⟨none, rfl, (hclear rfl hzero).symm⟩
    | false =>
      have hcheck : target.check change = .ok () := by
        simpa [checkChange, hzero] using h
      exact ⟨some change, hcheck, rfl⟩

end Member

-- ---------------------------------------------------------------------------
-- Tuples
-- ---------------------------------------------------------------------------

namespace Details

variable {ms : List Member}

/-- A tuple is built of what is given for each of its members. -/
theorem build_eq_ok_iff {ε : Type} {f : (m : Member) → Except ε m.Content} {d : Details ms} :
    build f ms = .ok d ↔ ∀ p ∈ d.toList, f p.1 = .ok p.2 := by
  induction ms with
  | nil =>
    cases d
    simp [build, toList]
  | cons m ms ih =>
    obtain ⟨content, rest⟩ := d
    rw [toList, List.forall_mem_cons, ← ih]
    show (f m >>= fun c => build f ms >>= fun r => pure (c, r) :
      Except ε (m.Content × Details ms)) = .ok (content, rest) ↔ _
    rw [bind_eq_ok_iff]
    constructor
    · rintro ⟨c, hcontent, hbuilt⟩
      obtain ⟨r, hrest, hpair⟩ := bind_eq_ok_iff.1 hbuilt
      cases hpair
      exact ⟨hcontent, hrest⟩
    · rintro ⟨hcontent, hrest⟩
      exact ⟨content, hcontent, bind_eq_ok_iff.2 ⟨rest, hrest, rfl⟩⟩

/-- The details pass when each of them does. -/
theorem check_eq_ok_iff {d : Details ms} :
    d.check = .ok () ↔ ∀ p ∈ d.toList, p.1.check p.2 = .ok () :=
  forM_eq_ok_iff

/-- Contents for the members one by one make up a tuple. -/
theorem exists_toList {P : (m : Member) → m.Content → Prop}
    (h : ∀ m ∈ ms, ∃ content, P m content) : ∃ d : Details ms, ∀ p ∈ d.toList, P p.1 p.2 := by
  induction ms with
  | nil => exact ⟨(), fun p hp => by cases hp⟩
  | cons m ms ih =>
    obtain ⟨content, hcontent⟩ := h m List.mem_cons_self
    obtain ⟨rest, hrest⟩ := ih fun m hm => h m (List.mem_cons_of_mem _ hm)
    refine ⟨(content, rest), fun p hp => ?_⟩
    rcases List.mem_cons.1 hp with rfl | hp
    · exact hcontent
    · exact hrest p hp

theorem exists_mem_toList {d : Details ms} {m : Member} (h : m ∈ ms) :
    ∃ p ∈ d.toList, p.1 = m := by
  induction ms with
  | nil => cases h
  | cons head ms ih =>
    obtain ⟨content, rest⟩ := d
    rcases List.mem_cons.1 h with rfl | h
    · exact ⟨⟨m, content⟩, List.mem_cons_self, rfl⟩
    · obtain ⟨p, hp, rfl⟩ := ih h (d := rest)
      exact ⟨p, List.mem_cons_of_mem _ hp, rfl⟩

end Details

/-- Valid changes set columns of members only, each to a valid change of the member. -/
theorem Changes.exists_checkChange_of_get? {ms : List Member} {c : Changes ms}
    (hcheck : c.check = .ok ()) {name : String} {value : Value}
    (h : c.toColumns.get? name = some value) :
    ∃ m ∈ ms, ∃ content, m.key = name ∧ m.checkChange content = .ok () ∧
      m.target.toValue content = value := by
  induction ms with
  | nil => cases h
  | cons m ms ih =>
    obtain ⟨change, rest⟩ := c
    obtain ⟨hhead, hrest⟩ := List.forall_mem_cons.1 (forM_eq_ok_iff.1 hcheck)
    have hrestCheck : check rest = .ok () := forM_eq_ok_iff.2 hrest
    cases change with
    | none =>
      obtain ⟨m', hm', hfound⟩ := ih hrestCheck h
      exact ⟨m', List.mem_cons_of_mem _ hm', hfound⟩
    | some content =>
      rw [toColumns, Columns.get?_insert] at h
      split at h
      · -- the column is that of the head, or it has been set by one of the rest
        next hname =>
        cases h
        exact ⟨m, List.mem_cons_self, content, hname.symm, hhead, rfl⟩
      · obtain ⟨m', hm', hfound⟩ := ih hrestCheck h
        exact ⟨m', List.mem_cons_of_mem _ hm', hfound⟩

-- ---------------------------------------------------------------------------
-- Records
-- ---------------------------------------------------------------------------

variable {t : Table}

/-- A zero that clears a detail is stored as nothing: it is a number or the uuid of a parent. -/
theorem Table.toValue_of_isZero {m : Member} (hm : m ∈ t.details) (hoptional : m.optional = true)
    {content : m.target.Content} (hzero : m.target.isZero content = true) :
    m.target.toValue content = .null := by
  have hclass : ∀ m ∈ t.details, m.optional = true →
      m.target = .text (.uuid .parent) ∨ ∃ a ∈ [.grade, .schoolClass], m.target = .number a := by
    cases t <;> decide
  obtain ⟨label, target, optional, unique⟩ := m
  rcases hclass _ hm hoptional with htarget | ⟨a, -, htarget⟩
  · subst htarget
    obtain rfl : content = "" := by simpa [Attribute.isZero] using hzero
    rfl
  · subst htarget
    obtain rfl : content = (0 : UInt8) := by simpa [Attribute.isZero] using hzero
    rfl

namespace Record

variable {record : Record t}

theorem check_eq_ok_iff :
    record.check = .ok () ↔
      t.identity.check record.uuid = .ok () ∧ record.details.check = .ok () := by
  rw [check, bind_eq_ok_iff]
  exact ⟨fun ⟨(), h⟩ => h, fun h => ⟨(), h⟩⟩

/-- A row is read as a record part by part. -/
theorem ofColumns_eq_ok_iff {columns : Columns} :
    ofColumns t columns = .ok record ↔
      t.identity.ofValue (columns.get t.identityKey) = .ok record.uuid ∧
      Details.ofColumns t.details columns = .ok record.details ∧
      (columns.get createdAtKey).timestamp? = record.createdAt ∧
      (columns.get updatedAtKey).timestamp? = record.updatedAt := by
  rw [ofColumns, bind_eq_ok_iff]
  constructor
  · rintro ⟨uuid, huuid, hrest⟩
    obtain ⟨details, hdetails, hrecord⟩ := bind_eq_ok_iff.1 hrest
    cases hrecord
    exact ⟨huuid, hdetails, rfl, rfl⟩
  · rintro ⟨huuid, hdetails, hcreated, hupdated⟩
    refine ⟨record.uuid, huuid, bind_eq_ok_iff.2 ⟨record.details, hdetails, ?_⟩⟩
    rw [hcreated, hupdated]
    rfl

theorem get?_toColumns_identityKey (record : Record t) :
    record.toColumns.get? t.identityKey = some (t.identity.toValue record.uuid) :=
  Columns.get?_insert_self _ _ _

theorem get_toColumns_identityKey (record : Record t) :
    record.toColumns.get t.identityKey = t.identity.toValue record.uuid := by
  rw [Columns.get, get?_toColumns_identityKey]
  rfl

/-- A detail is written in the column of its member, and the uuid does not overwrite it. -/
theorem get?_toColumns_of_mem {p : (m : Member) × m.Content} (hp : p ∈ record.details.toList) :
    record.toColumns.get? p.1.key = some (p.1.toValue p.2) := by
  have hne : p.1.key ≠ t.identityKey :=
    Table.identityKey_not_detail _ (Details.fst_mem_of_mem_toList hp)
  rw [toColumns, Columns.get?_insert_of_ne _ _ hne]
  exact Details.get?_toColumns Table.details_keys_nodup hp

theorem get_toColumns_of_mem {p : (m : Member) × m.Content}
    (hp : p ∈ record.details.toList) : record.toColumns.get p.1.key = p.1.toValue p.2 := by
  rw [Columns.get, get?_toColumns_of_mem hp]
  rfl

/-- A record has no column beside those of its identity and its details. -/
theorem get?_toColumns_eq_none {name : String} (hidentity : name ≠ t.identityKey)
    (hdetails : ∀ m ∈ t.details, m.key ≠ name) : record.toColumns.get? name = none := by
  rw [toColumns, Columns.get?_insert_of_ne _ _ hidentity]
  cases hvalue : record.details.toColumns.get? name with
  | none => rfl
  | some value =>
    obtain ⟨m, hm, -, hkey, -⟩ := Details.exists_of_get? hvalue
    exact absurd hkey (hdetails m hm)

/-- What a record is written to are columns of its table. -/
theorem known_toColumns (record : Record t) :
    ∀ name ∈ record.toColumns.names, (t.column? name).isSome = true := by
  intro name hname
  obtain ⟨value, hvalue⟩ := (Columns.mem_names_iff _).1 hname
  rw [Table.column?_isSome_iff, Table.exists_column_iff]
  by_contra hother
  rw [not_or, not_or] at hother
  obtain ⟨hidentity, hdetails, -⟩ := hother
  rw [get?_toColumns_eq_none hidentity fun m hm hkey => hdetails ⟨m, hm, hkey⟩] at hvalue
  cases hvalue

end Record

/-- A revision that passes has changes that pass, whether it names a uuid or not. -/
theorem Revision.check_changes {revision : Revision t} (h : revision.check = .ok ()) :
    revision.changes.check = .ok () := by
  rw [check] at h
  cases huuid : revision.uuid with
  | none =>
    rw [huuid] at h
    exact h
  | some uuid =>
    rw [huuid] at h
    obtain ⟨⟨⟩, -, hchanges⟩ := bind_eq_ok_iff.1 h
    exact hchanges

/-- The columns hold a valid content for the identity and for every detail. -/
structure Table.Valid (t : Table) (columns : Columns) : Prop where
  identity : ∃ uuid, t.identity.check uuid = .ok () ∧
    columns.get t.identityKey = t.identity.toValue uuid
  details  : ∀ m ∈ t.details, m.Admits (columns.get m.key)

namespace Table

variable {columns : Columns}

/-- The columns of a record that passes are valid for its table. -/
theorem valid_toColumns {record : Record t} (h : record.check = .ok ()) :
    t.Valid record.toColumns := by
  obtain ⟨hidentity, hdetails⟩ := Record.check_eq_ok_iff.1 h
  constructor
  · exact ⟨record.uuid, hidentity, record.get_toColumns_identityKey⟩
  · intro m hm
    obtain ⟨p, hp, rfl⟩ := Details.exists_mem_toList (d := record.details) hm
    exact ⟨p.2, Details.check_eq_ok_iff.1 hdetails p hp, (Record.get_toColumns_of_mem hp).symm⟩

/-- Only what the identity and the details hold matters to the validity of columns. -/
theorem Valid.congr {columns' : Columns} (h : t.Valid columns)
    (hidentity : columns'.get t.identityKey = columns.get t.identityKey)
    (hdetails : ∀ m ∈ t.details, columns'.get m.key = columns.get m.key) : t.Valid columns' where
  identity := hidentity ▸ h.identity
  details m hm := hdetails m hm ▸ h.details m hm

/-- A valid revision, laid over valid columns, leaves them valid. -/
theorem Valid.overlay {revision : Revision t} (h : t.Valid columns)
    (hcheck : revision.check = .ok ()) : t.Valid (columns.overlay revision.payload) := by
  have hchanges := Revision.check_changes hcheck
  constructor
  · rw [Columns.get_overlay, revision.get?_payload_identityKey]
    exact h.identity
  · intro m hm
    rw [Columns.get_overlay]
    cases hvalue : revision.payload.get? m.key with
    | none => exact h.details m hm
    | some value =>
      obtain ⟨m', hm', content, hkey, hchange, rfl⟩ :=
        Changes.exists_checkChange_of_get? hchanges hvalue
      -- the column of a member is its own
      obtain rfl : m' = m := List.inj_on_of_nodup_map details_keys_nodup hm' hm hkey
      exact Member.admits_of_checkChange (fun hoptional => toValue_of_isZero hm hoptional) hchange

/-- **Valid columns are read as a valid record**, and the record writes them again. -/
theorem Valid.exists_record (h : t.Valid columns) :
    ∃ record : Record t, Record.ofColumns t columns = .ok record ∧ record.check = .ok () ∧
      record.toColumns.get? t.identityKey = some (columns.get t.identityKey) ∧
      ∀ m ∈ t.details, record.toColumns.get? m.key = some (columns.get m.key) := by
  obtain ⟨uuid, huuid, hidentity⟩ := h.identity
  obtain ⟨details, hdetails⟩ := Details.exists_toList h.details
  have hcheck : details.check = .ok () := Details.check_eq_ok_iff.2 fun p hp => (hdetails p hp).1
  have hread : Details.ofColumns t.details columns = .ok details := by
    refine Details.build_eq_ok_iff.2 fun p hp => ?_
    obtain ⟨hvalid, hvalue⟩ := hdetails p hp
    rw [← hvalue]
    exact Member.ofValue_toValue (Member.nonZero_of_check hvalid)
  -- the moments are not checked, so they are taken as they are read
  let record : Record t := ⟨uuid, details, (columns.get createdAtKey).timestamp?,
    (columns.get updatedAtKey).timestamp?⟩
  refine ⟨record, ?_, Record.check_eq_ok_iff.2 ⟨huuid, hcheck⟩, ?_, ?_⟩
  · refine Record.ofColumns_eq_ok_iff.2 ⟨?_, hread, rfl, rfl⟩
    rw [hidentity]
    exact t.identity.ofValue_toValue uuid
  · rw [record.get?_toColumns_identityKey, hidentity]
  · intro m hm
    obtain ⟨p, hp, rfl⟩ := Details.exists_mem_toList (d := details) hm
    have hown : p ∈ record.details.toList := hp
    rw [Record.get?_toColumns_of_mem hown, (hdetails p hp).2]

end Table

end Rollbook
