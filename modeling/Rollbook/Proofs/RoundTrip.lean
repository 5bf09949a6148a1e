import Rollbook.Proofs.Revised

/-!
# Rollbook — records by way of their columns, valid or not

A valid record comes back from its columns as it was. A record that nobody has checked may hold a
zero where a content may be missing, and comes back without it; this, and the moments that are no
part of the columns, is all that is lost. Whatever columns are read, on the other hand, hold no such
zero any more: what has been read once is written and read again without loss.

* `Member.ofValue_toValue_normal` — how one content comes back from what it is stored as.
* `Member.normal_of_ofValue`      — what has been read is normal.
* `Record.ofColumns_of_holds`     — how a record is read from columns that hold it.
* `Record.round_trip`             — both ways round, for every record and for all columns.
-/

namespace Rollbook

-- ---------------------------------------------------------------------------
-- Normal contents
-- ---------------------------------------------------------------------------

/-- The content, where a zero that stands for none is none. -/
def Member.normal : (m : Member) → m.Content → m.Content
  | ⟨_, _, false, _⟩, content => content
  | ⟨_, a, true, _⟩, content => Option.filter (fun c => !a.isZero c) content

/-- The tuple with a normal content for each member. -/
def Details.normal : {ms : List Member} → Details ms → Details ms
  | [], () => ()
  | m :: _, (content, rest) => (m.normal content, rest.normal)

namespace Member

variable {m : Member} {content : m.Content}

/-- What is stored for a content is read as the normal content. -/
theorem ofValue_toValue_normal (m : Member) (content : m.Content) :
    m.ofValue (m.toValue content) = .ok (m.normal content) := by
  obtain ⟨label, target, optional, unique⟩ := m
  cases optional with
  | false => exact target.ofValue_toValue content
  | true =>
    cases content with
    | none => rfl
    | some c =>
      refine (ofValue_supplied ⟨label, target, true, unique⟩ c).trans ?_
      rw [supplied, normal, Option.filter_some]
      cases target.isZero c <;> rfl

/-- Whatever value is read, a zero that stands for none is not read. -/
theorem normal_of_ofValue {value : Value} (h : m.ofValue value = .ok content) :
    m.normal content = content := by
  obtain ⟨label, target, optional, unique⟩ := m
  cases optional with
  | false => rfl
  | true =>
    have hread : target.ofValue? value = .ok content := h
    cases content with
    | none => rfl
    | some c =>
      -- a content is read from a value other than null, and where it is zero nothing is
      have hzero : target.isZero c = false := by
        by_cases hvalue : value = .null
        · subst hvalue
          cases hread
        · rw [Attribute.ofValue?] at hread
          · obtain ⟨found, -, hfound⟩ := map_eq_ok_iff.1 hread
            split at hfound
            · cases hfound
            · next hzero =>
              cases hfound
              simpa using hzero
          · exact hvalue
      rw [normal, Option.filter_some, hzero]
      rfl

end Member

namespace Details

variable {ms : List Member} {d : Details ms}

theorem exists_of_mem_normal {p : (m : Member) × m.Content} (hp : p ∈ d.normal.toList) :
    ∃ content, ⟨p.1, content⟩ ∈ d.toList ∧ p.2 = p.1.normal content := by
  induction ms with
  | nil => cases hp
  | cons m ms ih =>
    obtain ⟨content, rest⟩ := d
    rcases List.mem_cons.1 hp with rfl | hp
    · exact ⟨content, List.mem_cons_self, rfl⟩
    · obtain ⟨old, hold, hvalue⟩ := ih hp
      exact ⟨old, List.mem_cons_of_mem _ hold, hvalue⟩

/-- Details whose contents are all normal are normal. -/
theorem normal_eq_self (h : ∀ p ∈ d.toList, p.1.normal p.2 = p.2) : d.normal = d := by
  induction ms with
  | nil => rfl
  | cons m ms ih =>
    obtain ⟨content, rest⟩ := d
    obtain ⟨hhead, hrest⟩ := List.forall_mem_cons.1 h
    rw [normal, hhead, ih hrest]

/-- Columns that hold what a tuple is stored as are read as the normal tuple. -/
theorem ofColumns_of_holds {columns : Columns}
    (h : ∀ p ∈ d.toList, columns.get p.1.key = p.1.toValue p.2) :
    ofColumns ms columns = .ok d.normal := by
  refine build_eq_ok_iff.2 fun p hp => ?_
  obtain ⟨content, hcontent, hvalue⟩ := exists_of_mem_normal hp
  rw [h _ hcontent, hvalue]
  exact p.1.ofValue_toValue_normal content

/-- Whatever columns are read, the tuple that they are read as is normal. -/
theorem normal_of_ofColumns {columns : Columns} (h : ofColumns ms columns = .ok d) :
    d.normal = d :=
  normal_eq_self fun p hp => Member.normal_of_ofValue (build_eq_ok_iff.1 h p hp)

end Details

-- ---------------------------------------------------------------------------
-- Records
-- ---------------------------------------------------------------------------

/-- The columns with a moment, if there is one. -/
def Columns.withMoment (columns : Columns) (key : String) : Option Timestamp → Columns
  | none => columns
  | some moment => columns.insert key (.timestamp moment)

namespace Columns

variable {columns : Columns} {key name : String}

theorem get?_withMoment_of_ne (moment : Option Timestamp) (h : name ≠ key) :
    (columns.withMoment key moment).get? name = columns.get? name := by
  cases moment with
  | none => rfl
  | some moment => exact get?_insert_of_ne _ _ h

/-- The moment is read again where none has been before. -/
theorem timestamp?_withMoment (moment : Option Timestamp) (h : columns.get? key = none) :
    ((columns.withMoment key moment).get key).timestamp? = moment := by
  cases moment with
  -- no moment is written, and the column is as empty as it was
  | none =>
    rw [withMoment, get, h]
    rfl
  | some moment =>
    rw [withMoment, get, get?_insert_self]
    rfl

end Columns

namespace Record

variable {t : Table} {record : Record t}

/-- What is left of a record in its columns: normal contents, and no moments. -/
def normal (record : Record t) : Record t := ⟨record.uuid, record.details.normal, none, none⟩

/-- The columns of the record with those moments that it has. -/
def toRow (record : Record t) : Columns :=
  (record.toColumns.withMoment createdAtKey record.createdAt).withMoment updatedAtKey
    record.updatedAt

/-- **Columns that hold what a record is stored as are read as the normal record**, with the moments
that stand in the columns. -/
theorem ofColumns_of_holds {columns : Columns}
    (hidentity : columns.get t.identityKey = record.toColumns.get t.identityKey)
    (hdetails : ∀ m ∈ t.details, columns.get m.key = record.toColumns.get m.key) :
    ofColumns t columns = .ok ⟨record.uuid, record.details.normal,
      (columns.get createdAtKey).timestamp?, (columns.get updatedAtKey).timestamp?⟩ := by
  refine ofColumns_eq_ok_iff.2 ⟨?_, ?_, rfl, rfl⟩
  · rw [hidentity, record.get_toColumns_identityKey]
    exact t.identity.ofValue_toValue record.uuid
  · refine Details.ofColumns_of_holds fun p hp => ?_
    rw [hdetails p.1 (Details.fst_mem_of_mem_toList hp), get_toColumns_of_mem hp]

/-- The columns of a record hold no moment of creation. -/
theorem get?_toColumns_createdAt (record : Record t) : record.toColumns.get? createdAtKey = none :=
  get?_toColumns_eq_none Table.identityKey_ne_createdAt.symm Table.detail_ne_createdAt

theorem get?_toColumns_updatedAt (record : Record t) : record.toColumns.get? updatedAtKey = none :=
  get?_toColumns_eq_none Table.identityKey_ne_updatedAt.symm Table.detail_ne_updatedAt

/-- The moments stand in columns of their own. -/
theorem get_toRow {name : String} (hcreated : name ≠ createdAtKey)
    (hupdated : name ≠ updatedAtKey) : record.toRow.get name = record.toColumns.get name := by
  rw [toRow, Columns.get, Columns.get?_withMoment_of_ne _ hupdated,
    Columns.get?_withMoment_of_ne _ hcreated]
  rfl

theorem createdAt_toRow (record : Record t) :
    (record.toRow.get createdAtKey).timestamp? = record.createdAt := by
  rw [toRow, Columns.get, Columns.get?_withMoment_of_ne _ (by decide)]
  exact Columns.timestamp?_withMoment _ record.get?_toColumns_createdAt

theorem updatedAt_toRow (record : Record t) :
    (record.toRow.get updatedAtKey).timestamp? = record.updatedAt := by
  refine Columns.timestamp?_withMoment _ ?_
  rw [Columns.get?_withMoment_of_ne _ (by decide)]
  exact record.get?_toColumns_updatedAt

/-- The row of a record is read as the record, up to zeros that stand for none. -/
theorem ofColumns_toRow (record : Record t) :
    ofColumns t record.toRow = .ok { record with details := record.details.normal } := by
  have hidentity : record.toRow.get t.identityKey = record.toColumns.get t.identityKey :=
    get_toRow Table.identityKey_ne_createdAt Table.identityKey_ne_updatedAt
  have hdetails : ∀ m ∈ t.details, record.toRow.get m.key = record.toColumns.get m.key :=
    fun m hm => get_toRow (Table.detail_ne_createdAt m hm) (Table.detail_ne_updatedAt m hm)
  rw [ofColumns_of_holds hidentity hdetails, createdAt_toRow, updatedAt_toRow]

/-- **Records and columns, both ways round.** The columns of any record of any table, be it valid or
not, are read as the record without its moments and without the zeros of members that may be
missing. Whatever columns are read as a record, with any values and whether there are too many or
too few of them, the columns of this record together with its moments are read as the record
again. -/
theorem round_trip (t : Table) :
    (∀ record : Record t, ofColumns t record.toColumns = .ok record.normal) ∧
    ∀ (columns : Columns) (record : Record t), ofColumns t columns = .ok record →
      ofColumns t record.toRow = .ok record := by
  constructor
  · intro record
    rw [ofColumns_of_holds rfl fun _ _ => rfl, Columns.get, Columns.get,
      record.get?_toColumns_createdAt, record.get?_toColumns_updatedAt]
    rfl
  · intro columns record hread
    -- what has been read is normal already, so its row loses nothing
    obtain ⟨-, hdetails, -⟩ := ofColumns_eq_ok_iff.1 hread
    rw [ofColumns_toRow, Details.normal_of_ofColumns hdetails]

/-- A profile with a grade that no school has and the class zero, without a name or a phone number,
which has been changed but never made; one column is of another table. -/
def oddProfile : Columns :=
  .ofList [("teacher_uuid", .text "kim"), ("grade", .int 200), ("class", .int 0),
    ("profile_uri", .text "kim.png"), (createdAtKey, .int 7),
    (updatedAtKey, .timestamp (.ofSeconds 9))]

/-- It is read, and what is read comes back; the same profile with a zero for the class would come
back without a class. -/
theorem round_trip_oddProfile :
    let read : Record .teacherInforms :=
      ⟨"kim", (some (200 : UInt8), none, "", "", ()), none, some (.ofSeconds 9)⟩
    let unread : Record .teacherInforms :=
      ⟨"kim", (some (200 : UInt8), some (0 : UInt8), "", "", ()), none, some (.ofSeconds 9)⟩
    ofColumns .teacherInforms oddProfile = .ok read ∧
      ofColumns .teacherInforms read.toRow = .ok read ∧
      ofColumns .teacherInforms unread.toColumns = .ok { read with updatedAt := none } := by
  intro read unread
  obtain ⟨hwritten, hread⟩ := round_trip .teacherInforms
  have hodd : ofColumns .teacherInforms oddProfile = .ok read := by rfl
  exact ⟨hodd, hread oddProfile read hodd, hwritten unread⟩

end Record

end Rollbook
