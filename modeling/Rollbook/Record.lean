import Rollbook.Record.Details

/-!
# Rollbook — records and revisions

A record is a full row of a table with typed contents; a revision is its sparse counterpart, used
both to change records and to look for them. A record and the row that it is stored as determine
each other, up to the two moments that the engine adds and to zeros that stand for nothing.
-/

namespace Rollbook

/-- A record of a table. The moments are missing until the record has been stored. -/
structure Record (t : Table) where
  uuid : String
  details : Details t.details
  createdAt : Option Timestamp
  updatedAt : Option Timestamp
deriving DecidableEq

/-- Changes to a record, or a description of records: what is not supplied may be anything. -/
structure Revision (t : Table) where
  uuid : Option String
  changes : Changes t.details

/-- A rule over several columns that no engine key covers: the name and the text that a clash is
reported with, and the filter that finds the rows that hold the key. -/
structure CompositeKey where
  name : String
  entry : String
  filter : Columns
deriving DecidableEq

/-- The filter for the records with a given uuid. -/
def Table.identityFilter (t : Table) (uuid : String) : Columns :=
  (∅ : Columns).insert t.identityKey (t.identity.toValue uuid)

theorem Table.get?_identityFilter (t : Table) (uuid : String) :
    (t.identityFilter uuid).get? t.identityKey = some (t.identity.toValue uuid) :=
  Columns.get?_insert_self _ _ _

/-- A row meets the filter of a uuid when it has this uuid. -/
theorem Table.meets_identityFilter {t : Table} {uuid : String} {row : Row} :
    row.meets (t.identityFilter uuid) = true ↔
      row.get t.identityKey = t.identity.toValue uuid := by
  rw [Columns.meets_iff]
  constructor
  · exact fun h => h _ _ (t.get?_identityFilter uuid)
  · intro h name value hvalue
    rw [identityFilter, Columns.get?_insert] at hvalue
    split at hvalue
    · next hname =>
      cases hvalue
      rw [hname, h]
    · cases hvalue

/-- The columns that the composite key of a table covers. -/
def Table.compositeColumns : Table → List String
  | .studentInforms =>
    [NumberAttribute.grade.key, NumberAttribute.schoolClass.key, NumberAttribute.studentNumber.key]
  | .teacherInforms => [NumberAttribute.grade.key, NumberAttribute.schoolClass.key]
  | _ => []

namespace Record

variable {t : Table}

/-- Reports the first invalid content, the uuid before the details. -/
def check (r : Record t) : Except Violation Unit := do
  t.identity.check r.uuid
  r.details.check

/-- The row that is written for the record, without the moments. -/
def toColumns (r : Record t) : Columns :=
  r.details.toColumns.insert t.identityKey (t.identity.toValue r.uuid)

/-- The record that a row stands for. Columns of other names are left aside. -/
def ofColumns (t : Table) (row : Columns) : Except DecodeError (Record t) := do
  let uuid ← t.identity.ofValue (row.get t.identityKey)
  let details ← Details.ofColumns t.details row
  return ⟨uuid, details, (row.get createdAtKey).timestamp?, (row.get updatedAtKey).timestamp?⟩

/-- The column of one number and its value, as part of a composite key. -/
private def part (a : NumberAttribute) (content : UInt8) : String × Value :=
  (a.key, (Attribute.number a).toValue content)

/-- The key of a seat: grade, class and the student's number in two places. -/
def seat (grade schoolClass number : UInt8) : CompositeKey where
  name := "number"
  entry := s!"{grade.toNat}{schoolClass.toNat}{Text.padded 2 number.toNat}"
  filter := .ofList [part .grade grade, part .schoolClass schoolClass, part .studentNumber number]

/-- The key of a homeroom: grade and class. -/
def homeroom (grade schoolClass : UInt8) : CompositeKey where
  name := "class"
  entry := s!"{grade.toNat}{schoolClass.toNat}"
  filter := .ofList [part .grade grade, part .schoolClass schoolClass]

/-- The composite key of the record: the seat of a student, and the homeroom of a teacher who has
both a grade and a class. -/
def compositeKey : {t : Table} → Record t → Option CompositeKey
  | .studentInforms, ⟨_, (grade, schoolClass, number, _), _, _⟩ =>
    some (seat grade schoolClass number)
  | .teacherInforms, ⟨_, (some grade, some schoolClass, _), _, _⟩ =>
    some (homeroom grade schoolClass)
  | _, _ => none

end Record

namespace Revision

variable {t : Table}

/-- Reports the first invalid content among those supplied, the uuid before the details. -/
def check (r : Revision t) : Except Violation Unit := do
  match r.uuid with
  | some uuid => t.identity.check uuid
  | none => .ok ()
  r.changes.check

/-- The columns that the revision sets. -/
def payload (r : Revision t) : Columns := r.changes.toColumns

/-- A revision sets columns of details only. -/
theorem get?_payload_eq_none (revision : Revision t) {name : String}
    (h : ∀ m ∈ t.details, m.key ≠ name) : revision.payload.get? name = none := by
  cases hvalue : revision.payload.get? name with
  | none => rfl
  | some value =>
    obtain ⟨m, hm, -, hkey, -⟩ := Changes.exists_of_get? hvalue
    exact absurd hkey (h m hm)

theorem get?_payload_identityKey (revision : Revision t) :
    revision.payload.get? t.identityKey = none :=
  revision.get?_payload_eq_none Table.identityKey_not_detail

/-- The columns that the revision asks for, the identity included. -/
def criteria (r : Revision t) : Columns :=
  match r.uuid with
  | some uuid => r.payload.insert t.identityKey (t.identity.toValue uuid)
  | none => r.payload

end Revision

end Rollbook
