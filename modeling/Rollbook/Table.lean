import Rollbook.Attribute

/-!
# Rollbook — tables

The seven tables of the register and their schema. Each table belongs to a role and keeps one kind
of record about it, an account or a profile. A record has a uuid of the role, the identity, and
details given as a list of members; the columns of the table follow from them, with two moments
behind that the engine keeps.
-/

namespace Rollbook

/-- One detail of a record: its label in the exchanged form of a record, its attribute, and whether
it may be missing and must be unique in the table. -/
structure Member where
  label : String
  target : Attribute
  optional : Bool
  unique : Bool
deriving DecidableEq, Repr

namespace Member

/-- A detail that every record has. -/
def required (label : String) (target : Attribute) : Member := ⟨label, target, false, false⟩

/-- A detail that every record has and no two records share. -/
def distinct (label : String) (target : Attribute) : Member := ⟨label, target, false, true⟩

/-- A detail that a record may lack. -/
def possible (label : String) (target : Attribute) : Member := ⟨label, target, true, false⟩

/-- The column that the detail is stored in. -/
def key (m : Member) : String := m.target.key

end Member

/-- What a column holds. -/
inductive ColumnKind where
  | int
  | text
  | timestamp
deriving DecidableEq, Repr

/-- The kind of column that an attribute is stored in. -/
def Attribute.kind : Attribute → ColumnKind
  | text _ => .text
  | number _ => .int

/-- A column of a table. -/
structure Column where
  name : String
  kind : ColumnKind
  nullable : Bool
  unique : Bool
deriving DecidableEq, Repr

/-- The tables of the register. -/
inductive Table where
  | parentAuths
  | adminAuths
  | teacherAuths
  | studentAuths
  | parentInforms
  | teacherInforms
  | studentInforms
deriving DecidableEq, Repr

/-- A rule that a non-empty column holds the value of a column of some row of another table. -/
structure ForeignKey where
  constraint : String
  column : String
  refTable : Table
  refColumn : String
deriving DecidableEq, Repr

/-- The column of the moment at which a row was inserted. -/
def createdAtKey : String := "created_at"

/-- The column of the moment at which a row was last changed. -/
def updatedAtKey : String := "updated_at"

namespace Table

/-- All tables; a table stands behind those that its foreign keys name. -/
def all : List Table :=
  [parentAuths, adminAuths, teacherAuths, studentAuths, parentInforms, teacherInforms,
    studentInforms]

theorem mem_all (t : Table) : t ∈ all := by cases t <;> decide

def name : Table → String
  | parentAuths => "parent_auths"
  | adminAuths => "admin_auths"
  | teacherAuths => "teacher_auths"
  | studentAuths => "student_auths"
  | parentInforms => "parent_informs"
  | teacherInforms => "teacher_informs"
  | studentInforms => "student_informs"

def ofName? (name : String) : Option Table := all.find? fun t => t.name = name

/-- The role that the records of the table are about. -/
def role : Table → Role
  | parentAuths => .parent
  | adminAuths => .admin
  | teacherAuths => .teacher
  | studentAuths => .student
  | parentInforms => .parent
  | teacherInforms => .teacher
  | studentInforms => .student

/-- The attribute that identifies a record. -/
def identity (t : Table) : Attribute := .text (.uuid t.role)

/-- The column of the identity. -/
def identityKey (t : Table) : String := t.identity.key

/-- The label of the identity in the exchanged form of a record. -/
def identityLabel : Table → String
  | parentAuths => "uuid"
  | adminAuths => "uuid"
  | teacherAuths => "uuid"
  | studentAuths => "uuid"
  | parentInforms => "parent_uuid"
  | teacherInforms => "teacher_uuid"
  | studentInforms => "student_uuid"

/-- The details of a record after its identity. A student may be linked to a parent, and a teacher
may have no class yet. -/
abbrev details : Table → List Member
  | parentAuths =>
    [.distinct "login_id" (.text (.loginId .parent)),
      .required "password" (.text (.password .parent))]
  | adminAuths =>
    [.distinct "login_id" (.text (.loginId .admin)),
      .required "password" (.text (.password .admin))]
  | teacherAuths =>
    [.distinct "login_id" (.text (.loginId .teacher)),
      .required "password" (.text (.password .teacher))]
  | studentAuths =>
    [.distinct "student_id" (.text (.loginId .student)),
      .required "student_pw" (.text (.password .student)),
      .possible "parent_uuid" (.text (.uuid .parent))]
  | parentInforms =>
    [.required "name" (.text .name),
      .distinct "phone_number" (.text .phoneNumber)]
  | teacherInforms =>
    [.possible "grade" (.number .grade),
      .possible "class" (.number .schoolClass),
      .required "name" (.text .name),
      .distinct "phone_number" (.text .phoneNumber)]
  | studentInforms =>
    [.required "grade" (.number .grade),
      .required "class" (.number .schoolClass),
      .required "student_number" (.number .studentNumber),
      .required "name" (.text .name),
      .distinct "phone_number" (.text .phoneNumber),
      .distinct "profile_uri" (.text .profileUri)]

/-- The columns in declared order: identity, details, and the two moments. -/
def columns (t : Table) : List Column :=
  ⟨t.identityKey, t.identity.kind, false, false⟩
    :: t.details.map (fun m => ⟨m.key, m.target.kind, m.optional, m.unique⟩)
    ++ [⟨createdAtKey, .timestamp, false, false⟩, ⟨updatedAtKey, .timestamp, false, false⟩]

/-- The column of a name. -/
def column? (t : Table) (name : String) : Option Column :=
  t.columns.find? fun c => c.name = name

/-- Whether the engine keeps the column. -/
def isTimestamp (t : Table) (name : String) : Bool :=
  (t.column? name).any fun c => c.kind = .timestamp

/-- Whether no two rows may hold the same value in the column. -/
def isKey (t : Table) (c : Column) : Bool :=
  c.unique || c.name = t.identityKey

/-- The name under which a duplicate in a column is reported: `PRIMARY` for the identity and for
what is no column, else the name of the column. -/
def keyName (t : Table) (name : String) : String :=
  if name = t.identityKey then "PRIMARY"
  else ((t.column? name).map (·.name)).getD "PRIMARY"

/-- A student refers to the linked parent, and a profile to the account of its role. -/
def foreignKeys : Table → List ForeignKey
  | studentAuths =>
    [⟨"fk_student_auths_parent_uuid", "parent_uuid", parentAuths, "parent_uuid"⟩]
  | parentInforms =>
    [⟨"fk_parent_informs_parent_uuid", "parent_uuid", parentAuths, "parent_uuid"⟩]
  | teacherInforms =>
    [⟨"fk_teacher_informs_teacher_uuid", "teacher_uuid", teacherAuths, "teacher_uuid"⟩]
  | studentInforms =>
    [⟨"fk_student_informs_student_uuid", "student_uuid", studentAuths, "student_uuid"⟩]
  | _ => []

/-- The column names of a table are distinct. -/
theorem columns_nodup (t : Table) : (t.columns.map (·.name)).Nodup := by
  cases t <;> decide

theorem column?_isSome_iff {t : Table} {name : String} :
    (t.column? name).isSome = true ↔ ∃ c ∈ t.columns, c.name = name := by
  simp [column?, List.find?_isSome]

/-- Every row has its identity. -/
theorem exists_identity (t : Table) : ∃ c ∈ t.columns, c.name = t.identityKey := by
  cases t <;> decide

/-- Every row has the moment of its last change. -/
theorem exists_updatedAt (t : Table) : ∃ c ∈ t.columns, c.name = updatedAtKey := by
  cases t <;> decide

/-- A column belongs to the identity, to a detail, or to one of the two moments. -/
theorem exists_column_iff {t : Table} {name : String} :
    (∃ c ∈ t.columns, c.name = name) ↔
      name = t.identityKey ∨ (∃ m ∈ t.details, m.key = name) ∨
        name = createdAtKey ∨ name = updatedAtKey := by
  simp only [columns, List.cons_append, List.mem_cons, List.mem_append, List.mem_map,
    List.not_mem_nil, or_false]
  constructor
  · rintro ⟨c, rfl | ⟨m, hm, rfl⟩ | rfl | rfl, rfl⟩
    · exact .inl rfl
    · exact .inr (.inl ⟨m, hm, rfl⟩)
    · exact .inr (.inr (.inl rfl))
    · exact .inr (.inr (.inr rfl))
  · rintro (rfl | ⟨m, hm, rfl⟩ | rfl | rfl)
    · exact ⟨_, .inl rfl, rfl⟩
    · exact ⟨_, .inr (.inl ⟨m, hm, rfl⟩), rfl⟩
    · exact ⟨_, .inr (.inr (.inl rfl)), rfl⟩
    · exact ⟨_, .inr (.inr (.inr rfl)), rfl⟩

/-- The layouts keep the names of their columns apart: no detail has the name of the identity. -/
theorem identityKey_not_detail {t : Table} : ∀ m ∈ t.details, m.key ≠ t.identityKey := by
  cases t <;> decide

theorem details_keys_nodup {t : Table} : (t.details.map Member.key).Nodup := by
  cases t <;> decide

/-- The moment of creation has a name of its own, which is not the identity's. -/
theorem identityKey_ne_createdAt {t : Table} : t.identityKey ≠ createdAtKey := by
  cases t <;> decide

theorem identityKey_ne_updatedAt {t : Table} : t.identityKey ≠ updatedAtKey := by
  cases t <;> decide

theorem detail_ne_createdAt {t : Table} : ∀ m ∈ t.details, m.key ≠ createdAtKey := by
  cases t <;> decide

theorem detail_ne_updatedAt {t : Table} : ∀ m ∈ t.details, m.key ≠ updatedAtKey := by
  cases t <;> decide

/-- The engine fills in moments when it completes a row, and the identity is none of them. -/
theorem not_isTimestamp_identityKey {t : Table} : t.isTimestamp t.identityKey = false := by
  cases t <;> decide

theorem not_isTimestamp_detail {t : Table} : ∀ m ∈ t.details, t.isTimestamp m.key = false := by
  cases t <;> decide

/-- Of the details, only those that may be missing have a column that may be empty. -/
theorem optional_of_nullable {t : Table} : ∀ m ∈ t.details, ∀ c ∈ t.columns, c.name = m.key →
    c.nullable = false → m.optional = false := by
  cases t <;> decide

/-- A key column always holds a value. -/
theorem not_nullable_of_isKey {t : Table} :
    ∀ c ∈ t.columns, t.isKey c = true → c.nullable = false := by
  cases t <;> decide

/-- No table refers to itself. -/
theorem refTable_ne {t : Table} : ∀ fk ∈ t.foreignKeys, fk.refTable ≠ t := by
  cases t <;> decide

end Table

/-- The table that keeps the accounts of a role. -/
def Role.accounts : Role → Table
  | .student => .studentAuths
  | .teacher => .teacherAuths
  | .parent => .parentAuths
  | .admin => .adminAuths

/-- The roles whose people have a profile. -/
inductive Person where
  | student
  | teacher
  | parent
deriving DecidableEq, Repr

/-- The table that keeps the profiles of a role. -/
def Person.profiles : Person → Table
  | .student => .studentInforms
  | .teacher => .teacherInforms
  | .parent => .parentInforms

end Rollbook
