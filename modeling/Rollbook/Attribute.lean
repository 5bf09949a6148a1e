import Rollbook.Value

/-!
# Rollbook — attributes

The attributes that records are made of. An attribute names the column it is stored in, says
whether its content is a text or a small number, and carries content to stored values and back.
Two kinds of content have a zero that is stored as nothing: the numbers, whose zero means "not
given", and the uuid of a parent, which is also a student's link to a parent that may be missing.
-/

namespace Rollbook

/-- The kinds of people that hold an account. -/
inductive Role where
  | student
  | teacher
  | parent
  | admin
deriving DecidableEq, Repr

/-- The word that starts the uuids of a role. -/
def Role.word : Role → String
  | .student => "student"
  | .teacher => "teacher"
  | .parent => "parent"
  | .admin => "admin"

/-- Attributes whose content is a text. -/
inductive TextAttribute where
  | uuid (role : Role)
  | loginId (role : Role)
  | password (role : Role)
  | name
  | phoneNumber
  | profileUri
deriving DecidableEq, Repr

/-- Attributes whose content is a number below 256. -/
inductive NumberAttribute where
  | grade
  | schoolClass
  | studentNumber
deriving DecidableEq, Repr

/-- The attributes of the records. -/
inductive Attribute where
  | text (a : TextAttribute)
  | number (a : NumberAttribute)
deriving DecidableEq, Repr

/-- The column that a text attribute is stored in. -/
def TextAttribute.key : TextAttribute → String
  | uuid .student => "student_uuid"
  | uuid .teacher => "teacher_uuid"
  | uuid .parent => "parent_uuid"
  | uuid .admin => "admin_uuid"
  | loginId .student => "student_id"
  | loginId .teacher => "teacher_id"
  | loginId .parent => "parent_id"
  | loginId .admin => "admin_id"
  | password .student => "student_pw"
  | password .teacher => "teacher_pw"
  | password .parent => "parent_pw"
  | password .admin => "admin_pw"
  | name => "name"
  | phoneNumber => "phone_number"
  | profileUri => "profile_uri"

/-- The column that a number attribute is stored in. -/
def NumberAttribute.key : NumberAttribute → String
  | grade => "grade"
  | schoolClass => "class"
  | studentNumber => "student_number"

/-- Why a stored value is no content of an attribute. -/
structure DecodeError where
  target : Attribute
  found : Value
deriving DecidableEq, Repr

namespace Attribute

/-- The column that the attribute is stored in. -/
def key : Attribute → String
  | text a => a.key
  | number a => a.key

/-- What the attribute holds. -/
abbrev Content : Attribute → Type
  | text _ => String
  | number _ => UInt8

/-- All attributes. -/
def all : List Attribute :=
  let roles : List Role := [.student, .teacher, .parent, .admin]
  roles.map (fun r => text (.uuid r)) ++ roles.map (fun r => text (.loginId r))
    ++ roles.map (fun r => text (.password r))
    ++ [text .name, text .phoneNumber, text .profileUri]
    ++ [number .grade, number .schoolClass, number .studentNumber]

/-- The attribute stored in a column. -/
def ofKey? (key : String) : Option Attribute :=
  all.find? fun a => a.key = key

/-- Whether the content is the empty text or the number zero. -/
def isZero : (a : Attribute) → a.Content → Bool
  | text _, s => s = ""
  | number _, n => n = 0

/-- The content as a stored value. The zero of a number and the empty uuid of a parent are stored as
nothing, an empty text of any other attribute as it stands. -/
def toValue : (a : Attribute) → a.Content → Value
  | text (.uuid .parent), s => if s = "" then .null else .text s
  | text _, s => .text s
  | number _, n => if n = 0 then .null else .int n.toNat

/-- The content that a stored value stands for: nothing stands for the zero. -/
def ofValue : (a : Attribute) → Value → Except DecodeError a.Content
  | text _, .text s => .ok s
  | text _, .null => .ok ""
  | text a, found => .error ⟨text a, found⟩
  | number _, .null => .ok 0
  | number a, .int n =>
    if 0 ≤ n ∧ n < 256 then .ok (UInt8.ofNat n.toNat) else .error ⟨number a, .int n⟩
  | number a, found => .error ⟨number a, found⟩

/-- The content as a stored value, where missing content is nothing. -/
def toValue? (a : Attribute) (content : Option a.Content) : Value :=
  (content.map a.toValue).getD .null

/-- The content that a stored value stands for, where a zero counts as missing. -/
def ofValue? (a : Attribute) : Value → Except DecodeError (Option a.Content)
  | .null => .ok none
  | found => (a.ofValue found).map fun c => if a.isZero c then none else some c

/-- The content as plain text. -/
def display : (a : Attribute) → a.Content → String
  | text _, s => s
  | number _, n => toString n.toNat

/-- The name of a text attribute in capitalised words, as its quoted form shows it. -/
def title (a : Attribute) : String :=
  let capitalised (word : List Char) : List Char :=
    match word with
    | [] => []
    | c :: rest => c.toUpper :: rest
  let words := a.key.toList.splitOnP (· = '_')
  String.ofList (words.flatMap capitalised)

end Attribute

/-- The complaint: which column, what was expected there, and what stood in it. -/
def DecodeError.message (e : DecodeError) : String :=
  let expected :=
    match e.target, e.found with
    | .text _, _ => "text"
    | .number _, .int _ => "small integer"
    | .number _, _ => "integer"
  s!"column {e.target.key}: expected {expected}, got {e.found.describe}"

end Rollbook
