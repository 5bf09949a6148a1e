import Rollbook.Attribute

/-!
# Rollbook — rules for attributes

What a valid content of each attribute is, and the violation that an invalid one is reported as.
Where two rules fail, the violation names the first: missing, then characters, then length.
-/

namespace Rollbook

/-- How a content breaks the rule of its attribute. -/
inductive Violation where
  | malformedUuid (role : Role) (value : String)
  | length (field : TextAttribute) (actual min max : Nat)
  | charset (field : TextAttribute)
  | outOfRange (field : NumberAttribute) (value : UInt8) (min max : Nat)
  | digits (field : TextAttribute) (count : Nat)
  | missing (field : TextAttribute)
deriving DecidableEq, Repr

/-- The wording of a violation. -/
def Violation.message : Violation → String
  | malformedUuid role value =>
    let field := (TextAttribute.uuid role).key
    s!"{field} must be `{role.word}-` followed by 12 digits, got {Text.quote value}"
  | length field actual min max =>
    s!"{field.key} must be between {min} and {max} characters long, got {actual}"
  | charset field => s!"{field.key} contains characters outside the allowed set"
  | outOfRange field value min max =>
    s!"{field.key} must be between {min} and {max}, got {value.toNat}"
  | digits field count => s!"{field.key} must be exactly {count} digits"
  | missing field => s!"{field.key} is required"

/-! ## Classes of characters -/

/-- The printable characters of ASCII other than the space. -/
def isGraphic (c : Char) : Bool := '!' ≤ c && c ≤ '~'

/-- The decimal digits of ASCII. -/
def isDigit (c : Char) : Bool := '0' ≤ c && c ≤ '9'

/-- Exactly `count` decimal digits and nothing else. -/
def isDigits (count : Nat) (cs : List Char) : Bool :=
  cs.length = count && cs.all isDigit

/-! ## Checks -/

/-- Passes, or reports the violation. -/
def require (ok : Bool) (otherwise : Violation) : Except Violation Unit :=
  if ok then .ok () else .error otherwise

/-- The length lies between two bounds, both included. -/
def checkLength (field : TextAttribute) (actual min max : Nat) : Except Violation Unit :=
  require (min ≤ actual && actual ≤ max) (.length field actual min max)

/-- A uuid is the word of its role, a dash and twelve digits. -/
def checkUuid (role : Role) (value : String) : Except Violation Unit :=
  let lead := role.word.toList ++ ['-']
  let cs := value.toList
  require (lead.isPrefixOf cs && isDigits 12 (cs.drop lead.length)) (.malformedUuid role value)

/-- The rule of each text attribute. A name is counted in characters and a password hash in bytes;
a profile address holds no backtick, which delimits tokens in engine messages. -/
def TextAttribute.check (field : TextAttribute) (value : String) : Except Violation Unit :=
  match field with
  | uuid role => checkUuid role value
  | loginId _ => do
    require (value.toList.all isGraphic) (.charset field)
    checkLength field value.length 4 20
  | password _ => do
    require (value != "") (.missing field)
    checkLength field value.utf8ByteSize 1 255
  | name => checkLength field value.length 2 4
  | phoneNumber => require (isDigits 11 value.toList) (.digits field 11)
  | profileUri => do
    require (value != "") (.missing field)
    require (value.toList.all fun c => isGraphic c && c != '\x60') (.charset field)
    checkLength field value.length 1 255

/-- The greatest valid content of a number attribute; the least is one. -/
def NumberAttribute.max : NumberAttribute → Nat
  | grade => 3
  | schoolClass => 4
  | studentNumber => 21

def NumberAttribute.check (field : NumberAttribute) (value : UInt8) : Except Violation Unit :=
  require (1 ≤ value.toNat && value.toNat ≤ field.max) (.outOfRange field value 1 field.max)

/-- The rule of an attribute. -/
def Attribute.check : (a : Attribute) → a.Content → Except Violation Unit
  | text a, s => a.check s
  | number a, n => a.check n

end Rollbook
