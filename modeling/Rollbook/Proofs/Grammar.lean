import Rollbook.Attribute.Rule
import Rollbook.Proofs.Bytes

/-!
# Rollbook — the grammar of each text

What a valid content of a text attribute is, told in the code points of its characters; how every
other text breaks the rule, and which violation is reported where there are two to choose from; and
that nothing but the bytes is needed to tell. A character that is not of ASCII takes more than one
byte, so a number of bytes says nothing about characters until all of them are known to be of ASCII.
The rules that may count bytes for characters are those that ask for that before.

* `TextAttribute.Valid`, `TextAttribute.Breaks` — the grammar of an attribute and its violations.
* `check_of_valid`, `check_of_breaks`, `valid_or_breaks` — every text is accepted or refused so.
* `role_eq_of_valid`                            — a uuid tells its role.
* `checkBytes_eq`                               — the check on the bytes is the check.
* `check_grammar`                               — all of it, for every attribute and every text.
-/

namespace Rollbook

-- ---------------------------------------------------------------------------
-- Classes of code points
-- ---------------------------------------------------------------------------

/-- The code points of printable characters of ASCII other than the space. -/
def Graphic (n : Nat) : Prop := 0x21 ≤ n ∧ n ≤ 0x7e

/-- The code points of the decimal digits of ASCII. -/
def Decimal (n : Nat) : Prop := 0x30 ≤ n ∧ n ≤ 0x39

/-- The code points that a profile address may hold: all that are graphic but the backtick. -/
def Unmarked (n : Nat) : Prop := Graphic n ∧ n ≠ 0x60

instance : DecidablePred Graphic := fun n => inferInstanceAs (Decidable (0x21 ≤ n ∧ n ≤ 0x7e))

instance : DecidablePred Decimal := fun n => inferInstanceAs (Decidable (0x30 ≤ n ∧ n ≤ 0x39))

instance : DecidablePred Unmarked := fun n => inferInstanceAs (Decidable (Graphic n ∧ n ≠ 0x60))

/-- Graphic characters are ASCII. So are the other classes, and that is all that matters when the
bytes of a text are asked in place of its characters. -/
theorem Graphic.lt {n : Nat} (h : Graphic n) : n < 128 := Nat.lt_of_le_of_lt h.2 (by decide)

theorem Decimal.lt {n : Nat} (h : Decimal n) : n < 128 := Nat.lt_of_le_of_lt h.2 (by decide)

theorem Unmarked.lt {n : Nat} (h : Unmarked n) : n < 128 := h.1.lt

theorem isGraphic_iff {c : Char} : isGraphic c = true ↔ Graphic c.toNat := by
  rw [isGraphic, Bool.and_eq_true, decide_eq_true_eq, decide_eq_true_eq]
  exact Iff.rfl

theorem isDigit_iff {c : Char} : isDigit c = true ↔ Decimal c.toNat := by
  rw [isDigit, Bool.and_eq_true, decide_eq_true_eq, decide_eq_true_eq]
  exact Iff.rfl

/-- The check of an unmarked character; the backtick has the number 0x60. -/
theorem isUnmarked_iff {c : Char} :
    (isGraphic c && c != '\x60') = true ↔ Unmarked c.toNat := by
  rw [Bool.and_eq_true, isGraphic_iff, bne_iff_ne, Unmarked, ne_eq, ← Char.toNat_inj]
  exact Iff.rfl

-- ---------------------------------------------------------------------------
-- Grammars
-- ---------------------------------------------------------------------------

namespace TextAttribute

/-- The text is a valid content of the attribute. -/
def Valid (s : String) : TextAttribute → Prop
  | uuid role => ∃ digits : String, s = role.word ++ "-" ++ digits ∧ digits.length = 12 ∧
      ∀ c ∈ digits.toList, Decimal c.toNat
  | loginId _ => (∀ c ∈ s.toList, Graphic c.toNat) ∧ 4 ≤ s.length ∧ s.length ≤ 20
  | password _ => 1 ≤ s.utf8ByteSize ∧ s.utf8ByteSize ≤ 255
  | name => 2 ≤ s.length ∧ s.length ≤ 4
  | phoneNumber => s.length = 11 ∧ ∀ c ∈ s.toList, Decimal c.toNat
  | profileUri => (∀ c ∈ s.toList, Unmarked c.toNat) ∧ 1 ≤ s.length ∧ s.length ≤ 255

/-- The text breaks the rule of the attribute, and this is how it is reported: what is empty is
missing before it is too short, and what holds a wrong character is not measured. -/
inductive Breaks (s : String) : TextAttribute → Violation → Prop
  | malformedUuid {role : Role} (h : ¬Valid s (uuid role)) :
    Breaks s (uuid role) (.malformedUuid role s)
  | charsetOfLoginId {role : Role} (h : ∃ c ∈ s.toList, ¬Graphic c.toNat) :
    Breaks s (loginId role) (.charset (loginId role))
  | lengthOfLoginId {role : Role} (hchars : ∀ c ∈ s.toList, Graphic c.toNat)
    (h : ¬(4 ≤ s.length ∧ s.length ≤ 20)) :
    Breaks s (loginId role) (.length (loginId role) s.length 4 20)
  | missingPassword {role : Role} (h : s = "") :
    Breaks s (password role) (.missing (password role))
  | lengthOfPassword {role : Role} (h : 255 < s.utf8ByteSize) :
    Breaks s (password role) (.length (password role) s.utf8ByteSize 1 255)
  | lengthOfName (h : ¬(2 ≤ s.length ∧ s.length ≤ 4)) : Breaks s name (.length name s.length 2 4)
  | digitsOfPhoneNumber (h : ¬Valid s phoneNumber) : Breaks s phoneNumber (.digits phoneNumber 11)
  | missingProfileUri (h : s = "") : Breaks s profileUri (.missing profileUri)
  | charsetOfProfileUri (h : ∃ c ∈ s.toList, ¬Unmarked c.toNat) :
    Breaks s profileUri (.charset profileUri)
  | lengthOfProfileUri (hchars : ∀ c ∈ s.toList, Unmarked c.toNat) (h : 255 < s.length) :
    Breaks s profileUri (.length profileUri s.length 1 255)

variable {s : String} {a : TextAttribute} {v : Violation}

-- ---------------------------------------------------------------------------
-- What is checked
-- ---------------------------------------------------------------------------

theorem require_of_true {ok : Bool} (h : ok = true) : require ok v = .ok () := if_pos h

theorem require_of_false {ok : Bool} (h : ¬ok = true) : require ok v = .error v := if_neg h

theorem require_bind_of_true {ok : Bool} (h : ok = true) (f : Unit → Except Violation Unit) :
    (require ok v >>= f) = f () := by
  rw [require_of_true h]
  rfl

/-- A requirement that is not met decides before all that follow. -/
theorem require_bind_of_false {ok : Bool} (h : ¬ok = true) (f : Unit → Except Violation Unit) :
    (require ok v >>= f) = .error v := by
  rw [require_of_false h]
  rfl

/-- The bounds of a length or a number are inclusive. -/
theorem within_iff {n min max : Nat} :
    (min ≤ n && n ≤ max) = true ↔ min ≤ n ∧ n ≤ max := by
  rw [Bool.and_eq_true, decide_eq_true_eq, decide_eq_true_eq]

theorem checkLength_ok {n min max : Nat} (h : min ≤ n ∧ n ≤ max) :
    checkLength a n min max = .ok () := require_of_true (within_iff.2 h)

theorem checkLength_error {n min max : Nat} (h : ¬(min ≤ n ∧ n ≤ max)) :
    checkLength a n min max = .error (.length a n min max) :=
  require_of_false fun hwithin => h (within_iff.1 hwithin)

/-- A text passes a check of its characters when each of them is in the class. -/
theorem all_iff {p : Char → Bool} {P : Nat → Prop} (hp : ∀ {c : Char}, p c = true ↔ P c.toNat)
    {cs : List Char} : cs.all p = true ↔ ∀ c ∈ cs, P c.toNat := by
  rw [List.all_eq_true]
  exact forall₂_congr fun c _ => hp

/-- A text of so many digits: their number is exact and nothing else is in it. -/
theorem isDigits_iff {n : Nat} {cs : List Char} :
    isDigits n cs = true ↔ cs.length = n ∧ ∀ c ∈ cs, Decimal c.toNat := by
  rw [isDigits, Bool.and_eq_true, decide_eq_true_eq, all_iff isDigit_iff]

/-- The characters of a uuid: the word of its role, a dash and the digits. -/
theorem toList_uuid (role : Role) (digits : String) :
    (role.word ++ "-" ++ digits).toList = role.word.toList ++ ['-'] ++ digits.toList := by
  rw [String.toList_append, String.toList_append]
  rfl

/-- A text that starts with the word and the dash and goes on with digits is made up of these. -/
theorem uuid_iff {role : Role} :
    ((role.word.toList ++ ['-']).isPrefixOf s.toList &&
      isDigits 12 (s.toList.drop (role.word.toList ++ ['-']).length)) = true ↔
        Valid s (uuid role) := by
  rw [Bool.and_eq_true, List.isPrefixOf_iff_prefix, isDigits_iff]
  constructor
  · rintro ⟨⟨rest, hrest⟩, hlength, hdigits⟩
    rw [← hrest, List.drop_left] at hlength hdigits
    refine ⟨String.ofList rest, String.toList_injective ?_, ?_, ?_⟩
    · rw [toList_uuid, String.toList_ofList, hrest]
    · rw [← String.length_toList, String.toList_ofList, hlength]
    · rwa [String.toList_ofList]
  · rintro ⟨digits, rfl, hlength, hdigits⟩
    rw [toList_uuid, List.drop_left, String.length_toList]
    exact ⟨List.prefix_append _ _, hlength, hdigits⟩

/-- A text of some length is there. -/
theorem bne_empty_of_length (h : 1 ≤ s.length) : (s != "") = true := by
  rw [bne_iff_ne]
  rintro rfl
  exact absurd h (by decide)

theorem bne_empty_of_size (h : 1 ≤ s.utf8ByteSize) : (s != "") = true := by
  rw [bne_iff_ne]
  rintro rfl
  exact absurd h (by decide)

/-- **Every valid text is accepted.** -/
theorem check_of_valid (h : Valid s a) : a.check s = .ok () := by
  cases a with
  | uuid role => exact require_of_true (uuid_iff.2 h)
  | loginId role =>
    obtain ⟨hchars, hlength⟩ := h
    exact (require_bind_of_true ((all_iff isGraphic_iff).2 hchars) _).trans (checkLength_ok hlength)
  | password role =>
    exact (require_bind_of_true (bne_empty_of_size h.1) _).trans (checkLength_ok h)
  | name => exact checkLength_ok h
  | phoneNumber => exact require_of_true (isDigits_iff.2 (String.length_toList.symm ▸ h))
  | profileUri =>
    obtain ⟨hchars, hlength⟩ := h
    exact (require_bind_of_true (bne_empty_of_length hlength.1) _).trans
      ((require_bind_of_true ((all_iff isUnmarked_iff).2 hchars) _).trans (checkLength_ok hlength))

theorem not_all {p : Char → Bool} {P : Nat → Prop} (hp : ∀ {c : Char}, p c = true ↔ P c.toNat)
    {cs : List Char} (h : ∃ c ∈ cs, ¬P c.toNat) : ¬cs.all p = true := by
  obtain ⟨c, hc, hother⟩ := h
  exact fun hall => hother ((all_iff hp).1 hall c hc)

/-- **Every violation is reported.** -/
theorem check_of_breaks (h : Breaks s a v) : a.check s = .error v := by
  cases h with
  | malformedUuid h => exact require_of_false fun hok => h (uuid_iff.1 hok)
  | charsetOfLoginId h => exact require_bind_of_false (not_all isGraphic_iff h) _
  | lengthOfLoginId hchars h =>
    exact (require_bind_of_true ((all_iff isGraphic_iff).2 hchars) _).trans (checkLength_error h)
  | missingPassword h =>
    subst h
    rfl
  | lengthOfPassword h =>
    exact (require_bind_of_true (bne_empty_of_size (by omega)) _).trans
      (checkLength_error (by omega))
  | lengthOfName h => exact checkLength_error h
  | digitsOfPhoneNumber h =>
    refine require_of_false fun hok => h ?_
    rw [isDigits_iff, String.length_toList] at hok
    exact hok
  | missingProfileUri h =>
    subst h
    rfl
  | charsetOfProfileUri h =>
    have hsome : (s != "") = true := by
      rw [bne_iff_ne]
      rintro rfl
      obtain ⟨c, hc, -⟩ := h
      cases hc
    exact (require_bind_of_true hsome _).trans
      (require_bind_of_false (not_all isUnmarked_iff h) _)
  | lengthOfProfileUri hchars h =>
    exact (require_bind_of_true (bne_empty_of_length (by omega)) _).trans
      ((require_bind_of_true ((all_iff isUnmarked_iff).2 hchars) _).trans
        (checkLength_error (by omega)))

/-- **Every text is valid or breaks the rule.** -/
theorem valid_or_breaks (s : String) (a : TextAttribute) : Valid s a ∨ ∃ v, Breaks s a v := by
  by_cases hvalid : Valid s a
  · exact .inl hvalid
  refine .inr ?_
  cases a with
  | uuid role => exact ⟨_, .malformedUuid hvalid⟩
  | loginId role =>
    by_cases hchars : ∀ c ∈ s.toList, Graphic c.toNat
    · exact ⟨_, .lengthOfLoginId hchars fun hlength => hvalid ⟨hchars, hlength⟩⟩
    · push Not at hchars
      exact ⟨_, .charsetOfLoginId hchars⟩
  | password role =>
    by_cases hsize : s.utf8ByteSize = 0
    · exact ⟨_, .missingPassword (String.utf8ByteSize_eq_zero_iff.1 hsize)⟩
    · have hmax : ¬s.utf8ByteSize ≤ 255 := fun hmax => hvalid ⟨by omega, hmax⟩
      exact ⟨_, .lengthOfPassword (Nat.lt_of_not_le hmax)⟩
  | name => exact ⟨_, .lengthOfName hvalid⟩
  | phoneNumber => exact ⟨_, .digitsOfPhoneNumber hvalid⟩
  | profileUri =>
    by_cases hchars : ∀ c ∈ s.toList, Unmarked c.toNat
    · by_cases hlength : s.length = 0
      · exact ⟨_, .missingProfileUri (String.length_eq_zero_iff.1 hlength)⟩
      · have hmax : ¬s.length ≤ 255 := fun hmax => hvalid ⟨hchars, by omega, hmax⟩
        exact ⟨_, .lengthOfProfileUri hchars (Nat.lt_of_not_le hmax)⟩
    · push Not at hchars
      exact ⟨_, .charsetOfProfileUri hchars⟩

/-- A text passes the check of an attribute when it is valid for it, and only then. -/
theorem check_eq_ok_iff : a.check s = .ok () ↔ Valid s a := by
  refine ⟨fun hok => ?_, check_of_valid⟩
  rcases valid_or_breaks s a with h | ⟨v, h⟩
  · exact h
  · cases hok.symm.trans (check_of_breaks h)

/-- A check gives a violation just when the text breaks the rule of it and none of the rules before.
Since every text is valid or breaks a rule, one direction is enough for both. -/
theorem check_eq_error_iff : a.check s = .error v ↔ Breaks s a v := by
  refine ⟨fun herror => ?_, check_of_breaks⟩
  rcases valid_or_breaks s a with h | ⟨v', h⟩
  · cases herror.symm.trans (check_of_valid h)
  · cases herror.symm.trans (check_of_breaks h)
    exact h

/-- **A uuid tells its role**: its digits are the last twelve characters, and the word in front of
them is that of one role. -/
theorem role_eq_of_valid {role role' : Role} (h : Valid s (uuid role)) (h' : Valid s (uuid role')) :
    role = role' := by
  obtain ⟨digits, hs, hlength, -⟩ := h
  obtain ⟨digits', hs', hlength', -⟩ := h'
  have hlist : role.word.toList ++ ['-'] ++ digits.toList =
      role'.word.toList ++ ['-'] ++ digits'.toList := by
    rw [← toList_uuid, ← toList_uuid, ← hs, ← hs']
  have hlead := (List.append_inj' hlist (by
    rw [String.length_toList, String.length_toList, hlength, hlength'])).1
  have hword : role.word = role'.word := String.toList_injective (List.append_cancel_right hlead)
  revert hword
  cases role <;> cases role' <;> decide

-- ---------------------------------------------------------------------------
-- The bytes of a text
-- ---------------------------------------------------------------------------

/-- The rule of each text attribute, checked on the bytes of the text as it is stored: characters
are counted by their first bytes where they are counted at all. -/
def checkBytes (field : TextAttribute) (value : String) : Except Violation Unit :=
  let bytes := Text.bytes value
  match field with
  | uuid role =>
    let digits? := (bytes.dropPrefix? (Text.bytes role.word)).bind fun rest =>
      rest.dropPrefix? (Text.bytes "-")
    require (digits?.any fun digits => digits.length = 12 && digits.all fun b => Decimal b.toNat)
      (.malformedUuid role value)
  | loginId _ => do
    require (bytes.all fun b => Graphic b.toNat) (.charset field)
    checkLength field bytes.length 4 20
  | password _ => do
    require (!bytes.isEmpty) (.missing field)
    checkLength field bytes.length 1 255
  | name => checkLength field (bytes.countP Text.leads) 2 4
  | phoneNumber =>
    require (bytes.length = 11 && bytes.all fun b => Decimal b.toNat) (.digits field 11)
  | profileUri => do
    require (!bytes.isEmpty) (.missing field)
    require (bytes.all fun b => Unmarked b.toNat) (.charset field)
    checkLength field bytes.length 1 255

/-- A class of ASCII may be asked of the bytes: no byte of another character is in it. -/
theorem all_bytes_iff {P : Nat → Prop} [DecidablePred P] (hascii : ∀ n, P n → n < 128) :
    ((Text.bytes s).all fun b => P b.toNat) = true ↔ ∀ c ∈ s.toList, P c.toNat := by
  rw [List.all_eq_true, ← Text.forall_bytes_iff hascii]
  exact forall₂_congr fun b _ => decide_eq_true_iff

/-- Bytes and characters pass the same test where the test is one of ASCII. -/
theorem all_bytes_eq {P : Nat → Prop} [DecidablePred P] (hascii : ∀ n, P n → n < 128)
    {p : Char → Bool} (hp : ∀ {c : Char}, p c = true ↔ P c.toNat) :
    ((Text.bytes s).all fun b => P b.toNat) = s.toList.all p :=
  Bool.eq_iff_iff.2 ((all_bytes_iff hascii).trans (all_iff hp).symm)

theorem dropPrefix?_eq_some_iff {front bytes rest : List UInt8} :
    bytes.dropPrefix? front = some rest ↔ bytes = front ++ rest := by
  rw [List.dropPrefix?_eq_some_iff]
  simp

/-- Bytes of digits are the bytes of as many digits. -/
theorem digits_bytes_iff {n : Nat} :
    ((Text.bytes s).length = n && (Text.bytes s).all fun b => Decimal b.toNat) = true ↔
      s.length = n ∧ ∀ c ∈ s.toList, Decimal c.toNat := by
  rw [Bool.and_eq_true, decide_eq_true_eq, all_bytes_iff fun _ => Decimal.lt]
  refine and_congr_left fun hdigits => ?_
  rw [Text.length_bytes_of_ascii fun c hc => (hdigits c hc).lt]

/-- **A uuid is read from its bytes as from its characters.** -/
theorem uuid_bytes_iff {role : Role} :
    ((((Text.bytes s).dropPrefix? (Text.bytes role.word)).bind fun rest =>
        rest.dropPrefix? (Text.bytes "-")).any fun digits =>
          digits.length = 12 && digits.all fun b => Decimal b.toNat) = true ↔
      Valid s (uuid role) := by
  simp only [Option.any_eq_true, Option.bind_eq_some_iff, dropPrefix?_eq_some_iff]
  constructor
  · rintro ⟨bs, ⟨rest, hs, rfl⟩, hbytes⟩
    have hascii : ∀ b ∈ bs, b.toNat < 128 := by
      intro b hb
      have hdigit := List.all_eq_true.1 (Bool.and_eq_true_iff.1 hbytes).2 b hb
      exact (of_decide_eq_true hdigit).lt
    -- bytes of ASCII are those of a text, which has to be the digits
    obtain ⟨digits, rfl⟩ := Text.exists_bytes_eq hascii
    refine ⟨digits, Text.bytes_injective ?_, digits_bytes_iff.1 hbytes⟩
    rw [hs, Text.bytes_append, Text.bytes_append, List.append_assoc]
  · rintro ⟨digits, rfl, hdigits⟩
    refine ⟨Text.bytes digits, ⟨_, ?_, rfl⟩, digits_bytes_iff.2 hdigits⟩
    rw [Text.bytes_append, Text.bytes_append, List.append_assoc]

theorem not_isEmpty_bytes (s : String) : (!(Text.bytes s).isEmpty) = (s != "") := by
  rw [Bool.eq_iff_iff, Bool.not_eq_true', ← Bool.not_eq_true, List.isEmpty_iff,
    Text.bytes_eq_nil_iff, bne_iff_ne]

/-- Two checks that begin with the same requirement need to agree only where it is met. -/
theorem require_bind_congr {ok : Bool} {f g : Unit → Except Violation Unit}
    (h : ok = true → f () = g ()) : (require ok v >>= f) = (require ok v >>= g) := by
  cases hok : ok with
  | true => exact h hok
  | false => rfl

/-- **To check a text, its bytes are enough.** -/
theorem checkBytes_eq (a : TextAttribute) (s : String) : a.checkBytes s = a.check s := by
  cases a with
  | uuid role =>
    exact congrArg (require · _) (Bool.eq_iff_iff.2 (uuid_bytes_iff.trans uuid_iff.symm))
  | loginId role =>
    rw [checkBytes, check, all_bytes_eq (fun _ => Graphic.lt) isGraphic_iff]
    refine require_bind_congr fun hgraphic => ?_
    rw [Text.length_bytes_of_ascii fun c hc => ((all_iff isGraphic_iff).1 hgraphic c hc).lt]
  | password role =>
    rw [checkBytes, check, not_isEmpty_bytes, Text.length_bytes]
  -- a name is the one text whose characters may be longer than a byte, so its first bytes are
  -- counted
  | name => rw [checkBytes, check, Text.countP_leads]
  | phoneNumber =>
    refine congrArg (require · _) (Bool.eq_iff_iff.2 (digits_bytes_iff.trans ?_))
    rw [isDigits_iff, String.length_toList]
  | profileUri =>
    rw [checkBytes, check, all_bytes_eq (fun _ => Unmarked.lt) isUnmarked_iff, not_isEmpty_bytes]
    refine require_bind_congr fun _ => require_bind_congr fun hunmarked => ?_
    rw [Text.length_bytes_of_ascii fun c hc => ((all_iff isUnmarked_iff).1 hunmarked c hc).lt]

/-- **The grammar of each text.** A text passes the check of an attribute if and only if it is a
valid content of it, and fails with a violation if and only if it breaks the rule in this way. The
check may as well be made on the bytes of the text. No text is a valid uuid of two roles. -/
theorem check_grammar (a : TextAttribute) (s : String) :
    (a.check s = .ok () ↔ Valid s a) ∧
    (∀ v, a.check s = .error v ↔ Breaks s a v) ∧
    a.checkBytes s = a.check s ∧
    ∀ role role', (uuid role).check s = .ok () ∧ (uuid role').check s = .ok () ↔
      role = role' ∧ (uuid role).check s = .ok () := by
  refine ⟨check_eq_ok_iff, fun v => check_eq_error_iff, checkBytes_eq a s, fun role role' => ?_⟩
  constructor
  · rintro ⟨hrole, hrole'⟩
    exact ⟨role_eq_of_valid (check_eq_ok_iff.1 hrole) (check_eq_ok_iff.1 hrole'), hrole⟩
  · rintro ⟨rfl, hrole⟩
    exact ⟨hrole, hrole⟩

-- a name is counted in characters, a login id is not counted while it holds others than those of
-- ASCII, and a second dash is no digit

example : name.check "박진홍" = .ok () := by decide

example : (loginId .parent).check "학부모계정" = .error (.charset (.loginId .parent)) := by decide

example : (uuid .student).check "student--00000000001" =
    .error (.malformedUuid .student "student--00000000001") := by decide

end TextAttribute

end Rollbook
