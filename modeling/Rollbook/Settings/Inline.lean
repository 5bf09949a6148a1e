import Rollbook.Settings.Document
import Rollbook.Text.Blank
import Rollbook.Text.Split

/-!
# Rollbook — inline values

The small notation of settings on one line, as environment variables hold them: a boolean, a
number, a quoted text, a single character between apostrophes, a list, a dictionary, or else the
bare text. A text that is no value of the notation as a whole is a value all the same, namely
itself; only a quoted text that would be cut inside a character gives none.
-/

namespace Rollbook.Inline

/-- Why a value cannot be read: the text does not follow the notation, or a quoted text would be
cut inside a character. -/
inductive Fault where
  | malformed
  | cutCharacter
deriving DecidableEq, Repr

/-- White space around values. -/
def isGap (c : Char) : Bool :=
  c = ' ' || c = '\t' || c = '\n' || c = '\r' || c = '\x0c'

def skipGap (cs : List Char) : List Char := cs.dropWhile isGap

/-- The characters that end a bare text. -/
def isSeparator (c : Char) : Bool :=
  c = ',' || c = '[' || c = ']' || c = '\x7b' || c = '\x7d'

/-- The characters of a bare key. -/
def isKeyChar (c : Char) : Bool := c.isAlphanum || c = '_' || c = '-'

/-! ## Quoted texts -/

/-- The characters that stand for themselves between quotes: of the control characters, the tab
alone. -/
def isPlain (c : Char) : Bool := c = '\t' || (0x20 ≤ c.toNat && c.toNat ≠ 0x7f)

/-- Splits at the closing quote. A quote behind a backslash closes nothing. -/
def splitQuoted : List Char → Option (List Char × List Char)
  | '\x22' :: rest => some ([], rest)
  | '\\' :: c :: rest => (splitQuoted rest).map fun p => ('\\' :: c :: p.1, p.2)
  | c :: rest => (splitQuoted rest).map fun p => (c :: p.1, p.2)
  | [] => none

/-- The text that characters and escapes stand for. An escape is a backslash with one letter or
with the four or eight digits of a code point. -/
def unescape : List Char → Option (List Char)
  | [] => some []
  | '\\' :: 'u' :: a :: b :: c :: d :: rest => do
    let ch ← (Document.hexNumber? [a, b, c, d]).bind Document.char?
    (unescape rest).map (ch :: ·)
  | '\\' :: 'U' :: a :: b :: c :: d :: e :: f :: g :: h :: rest => do
    let ch ← (Document.hexNumber? [a, b, c, d, e, f, g, h]).bind Document.char?
    (unescape rest).map (ch :: ·)
  | '\\' :: c :: rest => do
    let ch ← if c = '/' then none else Document.escaped? c
    (unescape rest).map (ch :: ·)
  | c :: rest => if isPlain c && c ≠ '\\' then (unescape rest).map (c :: ·) else none

/-- The text between two quotes. What stands before the first escape is kept up to as many bytes as
it has characters, so characters of several bytes make it lose as many bytes at its end; without an
escape it is kept as a whole. -/
def decodeQuoted (inner : List Char) : Except Fault (List Char) :=
  let front := inner.takeWhile (· ≠ '\\')
  let escapes := inner.dropWhile (· ≠ '\\')
  if !front.all isPlain then .error .malformed
  else if escapes.isEmpty then .ok front
  else
    match Text.takeBytes? front.length front with
    | none => .error .cutCharacter
    | some kept =>
      match unescape escapes with
      | some cs => .ok (kept ++ cs)
      | none => .error .malformed

/-- Reads a quoted text up to its closing quote, and gives what follows the quote. -/
def readQuoted (cs : List Char) : Except Fault (List Char × List Char) :=
  match splitQuoted cs with
  | none => .error .malformed
  | some (inner, rest) => (decodeQuoted inner).map fun text => (text, rest)

/-- Reads one character up to its closing apostrophe, and gives what follows the apostrophe. Nothing
is escaped, so any character may stand there. -/
def readCharacter : List Char → Except Fault (Char × List Char)
  | c :: '\x27' :: rest => .ok (c, rest)
  | _ => .error .malformed

/-! ## Bare texts -/

/-- Decimal digits with a point among or beside them, and perhaps an exponent. -/
def isFloat (cs : List Char) : Bool :=
  let unsigned :=
    match cs with
    | '+' :: rest => rest
    | '-' :: rest => rest
    | _ => cs
  let whole := unsigned.takeWhile Char.isDigit
  match unsigned.dropWhile Char.isDigit with
  | '.' :: rest =>
    let fraction := rest.takeWhile Char.isDigit
    !(whole.isEmpty && fraction.isEmpty) && Document.isExponent (rest.dropWhile Char.isDigit)
  | _ => false

/-- The integer of 64 bits that a bare text writes: an unsigned one, or one with a minus sign. -/
def integer? (cs : List Char) : Option Int :=
  let (negative, digits) :=
    match cs with
    | '-' :: rest => (true, rest)
    | '+' :: rest => (false, rest)
    | _ => (false, cs)
  if digits.isEmpty || !digits.all Char.isDigit then none
  else
    let n := Document.decimal digits
    if negative then if n ≤ Nat.pow 2 63 then some (-(n : Int)) else none
    else if n < Nat.pow 2 64 then some n else none

/-- The value of a bare text. -/
def scalar (cs : List Char) : Tree :=
  if isFloat cs then .float (String.ofList cs)
  else
    match integer? cs with
    | some n => .int n
    | none => .text (String.ofList cs)

/-! ## Values -/

mutual

/-- Reads one value with the white space around it, and gives what follows. Every value inside
another takes one from `fuel`. -/
def readValue : (fuel : Nat) → List Char → Except Fault (Tree × List Char)
  | 0, _ => .error .malformed
  | fuel + 1, cs => do
    let (tree, rest) ←
      match skipGap cs with
      | 't' :: 'r' :: 'u' :: 'e' :: rest => .ok (.bool true, rest)
      | 'f' :: 'a' :: 'l' :: 's' :: 'e' :: rest => .ok (.bool false, rest)
      | '\x22' :: rest => (readQuoted rest).map fun p => (.text (String.ofList p.1), p.2)
      | '\x27' :: rest => (readCharacter rest).map fun p => (.text (String.singleton p.1), p.2)
      | '\x7b' :: rest => (readEntries fuel rest).map fun p => (.ofEntries p.1, p.2)
      | '[' :: rest => (readItems fuel rest).map fun p => (.list p.1, p.2)
      -- anything else is a bare text up to the next separator
      | cs =>
        let bare := cs.takeWhile fun c => !isSeparator c
        .ok (scalar (Text.stripBy Text.isBlank bare), cs.dropWhile fun c => !isSeparator c)
    return (tree, skipGap rest)

/-- Reads the values of a list up to its closing bracket, which may follow a comma. -/
def readItems : (fuel : Nat) → List Char → Except Fault (List Tree × List Char)
  | 0, _ => .error .malformed
  | _ + 1, ']' :: rest => .ok ([], rest)
  | fuel + 1, cs => do
    let (item, rest) ← readValue fuel cs
    match rest with
    | ',' :: rest => (readItems fuel rest).map fun p => (item :: p.1, p.2)
    | ']' :: rest => .ok ([item], rest)
    | _ => .error .malformed

/-- Reads the entries of a dictionary up to its closing brace, which may follow a comma. -/
def readEntries : (fuel : Nat) → List Char → Except Fault (List (String × Tree) × List Char)
  | 0, _ => .error .malformed
  | _ + 1, '\x7d' :: rest => .ok ([], rest)
  | fuel + 1, cs => do
    let (key, rest) ←
      match skipGap cs with
      | '\x22' :: rest => readQuoted rest
      | cs =>
        let key := cs.takeWhile isKeyChar
        if key.isEmpty then .error .malformed else .ok (key, cs.dropWhile isKeyChar)
    match skipGap rest with
    | '=' :: rest => do
      let (value, rest) ← readValue fuel rest
      let entry := (String.ofList key, value)
      match rest with
      | ',' :: rest => (readEntries fuel rest).map fun p => (entry :: p.1, p.2)
      | '\x7d' :: rest => .ok ([entry], rest)
      | _ => .error .malformed
    | _ => .error .malformed

end

/-- The value that a text writes; a text that is not one value as a whole stands for itself. There
is none if a quoted text would be cut inside a character. -/
def read? (s : String) : Option Tree :=
  match readValue (s.length + 1) s.toList with
  | .ok (tree, []) => some tree
  | .error .cutCharacter => none
  | _ => some (.text s)

end Rollbook.Inline
