import Rollbook.Settings.Tree

/-!
# Rollbook — configuration files

One value in the notation of JSON, as a document of its own or as the text of a configuration file.
A number without a point and without an exponent is an integer if it fits 64 bits, signed or
unsigned, and every other number is a float, the negative zero included. A file holds no control
characters, and its texts are folded at line breaks.
-/

namespace Rollbook.Document

/-- White space between tokens. -/
def isGap (c : Char) : Bool := c = ' ' || c = '\t' || c = '\n' || c = '\r'

def skipGap (cs : List Char) : List Char := cs.dropWhile isGap

/-- The value of a hexadecimal digit. -/
def hexDigit? (c : Char) : Option Nat :=
  if '0' ≤ c ∧ c ≤ '9' then some (c.toNat - '0'.toNat)
  else if 'a' ≤ c ∧ c ≤ 'f' then some (c.toNat - 'a'.toNat + 10)
  else if 'A' ≤ c ∧ c ≤ 'F' then some (c.toNat - 'A'.toNat + 10)
  else none

/-- The number written by hexadecimal digits. -/
def hexNumber? (digits : List Char) : Option Nat :=
  digits.foldlM (fun n c => (hexDigit? c).map fun d => 16 * n + d) 0

/-- The character of a code point, if it is one. -/
def char? (n : Nat) : Option Char :=
  if h : n.isValidChar then some (Char.ofNatAux n h) else none

/-- The characters that stand behind a backslash for themselves or for a control character. -/
def escaped? (c : Char) : Option Char :=
  match c with
  | '\x22' => some '\x22'
  | '\\' => some '\\'
  | '/' => some '/'
  | 'b' => some '\x08'
  | 'f' => some '\x0c'
  | 'n' => some '\n'
  | 'r' => some '\r'
  | 't' => some '\t'
  | _ => none

/-- The character of two surrogates. -/
def joined? (high low : Nat) : Option Char :=
  if 0xd800 ≤ high ∧ high < 0xdc00 ∧ 0xdc00 ≤ low ∧ low < 0xe000 then
    char? (0x10000 + (high - 0xd800) * 0x400 + (low - 0xdc00))
  else none

/-- A piece of a text: a character that stands for itself, one given by an escape, or a number given
by an escape, which may be half of a character. -/
inductive Piece where
  | plain (c : Char)
  | escaped (c : Char)
  | code (n : Nat)

/-- Reads the pieces of a text up to its closing quote, and gives what follows the quote. -/
def readPieces : List Char → Option (List Piece × List Char)
  | '\x22' :: rest => some ([], rest)
  | '\\' :: 'u' :: a :: b :: c :: d :: rest => do
    let n ← hexNumber? [a, b, c, d]
    (readPieces rest).map fun p => (.code n :: p.1, p.2)
  | '\\' :: c :: rest => do
    let ch ← escaped? c
    (readPieces rest).map fun p => (.escaped ch :: p.1, p.2)
  | c :: rest =>
    if c.toNat < 0x20 ∨ c = '\\' then none
    else (readPieces rest).map fun p => (.plain c :: p.1, p.2)
  | [] => none

/-- The characters that pieces make up; the halves of a character stand side by side. -/
def joinPieces : List Piece → Option (List Char)
  | [] => some []
  | .plain c :: rest => (joinPieces rest).map (c :: ·)
  | .escaped c :: rest => (joinPieces rest).map (c :: ·)
  | .code high :: .code low :: rest =>
    match joined? high low with
    | some c => (joinPieces rest).map (c :: ·)
    -- two escapes side by side that are a character each
    | none => do
      let c ← char? high
      (joinPieces (.code low :: rest)).map (c :: ·)
  | .code n :: rest => do
    let c ← char? n
    (joinPieces rest).map (c :: ·)

/-! ## Line breaks -/

/-- What becomes of the line breaks in a text. -/
inductive Lines where
  | kept
  | folded
deriving DecidableEq, Repr

/-- The line breaks that a text may hold without an escape: next line, and the separators of lines
and of paragraphs. -/
def isBreak (c : Char) : Bool := c = '\u0085' || c = '\u2028' || c = '\u2029'

/-- What a run of line breaks is folded to. A next line at the front is a space if it is alone and
else gives way to the breaks behind it; any other next line is a line feed, and the separators
stay. -/
def foldBreaks (breaks : List Char) : List Char :=
  let asWritten := breaks.map fun c => if c = '\u0085' then '\n' else c
  match breaks with
  | ['\u0085'] => [' ']
  | '\u0085' :: _ => asWritten.tail
  | _ => asWritten

/-- The pieces with their runs of line breaks folded and the spaces around the breaks left out.
`spaces` counts the spaces and `breaks` holds the breaks since the last other piece. -/
def foldLines (spaces : Nat) (breaks : List Char) : List Piece → List Piece
  | .plain c :: rest =>
    if isBreak c then foldLines 0 (breaks ++ [c]) rest
    else if c ≠ ' ' then gap ++ .plain c :: foldLines 0 [] rest
    else if breaks.isEmpty then foldLines (spaces + 1) [] rest
    else foldLines 0 breaks rest
  | p :: rest => gap ++ p :: foldLines 0 [] rest
  | [] => gap
where
  /-- What stands for the spaces or for the breaks. -/
  gap : List Piece :=
    if breaks.isEmpty then List.replicate spaces (.plain ' ')
    else (foldBreaks breaks).map .plain

/-- Reads a text up to its closing quote, and gives what follows the quote. -/
def readText (lines : Lines) (cs : List Char) : Option (List Char × List Char) := do
  let (pieces, rest) ← readPieces cs
  let pieces :=
    match lines with
    | .kept => pieces
    | .folded => foldLines 0 [] pieces
  return (← joinPieces pieces, rest)

/-! ## Numbers -/

/-- The number written by decimal digits. -/
def decimal (digits : List Char) : Nat :=
  digits.foldl (fun n c => 10 * n + (c.toNat - '0'.toNat)) 0

/-- The characters that a number is made of. -/
def isNumeral (c : Char) : Bool :=
  c.isDigit || c = '-' || c = '+' || c = '.' || c = 'e' || c = 'E'

/-- An integer without superfluous zeros. -/
def readInteger? (digits : List Char) : Option Nat :=
  match digits with
  | [] => none
  | ['0'] => some 0
  | '0' :: _ => none
  | _ => if digits.all Char.isDigit then some (decimal digits) else none

/-- An exponent, if anything. -/
def isExponent : List Char → Bool
  | [] => true
  | e :: rest =>
    let digits :=
      match rest with
      | '+' :: digits => digits
      | '-' :: digits => digits
      | _ => rest
    (e = 'e' || e = 'E') && !digits.isEmpty && digits.all Char.isDigit

/-- A fraction, an exponent, or both. -/
def isFloatTail : List Char → Bool
  | '.' :: rest =>
    !(rest.takeWhile Char.isDigit).isEmpty && isExponent (rest.dropWhile Char.isDigit)
  | cs => isExponent cs

/-- Whether a sign and a magnitude are an integer of 64 bits, signed or unsigned. The zero has no
sign. -/
def fits (negative : Bool) (n : Nat) : Bool :=
  if negative then 0 < n && n ≤ Nat.pow 2 63 else n < Nat.pow 2 64

/-- The number that a run of number characters writes. -/
def number? (cs : List Char) : Option Tree :=
  let (negative, unsigned) :=
    match cs with
    | '-' :: rest => (true, rest)
    | _ => (false, cs)
  let digits := unsigned.takeWhile Char.isDigit
  let rest := unsigned.dropWhile Char.isDigit
  match readInteger? digits with
  | none => none
  | some n =>
    if rest.isEmpty && fits negative n then some (.int (if negative then -(n : Int) else n))
    else if isFloatTail rest then some (.float (String.ofList cs))
    else none

/-! ## Values -/

mutual

/-- Reads one value and gives what follows it. Every value inside another takes one from `fuel`. -/
def readValue (lines : Lines) : (fuel : Nat) → List Char → Option (Tree × List Char)
  | 0, _ => none
  | fuel + 1, cs =>
    match skipGap cs with
    | '\x22' :: rest => (readText lines rest).map fun p => (.text (String.ofList p.1), p.2)
    | '\x7b' :: rest =>
      match skipGap rest with
      | '\x7d' :: rest => some (.dict [], rest)
      | rest => (readMembers lines fuel rest).map fun p => (.ofEntries p.1, p.2)
    | '[' :: rest =>
      match skipGap rest with
      | ']' :: rest => some (.list [], rest)
      | rest => (readItems lines fuel rest).map fun p => (.list p.1, p.2)
    | 't' :: 'r' :: 'u' :: 'e' :: rest => some (.bool true, rest)
    | 'f' :: 'a' :: 'l' :: 's' :: 'e' :: rest => some (.bool false, rest)
    | 'n' :: 'u' :: 'l' :: 'l' :: rest => some (.null, rest)
    | cs => (number? (cs.takeWhile isNumeral)).map fun tree => (tree, cs.dropWhile isNumeral)

/-- Reads the values of a list up to its closing bracket. -/
def readItems (lines : Lines) : (fuel : Nat) → List Char → Option (List Tree × List Char)
  | 0, _ => none
  | fuel + 1, cs => do
    let (item, rest) ← readValue lines fuel cs
    match skipGap rest with
    | ',' :: rest => (readItems lines fuel rest).map fun p => (item :: p.1, p.2)
    | ']' :: rest => some ([item], rest)
    | _ => none

/-- Reads the entries of a dictionary up to its closing brace. -/
def readMembers (lines : Lines) :
    (fuel : Nat) → List Char → Option (List (String × Tree) × List Char)
  | 0, _ => none
  | fuel + 1, cs =>
    match skipGap cs with
    | '\x22' :: rest => do
      let (key, rest) ← readText lines rest
      match skipGap rest with
      | ':' :: rest => do
        let (value, rest) ← readValue lines fuel rest
        let entry := (String.ofList key, value)
        match skipGap rest with
        | ',' :: rest => (readMembers lines fuel rest).map fun p => (entry :: p.1, p.2)
        | '\x7d' :: rest => some ([entry], rest)
        | _ => none
      | _ => none
    | _ => none

end

/-- The value that a text writes, if nothing else stands in it. -/
def readAll? (lines : Lines) (s : String) : Option Tree :=
  match readValue lines (s.length + 1) s.toList with
  | some (tree, rest) => if (skipGap rest).isEmpty then some tree else none
  | none => none

/-- The value of a document of its own, with its texts as they stand. -/
def read? (s : String) : Option Tree := readAll? .kept s

/-- The characters that a file may hold: all but the control characters, of which line breaks and
tabs are allowed, and but the two code points that are no characters at the end of the basic
plane. -/
def isFileChar (c : Char) : Bool :=
  let n := c.toNat
  n = 0x9 || n = 0xa || n = 0xd || (0x20 ≤ n && n ≤ 0x7e) || n = 0x85
    || (0xa0 ≤ n && n ≤ 0xfffd) || 0x10000 ≤ n

/-- The value in the text of a configuration file. -/
def readConfig? (s : String) : Option Tree :=
  if s.toList.all isFileChar then readAll? .folded s else none

end Rollbook.Document
