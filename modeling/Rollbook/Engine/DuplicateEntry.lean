import Rollbook.Engine.Error
import Rollbook.Text.Quoted
import Rollbook.Text.Split

/-!
# Rollbook — duplicate entries

The report of a value that a key holds already, its text, and the reading of that text. The text
comes in two forms, with entry and key between backticks or between apostrophes; with apostrophes
the key carries the name of its table in front, up to the last point.
-/

namespace Rollbook

/-- A value that a key holds already. -/
structure DuplicateEntry where
  key : String
  entry : String
deriving DecidableEq, Repr

namespace DuplicateEntry

/-- The number of the errors that report a duplicate entry. -/
def number : UInt16 := 1062

/-- The text of the report, with a given quotation mark. -/
def render (mark : Char) (entry key : List Char) : List Char :=
  "Duplicate entry ".toList ++ mark :: entry ++ mark :: " for key ".toList ++ mark :: key ++ [mark]

/-- The engine error that reports the duplicate, between backticks. -/
def report (d : DuplicateEntry) : EngineError :=
  ⟨number, String.ofList (render '\x60' d.entry.toList d.key.toList)⟩

/-- Reads entry and key between quotation marks. The key is the text after the last mark but one,
so an entry may hold anything, the words of the report included. -/
def read? (mark : Char) (message : List Char) : Option (List Char × List Char) := do
  let body ← Text.after? ("Duplicate entry ".toList ++ [mark]) message
  let body ← Text.before? [mark] body
  let (front, key) ← Text.breakLast? mark body
  let entry ← Text.before? (mark :: " for key ".toList) front
  return (entry, key)

/-- What follows the last point, or everything if there is none. -/
def unqualified (key : List Char) : List Char :=
  ((Text.breakLast? '.' key).map (·.2)).getD key

/-- The duplicate that an error reports, if it reports one. -/
def ofError? (e : EngineError) : Option DuplicateEntry :=
  if e.number = number then
    let cs := e.message.toList
    match read? '\x60' cs with
    | some (entry, key) => some ⟨String.ofList key, String.ofList entry⟩
    | none => (read? '\x27' cs).map fun p =>
        ⟨String.ofList (unqualified p.2), String.ofList p.1⟩
  else none

/-- The duplicate in words. -/
def describe (d : DuplicateEntry) : String :=
  s!"duplicate entry {Text.quote d.entry} for key {Text.quote d.key}"

end DuplicateEntry

end Rollbook
