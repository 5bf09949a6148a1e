import Rollbook.Engine.Error

/-!
# Rollbook — foreign-key failures

The report of a row that refers to no row, or of a row that may not go because others refer to it,
its text, and the reading of that text. All that the reading takes from a text are its six tokens
between backticks.
-/

namespace Rollbook

/-- The side of a foreign key that refers. -/
structure Referrer where
  database : String
  table : String
  constraint : String
  column : String
deriving DecidableEq, Repr

/-- The side of a foreign key that is referred to. -/
structure Referent where
  table : String
  column : String
deriving DecidableEq, Repr

/-- A foreign key that a statement would have broken. -/
structure ForeignKeyFailure where
  referrer : Referrer
  referent : Referent
deriving DecidableEq, Repr

namespace ForeignKeyFailure

/-- The number of the errors about a row that may not go. -/
def parentNumber : UInt16 := 1451

/-- The number of the errors about a row that refers to no row. -/
def childNumber : UInt16 := 1452

/-- The text of a report, behind the words that say which of the two failures it is. -/
def render (opening : String) (f : ForeignKeyFailure) : String :=
  opening ++ ": a foreign key constraint fails (`" ++ f.referrer.database ++ "`.`"
    ++ f.referrer.table ++ "`, CONSTRAINT `" ++ f.referrer.constraint ++ "` FOREIGN KEY (`"
    ++ f.referrer.column ++ "`) REFERENCES `" ++ f.referent.table ++ "` (`"
    ++ f.referent.column ++ "`))"

/-- The engine error about a row that refers to no row. -/
def reportChild (f : ForeignKeyFailure) : EngineError :=
  ⟨childNumber, f.render "Cannot add or update a child row"⟩

/-- The engine error about a row that others refer to. -/
def reportParent (f : ForeignKeyFailure) : EngineError :=
  ⟨parentNumber, f.render "Cannot delete or update a parent row"⟩

/-- The six tokens between backticks, in order, if there are exactly six. A backtick behind the
last pair opens nothing. -/
def ofPieces? : List (List Char) → Option ForeignKeyFailure
  | _ :: database :: _ :: table :: _ :: constraint :: _ :: column :: _ :: refTable :: _ ::
      refColumn :: _ :: rest =>
    if rest.length ≤ 1 then
      some
        ⟨⟨.ofList database, .ofList table, .ofList constraint, .ofList column⟩,
          ⟨.ofList refTable, .ofList refColumn⟩⟩
    else none
  | _ => none

/-- The failure that an error reports, if it reports one. -/
def ofError? (e : EngineError) : Option ForeignKeyFailure :=
  if e.number = parentNumber ∨ e.number = childNumber then
    ofPieces? (e.message.toList.splitOnP (· = '\x60'))
  else none

/-- The failure with nothing but what tells references apart: the column that refers and what it
refers to. -/
def reduced (f : ForeignKeyFailure) : ForeignKeyFailure :=
  ⟨⟨"", "", "", f.referrer.column⟩, f.referent⟩

/-- The reduced failure that an error reports, or the error itself if it reports none. -/
def reducedOfError (e : EngineError) : Except EngineError ForeignKeyFailure :=
  match ofError? e with
  | some f => .ok f.reduced
  | none => .error e

/-- The failure in words. -/
def describe (f : ForeignKeyFailure) : String :=
  let source := s!"{f.referrer.table}.{f.referrer.column}"
  let target := s!"{f.referent.table}.{f.referent.column}"
  s!"{source} references missing or protected {target}"

end ForeignKeyFailure

end Rollbook
