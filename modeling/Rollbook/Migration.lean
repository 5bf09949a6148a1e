/-!
# Rollbook — migrations

The steps by which a database server gets its tables. A step is known by the name of its file: a
version of decimal digits, then the words of its description, with underscores between them.
-/

namespace Rollbook

/-- A step of the schema. -/
structure Migration where
  version : Nat
  description : String
deriving DecidableEq, Repr

namespace Migration

/-- The step in a file of a given name. -/
def ofFileName? (name : String) : Option Migration :=
  let cs := name.toList
  let ending := ".sql".toList
  let digits := cs.takeWhile Char.isDigit
  match cs.dropWhile Char.isDigit with
  | '_' :: rest =>
    if digits ≠ [] ∧ ending.isSuffixOf rest then
      let words := rest.take (rest.length - ending.length)
      some
        ⟨digits.foldl (fun n c => 10 * n + (c.toNat - '0'.toNat)) 0,
          String.ofList (words.map fun c => if c = '_' then ' ' else c)⟩
    else none
  | _ => none

/-- The files of the steps, in the order of their versions. -/
def fileNames : List String := ["20240301000000_create_account_tables.sql"]

/-- All steps, in the order of their versions. -/
def all : List Migration := fileNames.filterMap ofFileName?

end Migration

end Rollbook
