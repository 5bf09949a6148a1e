import Rollbook.Columns
import Rollbook.Engine.DuplicateEntry
import Rollbook.Engine.ForeignKeyFailure
import Rollbook.Table

/-!
# Rollbook — breaches

What the engine finds wrong with a statement, and the number and text that it reports it with.
-/

namespace Rollbook

/-- The part of a statement that names a column. -/
inductive Clause where
  | fieldList
  | whereClause
deriving DecidableEq, Repr

/-- What is wrong with a statement. -/
inductive Breach where
  | unknownColumn (name : String) (clause : Clause)
  | nullColumn (name : String)
  | referenced (failure : ForeignKeyFailure)
  | duplicate (duplicate : DuplicateEntry)
  | noReferent (failure : ForeignKeyFailure)
deriving DecidableEq, Repr

/-- How error texts call the clause. -/
def Clause.words : Clause → String
  | fieldList => "field list"
  | whereClause => "where clause"

/-- The engine error that reports the breach. -/
def Breach.report : Breach → EngineError
  | unknownColumn name clause => ⟨1054, s!"Unknown column '{name}' in '{clause.words}'"⟩
  | nullColumn name => ⟨1048, s!"Column '{name}' cannot be null"⟩
  | referenced f => f.reportParent
  | duplicate d => d.report
  | noReferent f => f.reportChild

/-- The name that the engine gives its database. -/
def databaseName : String := "memory"

/-- The failure of a foreign key of a table. -/
def ForeignKey.failure (t : Table) (fk : ForeignKey) : ForeignKeyFailure :=
  ⟨⟨databaseName, t.name, fk.constraint, fk.column⟩, ⟨fk.refTable.name, fk.refColumn⟩⟩

end Rollbook
