import Rollbook.Attribute.Rule
import Rollbook.Engine.DuplicateEntry
import Rollbook.Engine.ForeignKeyFailure

/-!
# Rollbook — failures

Why an operation on the register fails. Some failures are the caller's, such as an invalid content
or a duplicate, and some are not, such as a row that cannot be decoded. An engine error becomes a
failure by its number and its text.
-/

namespace Rollbook

/-- A failure of a connection to a database server. -/
inductive ConnectionError where
  | rowNotFound
  | poolTimedOut
  | poolClosed
  | workerCrashed
  | protocol (text : String)
  | columnNotFound (column : String)
  | database (text : String)
deriving DecidableEq, Repr

/-- The wording of a connection error. -/
def ConnectionError.message : ConnectionError → String
  | rowNotFound => "no rows returned by a query that expected to return at least one row"
  | poolTimedOut => "pool timed out while waiting for an open connection"
  | poolClosed => "attempted to acquire a connection on a closed pool"
  | workerCrashed => "attempted to communicate with a crashed background worker"
  | protocol text => s!"encountered unexpected or invalid data: {text}"
  | columnNotFound column => s!"no column found for name: {column}"
  | database text => s!"error returned from database: {text}"

/-- Why an operation fails. -/
inductive Failure where
  | validation (violation : Violation)
  | notFound
  | duplicateEntry (duplicate : DuplicateEntry)
  | foreignKey (failure : ForeignKeyFailure)
  | identityImmutable (role : Role)
  | unclassified (error : EngineError)
  | decoding (error : DecodeError)
  | connection (error : ConnectionError)
deriving DecidableEq, Repr

namespace Failure

/-- The wording of a failure. -/
def message : Failure → String
  | validation v => s!"Invalid input: {v.message}"
  | notFound => "Entity not found"
  | duplicateEntry d => s!"Unique constraint violation: {d.describe}"
  | foreignKey f => s!"Foreign key constraint violation: {f.describe}"
  | identityImmutable role => s!"{(TextAttribute.uuid role).key} cannot be changed"
  | unclassified e => s!"Unclassified database error: {e.text}"
  | decoding e => e.message
  | connection e => e.message

/-- Whether the caller can mend the failure by asking for something else. -/
def isClientError : Failure → Bool
  | validation _ => true
  | notFound => true
  | duplicateEntry _ => true
  | foreignKey _ => true
  | identityImmutable _ => true
  | unclassified _ => false
  | decoding _ => false
  | connection _ => false

/-- The failure that an engine error reports: a duplicate entry, a foreign key, or neither. -/
def ofEngineError (e : EngineError) : Failure :=
  match DuplicateEntry.ofError? e with
  | some d => duplicateEntry d
  | none =>
    match ForeignKeyFailure.ofError? e with
    | some f => foreignKey f
    | none => unclassified e

/-- The failure behind a connection error. A row that was asked for and is not there is no fault of
the connection. -/
def ofConnectionError : ConnectionError → Failure
  | .rowNotFound => notFound
  | e => connection e

end Failure

end Rollbook
