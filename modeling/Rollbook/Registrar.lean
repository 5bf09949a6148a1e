import Rollbook.Record
import Rollbook.Store.Transaction

/-!
# Rollbook — the registrar

The operations on accounts and profiles inside one transaction. The registrar checks what it is
given before it touches the store, guards the composite keys that the engine does not know, and
answers with typed records. To change or delete what is not there succeeds and does nothing.
-/

namespace Rollbook.Registrar

/-- Goes on if a check passes, and else fails with its violation. -/
def ensure (check : Except Violation Unit) : Transact Unit :=
  match check with
  | .ok () => pure ()
  | .error v => throw (.validation v)

/-- The typed form of a result of decoding. -/
def decoded {α : Type} : Except DecodeError α → Transact α
  | .ok a => pure a
  | .error e => throw (.decoding e)

/-- The record in the first row that meets a filter. -/
def first (t : Table) (filter : Columns) : Transact (Record t) := do
  match ← Transaction.select t filter with
  | row :: _ => decoded (Record.ofColumns t row)
  | [] => throw .notFound

/-- The record found by the content of one attribute. -/
def findBy (t : Table) (a : Attribute) (content : a.Content) : Transact (Record t) := do
  ensure (a.check content)
  first t ((∅ : Columns).insert a.key (a.toValue content))

/-- The record of a uuid. -/
def get (t : Table) (uuid : String) : Transact (Record t) :=
  findBy t t.identity uuid

/-- The account of a login id. -/
def login (role : Role) (id : String) : Transact (Record role.accounts) :=
  findBy role.accounts (.text (.loginId role)) id

/-- Fails if a row other than that of `owner` holds a composite key. -/
def ensureVacant (t : Table) (key : CompositeKey) (owner : Option Value) : Transact Unit := do
  let rows ← Transaction.select t key.filter
  if rows.any fun row => owner.all fun id => row.get t.identityKey ≠ id then
    throw (.duplicateEntry ⟨key.name, key.entry⟩)

/-- Stores a new record and answers with what has been stored. -/
def create {t : Table} (now : Timestamp) (record : Record t) : Transact (Record t) := do
  ensure record.check
  match record.compositeKey with
  | some key => ensureVacant t key none
  | none => pure ()
  Transaction.insert now t record.toColumns
  get t record.uuid

/-- The uuids of the records that agree with everything a revision supplies, in stored order. -/
def uuidsMatching {t : Table} (wanted : Revision t) : Transact (List String) := do
  ensure wanted.check
  let rows ← Transaction.select t wanted.criteria
  if rows.isEmpty then throw .notFound
  rows.mapM fun row => decoded (t.identity.ofValue (row.get t.identityKey))

/-- Fails if the record that a payload makes of a row would take a composite key from another. -/
def ensureMovable (t : Table) (uuid : String) (current : Record t) (payload : Columns) :
    Transact Unit := do
  let merged ← decoded (Record.ofColumns t (current.toColumns.overlay payload))
  match merged.compositeKey with
  | some key => ensureVacant t key (some (t.identity.toValue uuid))
  | none => pure ()

/-- Applies a revision to the record of a uuid. The uuid of a record never changes. -/
def modify {t : Table} (now : Timestamp) (uuid : String) (revision : Revision t) :
    Transact Unit := do
  if revision.uuid.isSome then throw (.identityImmutable t.role)
  ensure (t.identity.check uuid)
  ensure revision.check
  let payload := revision.payload
  let filter := t.identityFilter uuid
  let write : Transact Unit := do
    let _ ← Transaction.update now t filter payload
  -- only a revision that sets a column of the composite key can break it
  if payload.isEmpty then pure ()
  else if payload.names.any (· ∈ t.compositeColumns) then
    match ← Transaction.select t filter with
    | [] => pure ()
    | row :: _ =>
      let current ← decoded (Record.ofColumns t row)
      ensureMovable t uuid current payload
      write
  else write

/-- Deletes the account of a uuid. -/
def delete (now : Timestamp) (role : Role) (uuid : String) : Transact Unit := do
  ensure (role.accounts.identity.check uuid)
  let _ ← Transaction.delete now role.accounts (role.accounts.identityFilter uuid)

end Rollbook.Registrar
