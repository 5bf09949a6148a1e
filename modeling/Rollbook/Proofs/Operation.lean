import Mathlib.Data.List.Basic
import Rollbook.Proofs.Statement
import Rollbook.Session

/-!
# Rollbook — what an operation does to its transaction

An operation asks many questions of its transaction and writes at most once. `issued?` says which
statement it gets to run on a given state, after all its checks; the result here is that the whole
operation leaves the transaction exactly as an attempt at this one statement does
(`Operation.run_state`, `RawOperation.run_state`). Whatever is proved of statements is thereby
proved of operations.
-/

namespace Rollbook

-- ---------------------------------------------------------------------------
-- Steps that may fail
-- ---------------------------------------------------------------------------

namespace Transact

variable {α β : Type} {x : Transact α} {f : α → Transact β} {tx after : Transaction}

/-- After a step that gives a value, the rest goes on from the state it left. -/
theorem bind_ok {a : α} (h : x tx = (.ok a, after)) : (x >>= f) tx = f a after := by
  simp only [bind, ExceptT.bind, ExceptT.mk, StateT.bind, h, ExceptT.bindCont]

/-- After a step that fails, nothing else is done: its error is the result and its state the last
one. -/
theorem bind_error {e : Failure} (h : x tx = (.error e, after)) :
    (x >>= f) tx = (.error e, after) := by
  simp only [bind, ExceptT.bind, ExceptT.mk, StateT.bind, h, ExceptT.bindCont]
  rfl

/-- What succeeds as a whole succeeds step by step. -/
theorem bind_eq_ok {b : β} (h : (x >>= f) tx = (.ok b, after)) :
    ∃ a mid, x tx = (.ok a, mid) ∧ f a mid = (.ok b, after) := by
  rcases hx : x tx with ⟨e | a, mid⟩
  · rw [bind_error hx] at h
    cases h
  · rw [bind_ok hx] at h
    exact ⟨a, mid, rfl, h⟩

/-- What only turns the result of a step into an answer fails as the step does. -/
theorem bind_pure_error_iff {g : α → β} {e : Failure} :
    ((x >>= fun a => pure (g a)) tx).1 = .error e ↔ (x tx).1 = .error e := by
  rcases hx : x tx with ⟨e' | a, after⟩
  · rw [bind_error hx, Except.error.injEq, Except.error.injEq]
  · rw [bind_ok hx]
    constructor <;> intro h <;> cases h

/-- A step that leaves every transaction as it was. -/
def Reads (x : Transact α) : Prop := ∀ tx, (x tx).2 = tx

theorem reads_pure (a : α) : Reads (pure a) := fun _ => rfl

/-- Failing reads, too: nothing is undone, because nothing was done. -/
theorem reads_throw (e : Failure) : Reads (throw e : Transact α) := fun _ => rfl

/-- What follows a step and only reads leaves the transaction as the step did. -/
theorem bind_state (hf : ∀ a, Reads (f a)) (tx : Transaction) : ((x >>= f) tx).2 = (x tx).2 := by
  rcases hx : x tx with ⟨e | a, after⟩
  · rw [bind_error hx]
  · rw [bind_ok hx, hf a after]

/-- A chain of steps that read only is one. -/
theorem Reads.bind (hx : Reads x) (hf : ∀ a, Reads (f a)) : Reads (x >>= f) :=
  fun tx => (bind_state hf tx).trans (hx tx)

end Transact

open Transact

-- ---------------------------------------------------------------------------
-- Statements of a transaction
-- ---------------------------------------------------------------------------

namespace Transaction

/-- The transaction after it tries a statement, if there is one to try. -/
def attempt (tx : Transaction) (now : Timestamp) : Option Statement → Transaction
  | none => tx
  | some statement => (execute now statement tx).2

variable {tx : Transaction} {now : Timestamp} {statement : Statement}

/-- A statement that the copy accepts changes the copy and is written in the journal with its
moment. -/
theorem execute_ok {db : Database} {n : Nat}
    (h : tx.snapshot.execute now statement = .ok (db, n)) :
    execute now statement tx = (.ok n, ⟨db, tx.journal ++ [⟨now, statement⟩]⟩) := by
  simp only [execute, h]

/-- A statement that the copy refuses leaves no trace, and its breach is reported as a failure of
the database. -/
theorem execute_error {b : Breach} (h : tx.snapshot.execute now statement = .error b) :
    execute now statement tx = (.error (.ofEngineError b.report), tx) := by
  simp only [execute, h]

/-- Success is success on the copy. The journal is of no concern here, so only what the copy becomes
is said. -/
theorem execute_eq_ok {after : Transaction} {n : Nat}
    (h : execute now statement tx = (.ok n, after)) :
    tx.snapshot.execute now statement = .ok (after.snapshot, n) := by
  rcases hexecute : tx.snapshot.execute now statement with b | ⟨db, count⟩
  · rw [execute_error hexecute] at h
    cases h
  · rw [execute_ok hexecute] at h
    cases h
    rfl

/-- An attempt either changes nothing, or it runs its statement and notes it. -/
theorem attempt_cases (tx : Transaction) (now : Timestamp) (issued : Option Statement) :
    tx.attempt now issued = tx ∨
      ∃ statement db n, issued = some statement ∧
        tx.snapshot.execute now statement = .ok (db, n) ∧
        tx.attempt now issued = ⟨db, tx.journal ++ [⟨now, statement⟩]⟩ := by
  cases issued with
  | none => exact .inl rfl
  | some statement =>
    rcases h : tx.snapshot.execute now statement with b | ⟨db, n⟩
    · refine .inl ?_
      rw [attempt, execute_error h]
    · refine .inr ⟨statement, db, n, rfl, h, ?_⟩
      rw [attempt, execute_ok h]

theorem replay_cons_eq_ok_iff {db next : Database} {e : JournalEntry} {rest : List JournalEntry} :
    replay db (e :: rest) = .ok next ↔
      ∃ mid n, db.execute e.moment e.statement = .ok (mid, n) ∧ replay mid rest = .ok next := by
  rw [replay]
  rcases db.execute e.moment e.statement with b | ⟨mid, n⟩ <;> simp

/-- What every statement of a journal keeps is kept by the whole journal. -/
theorem replay_induction {motive : Database → Prop} {db next : Database}
    {journal : List JournalEntry} (h : replay db journal = .ok next) (hstart : motive db)
    (hstep : ∀ e ∈ journal, ∀ db mid n, motive db →
      db.execute e.moment e.statement = .ok (mid, n) → motive mid) : motive next := by
  induction journal generalizing db with
  | nil =>
    cases h
    exact hstart
  | cons e rest ih =>
    obtain ⟨mid, n, hmid, hrest⟩ := replay_cons_eq_ok_iff.1 h
    refine ih hrest (hstep e List.mem_cons_self db mid n hstart hmid) ?_
    exact fun e he => hstep e (List.mem_cons_of_mem _ he)

theorem replay_append_eq_ok_iff {db next : Database} {xs ys : List JournalEntry} :
    replay db (xs ++ ys) = .ok next ↔ ∃ mid, replay db xs = .ok mid ∧ replay mid ys = .ok next := by
  -- the first part is taken up entry by entry, from whatever state the replay has reached
  induction xs generalizing db with
  | nil => simp [replay]
  | cons e rest ih =>
    simp only [List.cons_append, replay_cons_eq_ok_iff, ih]
    constructor
    · rintro ⟨after, n, hexecute, mid, hrest, hys⟩
      exact ⟨mid, ⟨after, n, hexecute, hrest⟩, hys⟩
    · rintro ⟨mid, ⟨after, n, hexecute, hrest⟩, hys⟩
      exact ⟨after, n, hexecute, mid, hrest, hys⟩

/-- The form in which it is used: the journal grows by one entry at its end. -/
theorem replay_concat {db mid next : Database} {journal : List JournalEntry} {e : JournalEntry}
    {n : Nat} (h : replay db journal = .ok mid)
    (hexecute : mid.execute e.moment e.statement = .ok (next, n)) :
    replay db (journal ++ [e]) = .ok next :=
  replay_append_eq_ok_iff.2 ⟨mid, h, replay_cons_eq_ok_iff.2 ⟨next, n, hexecute, rfl⟩⟩

/-- A copy that the journal leads to is led to after an attempt as well. -/
theorem replay_attempt {db : Database} (h : replay db tx.journal = .ok tx.snapshot)
    (now : Timestamp) (issued : Option Statement) :
    replay db (tx.attempt now issued).journal = .ok (tx.attempt now issued).snapshot := by
  rcases tx.attempt_cases now issued with hsame | ⟨statement, after, n, -, hexecute, hafter⟩
  · rw [hsame]
    exact h
  · rw [hafter]
    exact replay_concat h hexecute

theorem reads_select (t : Table) (filter : Columns) : Reads (select t filter) := by
  intro tx
  rw [select]
  split <;> rfl

/-- A selection by columns of the table answers with the rows of the copy. -/
theorem select_ok {t : Table} {filter : Columns}
    (h : ∀ name ∈ filter.names, (t.column? name).isSome = true) (tx : Transaction) :
    select t filter tx = (.ok (tx.snapshot.select t filter), tx) := by
  rw [select, (Database.unknownColumn?_eq_none_iff .whereClause).2 h]

end Transaction

namespace Registrar

open Transaction

variable {t : Table} {now : Timestamp} {tx : Transaction}

-- ---------------------------------------------------------------------------
-- What only reads
-- ---------------------------------------------------------------------------

theorem reads_ensure (check : Except Violation Unit) : Reads (ensure check) := by
  cases check with
  | error v => exact reads_throw _
  | ok u => exact reads_pure _

theorem decoded_ok_bind {α β : Type} (a : α) (f : α → Transact β) :
    decoded (.ok a) >>= f = f a := rfl

theorem decoded_error_bind {α β : Type} (e : DecodeError) (f : α → Transact β) :
    (decoded (.error e) >>= f) tx = (.error (.decoding e), tx) := bind_error rfl

theorem ensure_ok_bind {α : Type} (f : Unit → Transact α) :
    ensure (.ok ()) >>= f = f () := rfl

theorem ensure_error_bind {α : Type} (v : Violation) (f : Unit → Transact α) :
    (ensure (.error v) >>= f) tx = (.error (.validation v), tx) := bind_error rfl

theorem reads_decoded {α : Type} (result : Except DecodeError α) : Reads (decoded result) := by
  cases result with
  | error e => exact reads_throw _
  | ok a => exact reads_pure _

/-- Asking for a vacant composite key reads: it looks for rows, and fails or goes on. -/
theorem reads_ensureVacant (t : Table) (key : CompositeKey) (owner : Option Value) :
    Reads (ensureVacant t key owner) := by
  refine (reads_select _ _).bind fun rows => ?_
  split
  · exact reads_throw _
  · exact reads_pure _

/-- Asking whether a record can be moved to the key that a revision gives it reads. -/
theorem reads_ensureMovable (uuid : String) (current : Record t) (payload : Columns) :
    Reads (ensureMovable t uuid current payload) := by
  refine (reads_decoded _).bind fun merged => ?_
  cases merged.compositeKey with
  | none => exact reads_pure _
  | some key => exact reads_ensureVacant _ _ _

/-- The first row that meets a filter is read, decoded or missed, never changed. -/
theorem reads_first (t : Table) (filter : Columns) : Reads (first t filter) := by
  refine (reads_select t filter).bind ?_
  rintro (_ | ⟨row, rest⟩)
  · exact reads_throw _
  · exact reads_decoded _

theorem reads_findBy (t : Table) (a : Attribute) (content : a.Content) :
    Reads (findBy t a content) :=
  (reads_ensure _).bind fun _ => reads_first _ _

/-- Steps that read, taken one for each item of a list, read. -/
theorem reads_mapM {α β : Type} {f : α → Transact β} (hf : ∀ a, Reads (f a)) (xs : List α) :
    Reads (xs.mapM f) := by
  induction xs with
  | nil => exact reads_pure _
  | cons a rest ih =>
    rw [List.mapM_cons]
    exact (hf a).bind fun _ => ih.bind fun _ => reads_pure _

theorem reads_uuidsMatching (wanted : Revision t) : Reads (uuidsMatching wanted) := by
  refine (reads_ensure _).bind fun _ => (reads_select _ _).bind fun rows => ?_
  split
  · exact (reads_throw _).bind fun _ => reads_mapM (fun _ => reads_decoded _) _
  · exact reads_mapM (fun _ => reads_decoded _) _

-- ---------------------------------------------------------------------------
-- Composite keys
-- ---------------------------------------------------------------------------

end Registrar

/-- Whether every row that holds a composite key is that of the owner. -/
def Database.vacant (db : Database) (t : Table) (key : CompositeKey)
    (owner : Option Value) : Bool :=
  (db.select t key.filter).all fun row => owner.any fun id => row.get t.identityKey = id

/-- Whether a payload may be applied to the record of a uuid: the record is there, and what becomes
of it takes no composite key from another. -/
def Database.movable (db : Database) (t : Table) (uuid : String) (payload : Columns) : Bool :=
  match db.select t (t.identityFilter uuid) with
  | [] => false
  | row :: _ =>
    match Record.ofColumns t row with
    | .error _ => false
    | .ok current =>
      match Record.ofColumns t (current.toColumns.overlay payload) with
      | .error _ => false
      | .ok merged =>
        merged.compositeKey.all fun key => db.vacant t key (some (t.identity.toValue uuid))

/-- Whether a payload sets a column of the composite key. -/
def Table.touchesComposite (t : Table) (payload : Columns) : Bool :=
  payload.names.any (· ∈ t.compositeColumns)

/-- The filter by uuid names a column of the table, so the select behind it never fails. -/
theorem Table.known_identityFilter (t : Table) (uuid : String) :
    ∀ name ∈ (t.identityFilter uuid).names, (t.column? name).isSome = true := by
  intro name hname
  rw [identityFilter, Columns.mem_names_singleton] at hname
  rw [hname]
  exact column?_isSome_iff.2 t.exists_identity

/-- What a revision sets are columns of its table. -/
theorem Revision.known_payload {t : Table} (revision : Revision t) :
    ∀ name ∈ revision.payload.names, (t.column? name).isSome = true := by
  intro name hname
  obtain ⟨value, hvalue⟩ := (Columns.mem_names_iff _).1 hname
  -- a supplied field is a field of the layout, and its key one of the columns made of it
  obtain ⟨m, hm, content, rfl, -⟩ := Changes.exists_of_get? hvalue
  rw [Table.column?_isSome_iff]
  exact ⟨⟨m.key, m.target.kind, m.optional, m.unique⟩,
    by simpa [Table.columns] using .inr (.inl ⟨m, hm, rfl, rfl, rfl, rfl⟩), rfl⟩

/-- What a revision looks for are columns of its table: those it supplies, and the uuid if there is
one. -/
theorem Revision.known_criteria {t : Table} (revision : Revision t) :
    ∀ name ∈ revision.criteria.names, (t.column? name).isSome = true := by
  rw [criteria]
  cases revision.uuid with
  | none => exact revision.known_payload
  | some uuid =>
    intro name hname
    rcases (Columns.mem_names_insert _).1 hname with rfl | hname
    · exact Table.column?_isSome_iff.2 t.exists_identity
    · exact revision.known_payload name hname

theorem Table.known_compositeColumns (t : Table) :
    ∀ name ∈ t.compositeColumns, (t.column? name).isSome = true := by
  cases t <;> decide

/-- The filter of a composite key names the columns that the key covers. -/
theorem Record.names_compositeKey {t : Table} {record : Record t} {key : CompositeKey}
    (h : record.compositeKey = some key) :
    ∀ name, name ∈ key.filter.names ↔ name ∈ t.compositeColumns := by
  obtain ⟨uuid, details, created, updated⟩ := record
  intro name
  cases t with
  | studentInforms =>
    obtain ⟨grade, schoolClass, number, rest⟩ := details
    cases h
    exact Columns.mem_names_ofList
  -- a teacher has a key only with both a grade and a class
  | teacherInforms =>
    obtain ⟨_ | grade, _ | schoolClass, rest⟩ := details <;> cases h
    exact Columns.mem_names_ofList
  | parentAuths => cases h
  | adminAuths => cases h
  | teacherAuths => cases h
  | studentAuths => cases h
  | parentInforms => cases h

namespace Registrar

open Transaction

variable {t : Table} {now : Timestamp} {tx : Transaction}

/-- The filter that looks for the owner of a composite key names columns of the table. -/
theorem known_compositeKey {record : Record t} {key : CompositeKey}
    (h : record.compositeKey = some key) :
    ∀ name ∈ key.filter.names, (t.column? name).isSome = true :=
  fun name hname => t.known_compositeColumns name ((Record.names_compositeKey h name).1 hname)

/-- The check of the composite key passes when the key is vacant but for its owner. -/
theorem ensureVacant_ok {key : CompositeKey} {owner : Option Value}
    (hknown : ∀ name ∈ key.filter.names, (t.column? name).isSome = true)
    (h : tx.snapshot.vacant t key owner = true) : ensureVacant t key owner tx = (.ok (), tx) := by
  rw [ensureVacant, bind_ok (select_ok hknown tx), if_neg]
  · rfl
  · rw [Database.vacant, List.all_eq_true] at h
    rw [List.any_eq_true]
    rintro ⟨row, hrow, hother⟩
    have hown := h row hrow
    cases owner with
    | none => simp at hown
    | some id => simp_all

/-- The check fails with the key's name and entry when another row holds it. The two lemmas cover
every key, so it decides just this. -/
theorem ensureVacant_error {key : CompositeKey} {owner : Option Value}
    (hknown : ∀ name ∈ key.filter.names, (t.column? name).isSome = true)
    (h : tx.snapshot.vacant t key owner = false) :
    ensureVacant t key owner tx = (.error (.duplicateEntry ⟨key.name, key.entry⟩), tx) := by
  rw [ensureVacant, bind_ok (select_ok hknown tx), if_pos]
  · rfl
  · rw [Database.vacant, List.all_eq_false] at h
    obtain ⟨row, hrow, hother⟩ := h
    rw [List.any_eq_true]
    -- the row that is in the way is none of the owner's
    refine ⟨row, hrow, ?_⟩
    cases owner with
    | none => rfl
    | some id => simpa using hother

end Registrar

-- ---------------------------------------------------------------------------
-- The statement of an operation
-- ---------------------------------------------------------------------------

/-- The statement that an operation on records runs on a state, once its checks have passed. -/
def Operation.issued? (db : Database) : Operation → Option Statement
  | create t record =>
    if record.check = .ok () ∧ record.compositeKey.all (fun key => db.vacant t key none) = true then
      some (.insert t record.toColumns)
    else none
  | modify t uuid revision =>
    if revision.uuid.isNone = true ∧ t.identity.check uuid = .ok () ∧ revision.check = .ok () ∧
        revision.payload.isEmpty = false ∧
        (t.touchesComposite revision.payload = true →
          db.movable t uuid revision.payload = true) then
      some (.update t (t.identityFilter uuid) revision.payload)
    else none
  | delete role uuid =>
    if role.accounts.identity.check uuid = .ok () then
      some (.delete role.accounts (role.accounts.identityFilter uuid))
    else none
  | login _ _ => none
  | get _ _ => none
  | find _ _ => none

/-- The statement that an operation on rows runs. -/
def RawOperation.issued? : RawOperation → Option Statement
  | insert t row => some (.insert t row)
  | select _ _ => none
  | update t filter payload => if payload.isEmpty then none else some (.update t filter payload)
  | delete t filter => some (.delete t filter)

namespace Transaction

/-- What is left of an insert is left of its statement alone. -/
theorem insert_state (now : Timestamp) (t : Table) (row : Columns) (tx : Transaction) :
    (insert now t row tx).2 = tx.attempt now (some (.insert t row)) :=
  bind_state (fun _ => reads_pure _) tx

/-- An update with nothing to set issues no statement at all, so not even the moment changes. -/
theorem update_state (now : Timestamp) (t : Table) (filter payload : Columns) (tx : Transaction) :
    (update now t filter payload tx).2 =
      tx.attempt now (if payload.isEmpty then none else some (.update t filter payload)) := by
  rw [update]
  split <;> rfl

/-- A delete always issues its statement, also one that meets no row. -/
theorem delete_state (now : Timestamp) (t : Table) (filter : Columns) (tx : Transaction) :
    (delete now t filter tx).2 = tx.attempt now (some (.delete t filter)) := rfl

end Transaction

namespace Registrar

open Transaction

variable {t : Table} {now : Timestamp} {tx : Transaction}

/-- A creation attempts the insert of its record when the record is valid and its composite key
vacant; otherwise it leaves everything. The lookup that follows only reads. -/
theorem create_state (record : Record t) :
    (create now record tx).2 =
      tx.attempt now ((Operation.create t record).issued? tx.snapshot) := by
  -- once nothing stands in the way, the record is inserted and read back
  have hwrite : ((do
      Transaction.insert now t record.toColumns
      get t record.uuid : Transact (Record t)) tx).2 =
        tx.attempt now (some (.insert t record.toColumns)) :=
    (bind_state (fun _ => reads_findBy t t.identity record.uuid) tx).trans
      (insert_state now t record.toColumns tx)
  rw [create, Operation.issued?]
  cases hcheck : record.check with
  | error v =>
    rw [ensure_error_bind, if_neg (by simp)]
    rfl
  | ok u =>
    rw [ensure_ok_bind]
    cases hkey : record.compositeKey with
    | none =>
      rw [if_pos ⟨rfl, rfl⟩]
      exact hwrite
    | some key =>
      have hknown := known_compositeKey hkey
      simp only [Option.all_some, true_and]
      -- what the check looks for is what the condition says, so both branches agree
      cases hvacant : tx.snapshot.vacant t key none with
      | true =>
        rw [bind_ok (ensureVacant_ok hknown hvacant), if_pos rfl]
        exact hwrite
      | false =>
        rw [bind_error (ensureVacant_error hknown hvacant), if_neg (by simp)]
        rfl

/-- A removal attempts the delete of the account when the uuid is valid, whether or not there is
one. -/
theorem delete_state (role : Role) (uuid : String) :
    (delete now role uuid tx).2 =
      tx.attempt now ((Operation.delete role uuid).issued? tx.snapshot) := by
  rw [delete, Operation.issued?]
  cases hcheck : role.accounts.identity.check uuid with
  | error v =>
    rw [ensure_error_bind, if_neg (by simp)]
    rfl
  | ok u =>
    rw [ensure_ok_bind, if_pos rfl]
    exact bind_state (fun _ => reads_pure _) tx

/-- A record can be moved when it has no composite key after the revision, or one that is vacant but
for itself. -/
theorem ensureMovable_ok {uuid : String} {current merged : Record t} {payload : Columns}
    (hmerged : Record.ofColumns t (current.toColumns.overlay payload) = .ok merged)
    (h : merged.compositeKey.all
      (fun key => tx.snapshot.vacant t key (some (t.identity.toValue uuid))) = true) :
    ensureMovable t uuid current payload tx = (.ok (), tx) := by
  rw [ensureMovable, hmerged, decoded_ok_bind]
  cases hkey : merged.compositeKey with
  | none => rfl
  | some key =>
    rw [hkey] at h
    exact ensureVacant_ok (known_compositeKey hkey) h

/-- A record cannot be moved when another row holds the key it would have, and the error names that
key. -/
theorem ensureMovable_error {uuid : String} {current merged : Record t} {payload : Columns}
    {key : CompositeKey}
    (hmerged : Record.ofColumns t (current.toColumns.overlay payload) = .ok merged)
    (hkey : merged.compositeKey = some key)
    (h : tx.snapshot.vacant t key (some (t.identity.toValue uuid)) = false) :
    ensureMovable t uuid current payload tx =
      (.error (.duplicateEntry ⟨key.name, key.entry⟩), tx) := by
  rw [ensureMovable, hmerged, decoded_ok_bind]
  simp only [hkey]
  exact ensureVacant_error (known_compositeKey hkey) h

/-- The check of a revision that sets composite columns, on the row that it finds: what follows runs
if the payload may be applied, and else nothing happens. -/
theorem checkMovable_state {uuid : String} {payload : Columns} {row : Row} {rest : List Row}
    (hrow : tx.snapshot.select t (t.identityFilter uuid) = row :: rest) (write : Transact Unit) :
    ((do
      let current ← decoded (Record.ofColumns t row)
      ensureMovable t uuid current payload
      write : Transact Unit) tx).2 =
      if tx.snapshot.movable t uuid payload = true then (write tx).2 else tx := by
  cases hcurrent : Record.ofColumns t row with
  | error e =>
    rw [decoded_error_bind, if_neg (by simp [Database.movable, hrow, hcurrent])]
  | ok current =>
    rw [decoded_ok_bind]
    cases hmerged : Record.ofColumns t (current.toColumns.overlay payload) with
    | error e =>
      rw [if_neg (by simp [Database.movable, hrow, hcurrent, hmerged]), bind_error]
      rw [ensureMovable, hmerged, decoded_error_bind]
    | ok merged =>
      -- the merged record decides, by the key it would have
      have hmovable : tx.snapshot.movable t uuid payload = merged.compositeKey.all
          fun key => tx.snapshot.vacant t key (some (t.identity.toValue uuid)) := by
        simp only [Database.movable, hrow, hcurrent, hmerged]
      rw [hmovable]
      split
      · next hvacant => rw [bind_ok (ensureMovable_ok hmerged hvacant)]
      · next hvacant =>
        cases hkey : merged.compositeKey with
        | none => simp [hkey] at hvacant
        | some key =>
          rw [hkey, Option.all_some, Bool.not_eq_true] at hvacant
          rw [bind_error (ensureMovable_error hmerged hkey hvacant)]

variable {uuid : String} {revision : Revision t}

/-- A revision is refused at once unless what it was given is valid. -/
theorem modify_of_not_valid (h : ¬(revision.uuid = none ∧ t.identity.check uuid = .ok () ∧
    revision.check = .ok ())) : ∃ e, modify now uuid revision tx = (.error e, tx) := by
  rw [modify]
  cases hid : revision.uuid with
  | some other =>
    rw [Option.isSome_some, if_pos rfl]
    exact ⟨_, bind_error (x := throw _) rfl⟩
  | none =>
    rw [Option.isSome_none, if_neg Bool.false_ne_true]
    show ∃ e, (ensure (t.identity.check uuid) >>= fun _ => _) tx = (.error e, tx)
    -- the uuid is checked before the fields, and either may be the one that fails
    cases huuid : t.identity.check uuid with
    | error v => exact ⟨_, ensure_error_bind v _⟩
    | ok u =>
      rw [ensure_ok_bind]
      cases hcheck : revision.check with
      | error v => exact ⟨_, ensure_error_bind v _⟩
      | ok u => exact absurd ⟨hid, huuid, hcheck⟩ h

/-- What a revision does once what it was given has passed the checks: it ends here if it sets
nothing, or sets composite columns of a record that is not there. -/
theorem modify_of_valid (hid : revision.uuid = none) (huuid : t.identity.check uuid = .ok ())
    (hcheck : revision.check = .ok ()) :
    modify now uuid revision tx =
      if revision.payload.isEmpty = true then (.ok (), tx)
      else if t.touchesComposite revision.payload = true then
        match tx.snapshot.select t (t.identityFilter uuid) with
        | [] => (.ok (), tx)
        | row :: _ => (do
            let current ← decoded (Record.ofColumns t row)
            ensureMovable t uuid current revision.payload
            let _ ← update now t (t.identityFilter uuid) revision.payload : Transact Unit) tx
      else (do
        let _ ← update now t (t.identityFilter uuid) revision.payload : Transact Unit) tx := by
  simp only [modify, hid, Option.isSome_none, Bool.false_eq_true, if_false]
  rw [huuid, ensure_ok_bind, hcheck, ensure_ok_bind]
  split
  · rfl
  · show (if t.touchesComposite revision.payload = true then _ else _ : Transact Unit) tx = _
    split
    · rw [bind_ok (select_ok (t.known_identityFilter uuid) tx)]
      cases tx.snapshot.select t (t.identityFilter uuid) <;> rfl
    · rfl

/-- A revision attempts its update when it names no uuid of its own, passes its checks, supplies
something and leaves the record on a vacant key; otherwise it leaves everything. -/
theorem modify_state (uuid : String) (revision : Revision t) :
    (modify now uuid revision tx).2 =
      tx.attempt now ((Operation.modify t uuid revision).issued? tx.snapshot) := by
  by_cases hvalid : revision.uuid = none ∧ t.identity.check uuid = .ok () ∧ revision.check = .ok ()
  · obtain ⟨hid, huuid, hcheck⟩ := hvalid
    rw [modify_of_valid hid huuid hcheck, Operation.issued?, hid, huuid, hcheck]
    have hwrite : ((do
        let _ ← update now t (t.identityFilter uuid) revision.payload : Transact Unit) tx).2 =
          tx.attempt now (if revision.payload.isEmpty then none
            else some (.update t (t.identityFilter uuid) revision.payload)) :=
      (bind_state (fun _ => reads_pure ()) tx).trans (update_state _ _ _ _ tx)
    cases hempty : revision.payload.isEmpty with
    | true =>
      rw [if_pos rfl, if_neg (by simp)]
      rfl
    | false =>
      rw [hempty, if_neg Bool.false_ne_true] at hwrite
      rw [if_neg Bool.false_ne_true]
      -- only a revision of a composite column is checked against the rows of the others
      cases htouches : t.touchesComposite revision.payload with
      | false =>
        rw [if_neg Bool.false_ne_true, if_pos ⟨rfl, rfl, rfl, rfl, by simp⟩]
        exact hwrite
      | true =>
        rw [if_pos rfl]
        cases hrow : tx.snapshot.select t (t.identityFilter uuid) with
        | nil =>
          -- no row of that uuid: the operation ends without a statement
          rw [if_neg (by simp [Database.movable, hrow])]
          rfl
        | cons row rest =>
          refine (checkMovable_state hrow _).trans ?_
          rw [hwrite]
          cases hmovable : tx.snapshot.movable t uuid revision.payload with
          | true => simp
          | false => simp [attempt]
  · obtain ⟨e, hrefused⟩ : ∃ e, modify now uuid revision tx = (.error e, tx) :=
      modify_of_not_valid hvalid
    rw [hrefused, Operation.issued?, if_neg]
    · rfl
    · rintro ⟨hid, huuid, hcheck, -⟩
      exact hvalid ⟨Option.isNone_iff_eq_none.1 hid, huuid, hcheck⟩

end Registrar

/-- **An operation on records is one attempt at the statement that it issues.** -/
theorem Operation.run_state (operation : Operation) (now : Timestamp) (tx : Transaction) :
    (operation.run now tx).2 = tx.attempt now (operation.issued? tx.snapshot) := by
  cases operation with
  | create t record =>
    exact (bind_state (fun _ => reads_pure _) tx).trans (Registrar.create_state record)
  | login role id => exact ((Registrar.reads_findBy _ _ _).bind fun _ => reads_pure _) tx
  | get t uuid => exact ((Registrar.reads_findBy _ _ _).bind fun _ => reads_pure _) tx
  | find person wanted => exact ((Registrar.reads_uuidsMatching _).bind fun _ => reads_pure _) tx
  | modify t uuid revision =>
    exact (bind_state (fun _ => reads_pure _) tx).trans (Registrar.modify_state uuid revision)
  | delete role uuid =>
    exact (bind_state (fun _ => reads_pure _) tx).trans (Registrar.delete_state role uuid)

/-- **An operation on rows is one attempt at its statement.** -/
theorem RawOperation.run_state (operation : RawOperation) (now : Timestamp) (tx : Transaction) :
    (operation.run now tx).2 = tx.attempt now operation.issued? := by
  cases operation with
  | insert t row =>
    exact (bind_state (fun _ => reads_pure _) tx).trans (Transaction.insert_state now t row tx)
  | select t filter => exact ((Transaction.reads_select _ _).bind fun _ => reads_pure _) tx
  | update t filter payload =>
    exact (bind_state (fun _ => reads_pure _) tx).trans
      (Transaction.update_state now t filter payload tx)
  | delete t filter =>
    exact (bind_state (fun _ => reads_pure _) tx).trans (Transaction.delete_state now t filter tx)

end Rollbook
