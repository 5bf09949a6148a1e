import Rollbook.Proofs.Report
import Rollbook.Proofs.Stored

/-!
# Rollbook — every failure is one that the caller can mend

Where all writing goes through operations on records, no operation and no commit ends in a failure
of the register's own: no row fails to be decoded, and no breach remains without a name.

* `execute_error`         — on sound rows, a checked statement fails only by a key or a reference
  of the schema, and such a breach is read back from its report.
* `get_of_inserted`       — a creation that has been written is read back, whatever rows there are.
* `Operation.run_failsIn` — the failures that each operation may end with.
* `clientError_run`       — the same for every step of a run, commits included.
-/

namespace Rollbook

-- ---------------------------------------------------------------------------
-- Breaches of keys and references
-- ---------------------------------------------------------------------------

/-- The breach is one of a key or of a reference of the schema. -/
def Breach.OfSchema : Breach → Prop
  | .duplicate d => ∃ t : Table, ∃ c ∈ t.columns, t.isKey c = true ∧ d.key = t.keyName c.name
  | .referenced f => ∃ t : Table, ∃ fk ∈ t.foreignKeys, f = fk.failure t
  | .noReferent f => ∃ t : Table, ∃ fk ∈ t.foreignKeys, f = fk.failure t
  | _ => False

/-- The failure names a duplicate or a reference. -/
def Failure.OfSchema (f : Failure) : Prop :=
  (∃ d, f = .duplicateEntry d) ∨ ∃ k, f = .foreignKey k

/-- No key has a quote in its name, so a duplicate is read back with its key. -/
theorem Table.plain_keyName {t : Table} : ∀ c ∈ t.columns, '\x60' ∉ (t.keyName c.name).toList := by
  cases t <;> decide

theorem ForeignKey.plain_failure {t : Table} : ∀ fk ∈ t.foreignKeys, (fk.failure t).Plain := by
  cases t <;> decide

/-- A breach of the schema comes back as a duplicate or as a reference, never as something
unclassified: this is where the names of keys have to be plain. -/
theorem Breach.OfSchema.failure {b : Breach} (h : b.OfSchema) :
    (Failure.ofEngineError b.report).OfSchema := by
  cases b with
  | unknownColumn name clause => exact h.elim
  | nullColumn name => exact h.elim
  | referenced f =>
    obtain ⟨t, fk, hfk, rfl⟩ := h
    have hplain : Breach.Plain (.referenced (fk.failure t)) := ForeignKey.plain_failure fk hfk
    rw [ofEngineError_report hplain]
    exact .inr ⟨_, rfl⟩
  | duplicate d =>
    obtain ⟨t, c, hc, -, hkey⟩ := h
    have hplain : Breach.Plain (.duplicate d) := by
      rw [Plain, hkey]
      exact Table.plain_keyName c hc
    rw [ofEngineError_report hplain]
    exact .inl ⟨_, rfl⟩
  | noReferent f =>
    obtain ⟨t, fk, hfk, rfl⟩ := h
    have hplain : Breach.Plain (.noReferent (fk.failure t)) := ForeignKey.plain_failure fk hfk
    rw [ofEngineError_report hplain]
    exact .inr ⟨_, rfl⟩

namespace Database

variable {db : Database} {t : Table} {now : Timestamp} {b : Breach}

theorem ofSchema_of_duplicate? {others : List Row} {row : Row}
    (h : duplicate? t others row = some b) : b.OfSchema := by
  obtain ⟨c, hc, rfl⟩ := Option.map_eq_some_iff.1 h
  have hclash := List.find?_some hc
  simp only [Bool.and_eq_true] at hclash
  exact ⟨t, c, List.mem_of_find?_eq_some hc, hclash.1.1, rfl⟩

/-- A missing row that is found missing is one that a foreign key asks for. -/
theorem ofSchema_of_noReferent? {row : Row} (h : db.noReferent? t row = some b) :
    b.OfSchema := by
  obtain ⟨fk, hfk, rfl⟩ := Option.map_eq_some_iff.1 h
  exact ⟨t, fk, List.mem_of_find?_eq_some hfk, rfl⟩

/-- A row that is referred to is so by a foreign key of some table. -/
theorem exists_of_referenced? {row : Row} {successor : Option Row}
    (h : db.referenced? t row successor = some b) :
    ∃ child : Table, ∃ fk ∈ child.foreignKeys, b = .referenced (fk.failure child) := by
  obtain ⟨⟨child, fk⟩, hp, rfl⟩ := Option.map_eq_some_iff.1 h
  exact ⟨child, fk, (mem_referrers_iff.1 (List.mem_of_find?_eq_some hp)).1, rfl⟩

/-- A row that holds what it must fails its checks by a key or a reference only. -/
theorem ofSchema_of_breach? {others : List Row} {old : Option Row} {row : Row}
    (hnull : nullColumn? t row = none) (h : db.breach? t others old row = some b) :
    b.OfSchema := by
  rw [breach?, hnull] at h
  -- the checks in their order: references to the old row, keys, references of the new one
  cases hold : old.bind fun o => db.referenced? t o (some row) with
  | some c =>
    rw [hold] at h
    cases h
    obtain ⟨o, -, hreferenced⟩ := Option.bind_eq_some_iff.1 hold
    obtain ⟨child, fk, hfk, rfl⟩ := exists_of_referenced? hreferenced
    exact ⟨child, fk, hfk, rfl⟩
  | none =>
    rw [hold] at h
    cases hduplicate : duplicate? t others row with
    | some c =>
      rw [hduplicate] at h
      cases h
      exact ofSchema_of_duplicate? hduplicate
    | none =>
      rw [hduplicate] at h
      exact ofSchema_of_noReferent? h

/-- An update that fails does so at a revision of one of the rows. -/
theorem exists_of_updateRows_error {filter payload : Columns} {done rows : List Row}
    (h : db.updateRows t filter payload now done rows = .error b) :
    ∃ row ∈ rows, ∃ revised others, revised? filter payload now row = some revised ∧
      db.breach? t others (some row) revised = some b := by
  induction rows generalizing done with
  | nil => cases h
  | cons row rest ih =>
    rw [updateRows] at h
    split at h
    · obtain ⟨r, hr, hfound⟩ := ih h
      exact ⟨r, List.mem_cons_of_mem _ hr, hfound⟩
    · -- the row is revised: it fails here, or the visit goes on with it among those done
      next revised hrev =>
      split at h
      · next c hbreach =>
        cases h
        exact ⟨row, List.mem_cons_self, revised, _, hrev, hbreach⟩
      · cases hrest : db.updateRows t filter payload now (done ++ [revised]) rest with
        | error c =>
          rw [hrest] at h
          cases h
          obtain ⟨r, hr, hfound⟩ := ih hrest
          exact ⟨r, List.mem_cons_of_mem _ hr, hfound⟩
        | ok p =>
          rw [hrest] at h
          cases h

/-- A delete with a known filter is refused for references alone. -/
theorem exists_of_delete_error {filter : Columns}
    (hknown : ∀ name ∈ filter.names, (t.column? name).isSome = true)
    (h : db.delete t filter = .error b) :
    ∃ child : Table, ∃ fk ∈ child.foreignKeys, b = .referenced (fk.failure child) := by
  rw [delete, (unknownColumn?_eq_none_iff .whereClause).2 hknown] at h
  cases hdoomed : (db.select t filter).findSome? fun row => db.referenced? t row none with
  | none => simp [hdoomed] at h
  | some c =>
    simp only [hdoomed, Except.error.injEq] at h
    obtain ⟨row, -, hreferenced⟩ := List.exists_of_findSome?_eq_some hdoomed
    exact exists_of_referenced? (h ▸ hreferenced)

/-- **On sound rows, a checked statement fails only by a key or a reference.** -/
theorem execute_error {statement : Statement} (hsound : db.Sound) (hchecked : statement.Checked)
    (h : db.execute now statement = .error b) : b.OfSchema := by
  cases statement with
  | insert t columns =>
    obtain ⟨record, hcheck, rfl⟩ := hchecked
    have hnull := (Table.sound_complete hcheck now).nullColumn?_eq_none
    rw [execute, insert, (unknownColumn?_eq_none_iff .fieldList).2 record.known_toColumns] at h
    cases hbreach : db.breach? t (db.rows t) none (complete t record.toColumns now) with
    | none => simp [hbreach] at h
    | some c =>
      simp only [hbreach, Except.error.injEq] at h
      exact ofSchema_of_breach? hnull (h ▸ hbreach)
  | update t filter payload =>
    obtain ⟨uuid, revision, hcheck, rfl, rfl⟩ := hchecked
    rw [execute, update, (unknownColumn?_eq_none_iff .fieldList).2 revision.known_payload,
      (unknownColumn?_eq_none_iff .whereClause).2 (t.known_identityFilter uuid)] at h
    cases hrows : db.updateRows t (t.identityFilter uuid) revision.payload now [] (db.rows t) with
    | ok p =>
      rw [hrows] at h
      cases h
    | error c =>
      rw [hrows] at h
      cases h
      -- the row that fails was sound, and a revision leaves it complete
      obtain ⟨row, hrow, revised, others, hrev, hbreach⟩ := exists_of_updateRows_error hrows
      have hnull := ((hsound t row hrow).revised hcheck hrev).nullColumn?_eq_none
      exact ofSchema_of_breach? hnull hbreach
  | delete t filter =>
    obtain ⟨uuid, rfl⟩ := hchecked
    obtain ⟨child, fk, hfk, rfl⟩ := exists_of_delete_error (t.known_identityFilter uuid) h
    exact ⟨child, fk, hfk, rfl⟩

end Database

/-- A journal of checked statements fails only by a key or a reference, wherever it is run. -/
theorem Transaction.replay_error {db : Database} {journal : List JournalEntry} {b : Breach}
    (hsound : db.Sound) (hjournal : ∀ e ∈ journal, e.statement.Checked)
    (h : replay db journal = .error b) : b.OfSchema := by
  induction journal generalizing db with
  | nil => cases h
  | cons e rest ih =>
    have hchecked := hjournal e List.mem_cons_self
    rw [replay] at h
    split at h
    · next next n hexecute =>
      refine ih (Database.keeps_sound _ _ _ _ _ hsound hchecked hexecute) ?_ h
      exact fun e he => hjournal e (List.mem_cons_of_mem _ he)
    · next c hexecute =>
      cases h
      exact Database.execute_error hsound hchecked hexecute

-- ---------------------------------------------------------------------------
-- What a step may fail with
-- ---------------------------------------------------------------------------

namespace Transact

variable {α β : Type} {x : Transact α} {f : α → Transact β} {tx : Transaction}
  {kind : Failure → Prop}

/-- Whatever the step fails with on the transaction is of the kind. -/
def FailsIn (x : Transact α) (tx : Transaction) (kind : Failure → Prop) : Prop :=
  ∀ e, (x tx).1 = .error e → kind e

theorem failsIn_pure (a : α) : FailsIn (pure a) tx kind := fun e h => by cases h

theorem failsIn_throw {e : Failure} (h : kind e) : FailsIn (throw e : Transact α) tx kind := by
  intro e' he'
  cases he'
  exact h

/-- A failure of a sequence is one of its first step, or of the rest where the first step led. -/
theorem FailsIn.bind (hx : FailsIn x tx kind)
    (hf : ∀ a after, x tx = (.ok a, after) → FailsIn (f a) after kind) :
    FailsIn (x >>= f) tx kind := by
  intro e h
  rcases hstep : x tx with ⟨e' | a, after⟩
  · rw [bind_error hstep] at h
    cases h
    exact hx e (congrArg Prod.fst hstep)
  · rw [bind_ok hstep] at h
    exact hf a after hstep e h

end Transact

open Transact

namespace Registrar

open Transaction

variable {α : Type} {t : Table} {now : Timestamp} {tx : Transaction} {kind : Failure → Prop}

/-- A check in front adds its violations, and what follows may rely on it. -/
theorem ensure_failsIn {check : Except Violation Unit} {f : Unit → Transact α}
    (hviolation : ∀ v, check = .error v → kind (.validation v))
    (hf : check = .ok () → FailsIn (f ()) tx kind) : FailsIn (ensure check >>= f) tx kind := by
  intro e h
  cases check with
  | error v =>
    rw [ensure_error_bind] at h
    cases h
    exact hviolation v rfl
  | ok u =>
    rw [ensure_ok_bind] at h
    exact hf rfl e h

/-- A select of known columns adds nothing, and what follows has the rows of the copy. -/
theorem select_failsIn {filter : Columns} {f : List Row → Transact α}
    (hknown : ∀ name ∈ filter.names, (t.column? name).isSome = true)
    (hf : FailsIn (f (tx.snapshot.select t filter)) tx kind) :
    FailsIn (select t filter >>= f) tx kind := by
  intro e h
  rw [bind_ok (select_ok hknown tx)] at h
  exact hf e h

/-- The check of a composite key adds the duplicate. -/
theorem ensureVacant_failsIn {key : CompositeKey} {owner : Option Value} {f : Unit → Transact α}
    (hknown : ∀ name ∈ key.filter.names, (t.column? name).isSome = true)
    (hduplicate : ∀ d, kind (.duplicateEntry d)) (hf : FailsIn (f ()) tx kind) :
    FailsIn (ensureVacant t key owner >>= f) tx kind := by
  intro e h
  cases hvacant : tx.snapshot.vacant t key owner with
  | true =>
    rw [bind_ok (ensureVacant_ok hknown hvacant)] at h
    exact hf e h
  | false =>
    rw [bind_error (ensureVacant_error hknown hvacant)] at h
    cases h
    exact hduplicate _

/-- On sound rows, a checked statement fails only by a key or a reference. -/
theorem execute_failsIn {statement : Statement} (hsound : tx.snapshot.Sound)
    (hchecked : statement.Checked) : FailsIn (execute now statement) tx Failure.OfSchema := by
  intro e h
  rcases hexecute : tx.snapshot.execute now statement with b | ⟨db, n⟩
  · rw [execute_error hexecute] at h
    cases h
    exact (Database.execute_error hsound hchecked hexecute).failure
  · rw [execute_ok hexecute] at h
    cases h

/-- On sound rows, a lookup fails only where no row meets its filter. -/
theorem first_failsIn {filter : Columns} (hsound : tx.snapshot.Sound)
    (hknown : ∀ name ∈ filter.names, (t.column? name).isSome = true)
    (hmissing : kind .notFound) :
    FailsIn (first t filter) tx kind := by
  refine select_failsIn hknown ?_
  cases hrows : tx.snapshot.select t filter with
  | nil => exact failsIn_throw hmissing
  | cons row rest =>
    have hrow : row ∈ tx.snapshot.select t filter := hrows ▸ List.mem_cons_self
    obtain ⟨record, hstored⟩ := (hsound t row (List.mem_filter.1 hrow).1).exists_record
    show FailsIn (decoded (Record.ofColumns t row)) tx kind
    rw [hstored.decodes]
    exact failsIn_pure record

/-- A lookup by a unique value fails with a violation or by not finding it. On a sound copy it does
not fail to decode. -/
theorem findBy_failsIn {a : Attribute} {content : a.Content} (hsound : tx.snapshot.Sound)
    (hknown : (t.column? a.key).isSome = true) :
    FailsIn (findBy t a content) tx fun f => (∃ v, f = .validation v) ∨ f = .notFound := by
  refine ensure_failsIn (fun v _ => .inl ⟨v, rfl⟩) fun _ => ?_
  refine first_failsIn hsound ?_ (.inr rfl)
  intro name hname
  rw [Columns.mem_names_singleton.1 hname]
  exact hknown

theorem insert_ok {row : Columns} {after : Transaction}
    (h : Transaction.insert now t row tx = (.ok (), after)) :
    ∃ n, tx.snapshot.insert t row now = .ok (after.snapshot, n) := by
  rcases hexecute : tx.snapshot.execute now (.insert t row) with b | ⟨db, n⟩
  · rw [Transaction.insert, bind_error (execute_error hexecute)] at h
    cases h
  · rw [Transaction.insert, bind_ok (execute_ok hexecute)] at h
    cases h
    exact ⟨n, hexecute⟩

/-- **A creation that has been written is read back**, whatever rows stand beside it. -/
theorem get_of_inserted {record : Record t} {after : Transaction} (hcheck : record.check = .ok ())
    (h : Transaction.insert now t record.toColumns tx = (.ok (), after)) :
    get t record.uuid after = (.ok (record.stored now), after) := by
  obtain ⟨n, hinsert⟩ := insert_ok h
  obtain ⟨hidentity, -⟩ := Record.check_eq_ok_iff.1 hcheck
  have hrows := Database.select_of_inserted hinsert
  show (ensure (t.identity.check record.uuid) >>= fun _ =>
    first t (t.identityFilter record.uuid)) after = _
  rw [hidentity, ensure_ok_bind, first,
    bind_ok (select_ok (t.known_identityFilter record.uuid) after), hrows]
  show decoded (Record.ofColumns t (Database.complete t record.toColumns now)) after = _
  rw [Record.ofColumns_complete hcheck now]
  rfl

/-- A valid record is inserted and read back, unless its insertion fails. -/
theorem insert_get_failsIn {record : Record t} (hcheck : record.check = .ok ())
    (hinsert : FailsIn (execute now (.insert t record.toColumns)) tx kind) :
    FailsIn (do
      Transaction.insert now t record.toColumns
      get t record.uuid) tx kind := by
  refine FailsIn.bind (hinsert.bind fun _ _ _ => failsIn_pure _) fun _ after hinserted => ?_
  rw [FailsIn, get_of_inserted hcheck hinserted]
  exact fun _ h => by cases h

/-- A creation fails with a violation or for the schema: the lookup behind its insert finds the
record. -/
theorem create_failsIn (record : Record t) (hsound : tx.snapshot.Sound) :
    FailsIn (create now record) tx fun f => (∃ v, f = .validation v) ∨ f.OfSchema := by
  refine ensure_failsIn (fun v _ => .inl ⟨v, rfl⟩) fun hcheck => ?_
  have hchecked : Statement.Checked (.insert t record.toColumns) := ⟨record, hcheck, rfl⟩
  have hwrite : FailsIn (do
      Transaction.insert now t record.toColumns
      get t record.uuid) tx fun f => (∃ v, f = .validation v) ∨ f.OfSchema :=
    insert_get_failsIn hcheck fun e he => .inr (execute_failsIn hsound hchecked e he)
  cases hkey : record.compositeKey with
  | none => exact hwrite
  | some key =>
    exact ensureVacant_failsIn (known_compositeKey hkey) (fun d => .inr (.inl ⟨d, rfl⟩)) hwrite

/-- Steps that may fail in one kind, taken one after the other, may fail in that kind. The induction
is on the items, over every transaction, since each step leaves one to the next. -/
theorem mapM_failsIn {β : Type} {g : α → Transact β} {xs : List α}
    (h : ∀ a ∈ xs, ∀ tx, FailsIn (g a) tx kind) : FailsIn (xs.mapM g) tx kind := by
  induction xs generalizing tx with
  | nil => exact failsIn_pure _
  | cons a rest ih =>
    rw [List.mapM_cons]
    refine (h a List.mem_cons_self tx).bind fun _ after _ => ?_
    have hrest : ∀ a ∈ rest, ∀ tx, FailsIn (g a) tx kind :=
      fun a ha => h a (List.mem_cons_of_mem _ ha)
    exact (ih hrest).bind fun _ _ _ => failsIn_pure _

/-- A search fails with a violation or by finding nothing. The uuids that it finds decode, for the
copy is sound. -/
theorem uuidsMatching_failsIn (wanted : Revision t) (hsound : tx.snapshot.Sound) :
    FailsIn (uuidsMatching wanted) tx fun f => (∃ v, f = .validation v) ∨ f = .notFound := by
  refine ensure_failsIn (fun v _ => .inl ⟨v, rfl⟩) fun _ => ?_
  refine select_failsIn wanted.known_criteria ?_
  have hdecoded : ∀ row ∈ tx.snapshot.select t wanted.criteria, ∀ tx',
      FailsIn (decoded (t.identity.ofValue (row.get t.identityKey))) tx'
        fun f => (∃ v, f = .validation v) ∨ f = .notFound := by
    intro row hrow tx'
    obtain ⟨uuid, -, hvalue⟩ := (hsound t row (List.mem_filter.1 hrow).1).identity
    rw [hvalue, Attribute.ofValue_toValue]
    exact failsIn_pure _
  split
  · exact (failsIn_throw (.inr rfl)).bind fun _ _ _ => mapM_failsIn hdecoded
  · exact mapM_failsIn hdecoded

/-- The check of a revision that sets composite columns fails only for a key that is taken. -/
theorem ensureMovable_failsIn {uuid : String} {row : Row} {revision : Revision t}
    {write : Transact Unit} (hsound : t.Sound row) (hcheck : revision.check = .ok ())
    (hduplicate : ∀ d, kind (.duplicateEntry d)) (hwrite : FailsIn write tx kind) :
    FailsIn (do
      let current ← decoded (Record.ofColumns t row)
      ensureMovable t uuid current revision.payload
      write) tx kind := by
  obtain ⟨current, hcurrent, hvalid, -⟩ := hsound.toValid.exists_record
  -- the record that the check reads can be revised and read again
  obtain ⟨merged, hmerged, -⟩ := ((Table.valid_toColumns hvalid).overlay hcheck).exists_record
  rw [hcurrent, decoded_ok_bind, ensureMovable, hmerged, decoded_ok_bind]
  cases hkey : merged.compositeKey with
  | none => exact hwrite
  | some key => exact ensureVacant_failsIn (known_compositeKey hkey) hduplicate hwrite

/-- A revision fails for the uuid it names itself, with a violation, or for the schema. A uuid that
is not there is no failure. -/
theorem modify_failsIn (uuid : String) (revision : Revision t) (hsound : tx.snapshot.Sound) :
    FailsIn (modify now uuid revision) tx fun f =>
      f = .identityImmutable t.role ∨ (∃ v, f = .validation v) ∨ f.OfSchema := by
  rw [modify]
  cases hid : revision.uuid with
  | some other => exact (failsIn_throw (.inl rfl)).bind fun _ _ h => by cases h
  | none =>
    refine ensure_failsIn (fun v _ => .inr (.inl ⟨v, rfl⟩)) fun huuid => ?_
    refine ensure_failsIn (fun v _ => .inr (.inl ⟨v, rfl⟩)) fun hcheck => ?_
    have hwrite : FailsIn (do
        let _ ← Transaction.update now t (t.identityFilter uuid) revision.payload) tx fun f =>
          f = .identityImmutable t.role ∨ (∃ v, f = .validation v) ∨ f.OfSchema := by
      refine FailsIn.bind (fun e he => .inr (.inr ?_)) fun _ _ _ => failsIn_pure _
      rw [Transaction.update] at he
      split at he
      · cases he
      · have hchecked : Statement.Checked (.update t (t.identityFilter uuid) revision.payload) :=
          ⟨uuid, revision, hcheck, rfl, rfl⟩
        exact execute_failsIn hsound hchecked e he
    -- nothing to set, a composite column among what is set, or none
    show FailsIn (if revision.payload.isEmpty then pure ()
      else if t.touchesComposite revision.payload then _ else _) tx _
    split
    · exact failsIn_pure _
    · split
      · refine select_failsIn (t.known_identityFilter uuid) ?_
        cases hrows : tx.snapshot.select t (t.identityFilter uuid) with
        | nil => exact failsIn_pure _
        | cons row rest =>
          have hrow : row ∈ tx.snapshot.select t (t.identityFilter uuid) :=
            hrows ▸ List.mem_cons_self
          exact ensureMovable_failsIn (hsound t row (List.mem_filter.1 hrow).1) hcheck
            (fun d => .inr (.inr (.inl ⟨d, rfl⟩))) hwrite
      · exact hwrite

/-- A removal fails with a violation or for a reference to the account. -/
theorem delete_failsIn (role : Role) (uuid : String) :
    FailsIn (delete now role uuid) tx fun f =>
      (∃ v, f = .validation v) ∨ ∃ k, f = .foreignKey k := by
  refine ensure_failsIn (fun v _ => .inl ⟨v, rfl⟩) fun _ => ?_
  refine FailsIn.bind (fun e he => .inr ?_) fun _ _ _ => failsIn_pure _
  rcases hexecute : tx.snapshot.execute now
      (.delete role.accounts (role.accounts.identityFilter uuid)) with b | ⟨db, n⟩
  · rw [Transaction.delete, execute_error hexecute] at he
    obtain ⟨child, fk, hfk, rfl⟩ :=
      Database.exists_of_delete_error (role.accounts.known_identityFilter uuid) hexecute
    have hplain : Breach.Plain (.referenced (fk.failure child)) := ForeignKey.plain_failure fk hfk
    rw [Breach.ofEngineError_report hplain] at he
    cases he
    exact ⟨_, rfl⟩
  · rw [Transaction.delete, execute_ok hexecute] at he
    cases he

end Registrar

/-- The failures that an operation may end with. -/
def Operation.MayFail : Operation → Failure → Prop
  | create _ _, f => (∃ v, f = .validation v) ∨ f.OfSchema
  | login _ _, f => (∃ v, f = .validation v) ∨ f = .notFound
  | get _ _, f => (∃ v, f = .validation v) ∨ f = .notFound
  | find _ _, f => (∃ v, f = .validation v) ∨ f = .notFound
  | modify t _ _, f => f = .identityImmutable t.role ∨ (∃ v, f = .validation v) ∨ f.OfSchema
  | delete _ _, f => (∃ v, f = .validation v) ∨ ∃ k, f = .foreignKey k

/-- **On sound rows, an operation fails only in these ways**, whatever it is given. -/
theorem Operation.run_failsIn (operation : Operation) (now : Timestamp) {tx : Transaction}
    (hsound : tx.snapshot.Sound) : FailsIn (operation.run now) tx operation.MayFail := by
  cases operation with
  | create t record =>
    exact (Registrar.create_failsIn record hsound).bind fun _ _ _ => failsIn_pure _
  | login role id =>
    have hknown : (role.accounts.column? (Attribute.text (.loginId role)).key).isSome = true := by
      cases role <;> decide
    exact (Registrar.findBy_failsIn hsound hknown).bind fun _ _ _ => failsIn_pure _
  | get t uuid =>
    have hknown : (t.column? t.identity.key).isSome = true :=
      Table.column?_isSome_iff.2 t.exists_identity
    exact (Registrar.findBy_failsIn hsound hknown).bind fun _ _ _ => failsIn_pure _
  | find person wanted =>
    exact (Registrar.uuidsMatching_failsIn wanted hsound).bind fun _ _ _ => failsIn_pure _
  | modify t uuid revision =>
    exact (Registrar.modify_failsIn uuid revision hsound).bind fun _ _ _ => failsIn_pure _
  | delete role uuid =>
    exact (Registrar.delete_failsIn role uuid).bind fun _ _ _ => failsIn_pure _

/-- The operation only looks records up. -/
def Operation.LooksUp : Operation → Prop
  | login _ _ | get _ _ | find _ _ => True
  | create _ _ | modify _ _ _ | delete _ _ => False

theorem Failure.OfSchema.isClientError {f : Failure} (h : f.OfSchema) : f.isClientError = true := by
  rcases h with ⟨d, rfl⟩ | ⟨k, rfl⟩ <;> rfl

theorem Operation.MayFail.isClientError {operation : Operation} {f : Failure}
    (h : operation.MayFail f) : f.isClientError = true := by
  cases operation with
  | create t record =>
    rcases h with ⟨v, rfl⟩ | h
    · rfl
    · exact h.isClientError
  | login role id => rcases h with ⟨v, rfl⟩ | rfl <;> rfl
  | get t uuid => rcases h with ⟨v, rfl⟩ | rfl <;> rfl
  | find person wanted => rcases h with ⟨v, rfl⟩ | rfl <;> rfl
  | modify t uuid revision =>
    rcases h with rfl | ⟨v, rfl⟩ | h
    · rfl
    · rfl
    · exact h.isClientError
  | delete role uuid => rcases h with ⟨v, rfl⟩ | ⟨k, rfl⟩ <;> rfl

/-- What is not found is an answer to a search alone. -/
theorem Operation.MayFail.looksUp {operation : Operation} (h : operation.MayFail .notFound) :
    operation.LooksUp := by
  cases operation with
  | create t record => rcases h with ⟨v, h⟩ | ⟨d, h⟩ | ⟨k, h⟩ <;> cases h
  | login role id => trivial
  | get t uuid => trivial
  | find person wanted => trivial
  | modify t uuid revision => rcases h with h | ⟨v, h⟩ | ⟨d, h⟩ | ⟨k, h⟩ <;> cases h
  | delete role uuid => rcases h with ⟨v, h⟩ | ⟨k, h⟩ <;> cases h

-- ---------------------------------------------------------------------------
-- Whole runs
-- ---------------------------------------------------------------------------

namespace Session

variable {steps : List (Timestamp × Step)} {tx : String} {opened : OpenTransaction}

/-- **Every failure is the caller's.** Where all writing goes through operations on records, an
operation in an open transaction of records succeeds or fails in one of its own ways, and a commit
succeeds or fails by a duplicate or a reference, so that the caller can mend every failure. Only a
search answers that something is not found. -/
theorem clientError_run (hwrites : RecordWrites steps)
    (hfind : (new.run steps).find? tx = some opened) (now : Timestamp) :
    (opened.access = .records → ∀ operation,
      (∃ answer, ((new.run steps).step now (.operate tx operation)).2 = .ok answer) ∨
      ∃ f, ((new.run steps).step now (.operate tx operation)).2 = .error (.failure f) ∧
        operation.MayFail f ∧ f.isClientError = true ∧ (f = .notFound → operation.LooksUp)) ∧
    (((new.run steps).step now (.commit tx)).2 = .ok .done ∨
      ∃ f, ((new.run steps).step now (.commit tx)).2 = .error (.failure f) ∧
        f.OfSchema ∧ f.isClientError = true) := by
  have hsound := throughout_sound hwrites
  constructor
  · intro haccess operation
    have hstep : ((new.run steps).step now (.operate tx operation)).2 =
        (operation.run now opened.transaction).1.mapError .failure := by
      simp only [step, inside, hfind, haccess, ne_eq, not_true_eq_false, if_false]
      rfl
    rw [hstep]
    cases hrun : (operation.run now opened.transaction).1 with
    | ok answer => exact .inl ⟨answer, rfl⟩
    | error f =>
      have hmay := operation.run_failsIn now (hsound.snapshot tx opened hfind) f hrun
      exact .inr ⟨f, rfl, hmay, hmay.isClientError, fun h => (h ▸ hmay).looksUp⟩
  · rcases commit_cases now hfind with ⟨db, -, -, hanswer⟩ | ⟨b, hreplay, -, hanswer⟩
    · exact .inl hanswer
    · -- the journal holds checked statements, and the committed database they are replayed on is
      -- sound
      have hschema := (Transaction.replay_error hsound.committed (hsound.journal tx opened hfind)
        hreplay).failure
      exact .inr ⟨_, hanswer, hschema, hschema.isClientError⟩

/-- Two transactions create the same account, and the first is committed. -/
def rivalAccounts : List (Timestamp × Step) :=
  let parent := "parent-000000000001"
  [(.ofSeconds 1, .begin .records "a"),
    (.ofSeconds 2, .begin .records "b"),
    (.ofSeconds 3, .operate "a" (.create .parentAuths ⟨parent, ("lee1", "hash", ()), none, none⟩)),
    (.ofSeconds 4, .operate "b" (.create .parentAuths ⟨parent, ("lee2", "hash", ()), none, none⟩)),
    (.ofSeconds 5, .commit "a")]

/-- The account is in the copy of the other transaction already, and its commit comes too late. -/
theorem clientError_run_rivalAccounts :
    (∃ f, ((new.run rivalAccounts).step (.ofSeconds 6) (.operate "b" (.create .parentAuths
        ⟨"parent-000000000001", ("lee3", "hash", ()), none, none⟩))).2 = .error (.failure f) ∧
      f ≠ .notFound ∧ f.isClientError = true) ∧
    ∃ f, ((new.run rivalAccounts).step (.ofSeconds 6) (.commit "b")).2 = .error (.failure f) ∧
      f.OfSchema ∧ f.isClientError = true := by
  have hwrites : RecordWrites rivalAccounts := by
    intro p hp name operation hstep
    simp only [rivalAccounts, List.mem_cons, List.not_mem_nil, or_false] at hp
    rcases hp with rfl | rfl | rfl | rfl | rfl <;> cases hstep
  have hopen : ((new.run rivalAccounts).find? "b").map OpenTransaction.access =
      some .records := by rfl
  obtain ⟨opened, hfind, haccess⟩ := Option.map_eq_some_iff.1 hopen
  obtain ⟨hoperate, hcommit⟩ := clientError_run hwrites hfind (.ofSeconds 6)
  constructor
  · rcases hoperate haccess (.create .parentAuths
      ⟨"parent-000000000001", ("lee3", "hash", ()), none, none⟩) with ⟨answer, h⟩ | hfailure
    · cases h
    · obtain ⟨f, hanswer, -, hclient, hlooks⟩ := hfailure
      exact ⟨f, hanswer, fun h => hlooks h, hclient⟩
  · rcases hcommit with h | hfailure
    · cases h
    · exact hfailure

end Session

end Rollbook
