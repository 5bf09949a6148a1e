import Rollbook.Proofs.ClientError
import Rollbook.Proofs.Isolation

/-!
# Rollbook — failures leave no trace

A failing step does not end its transaction, so whatever it had done by then would stay there. But
an operation writes at most once, the engine fails a statement as a whole, and what an operation
does after its statement cannot fail. The last matters for a creation only, which reads back what it
has stored (`Registrar.get_of_inserted`).

* `Operation.objection?` — what is wrong with an operation, told from its arguments alone.
* `FailsClean`           — a step fails for what it finds, if it fails, and leaves no trace.
* `Operation.run_of_objection?`, `Operation.run_failsClean` — an operation with an objection is this
  failure and nothing else, and one without fails clean.
* `agree_of_error`       — a session goes on after a failing step as if it had not been made.
* `untouched`            — all of it.
-/

namespace Rollbook

-- ---------------------------------------------------------------------------
-- Objections
-- ---------------------------------------------------------------------------

/-- The failure blames what an operation was given, whatever the rows are. -/
def Failure.OfArguments : Failure → Prop
  | validation _ => True
  | identityImmutable _ => True
  | _ => False

/-- The failure that a check gives rise to. -/
def Failure.ofCheck? : Except Violation Unit → Option Failure
  | .ok () => none
  | .error v => some (validation v)

/-- What is wrong with what an operation is given. -/
def Operation.objection? : Operation → Option Failure
  | create _ record => Failure.ofCheck? record.check
  | login role id => Failure.ofCheck? ((Attribute.text (.loginId role)).check id)
  | get t uuid => Failure.ofCheck? (t.identity.check uuid)
  | find _ wanted => Failure.ofCheck? wanted.check
  | modify t uuid revision =>
    if revision.uuid.isSome then some (.identityImmutable t.role)
    else Failure.ofCheck? (t.identity.check uuid) <|> Failure.ofCheck? revision.check
  | delete role uuid => Failure.ofCheck? (role.accounts.identity.check uuid)

theorem Failure.ofCheck?_eq_none_iff {check : Except Violation Unit} :
    ofCheck? check = none ↔ check = .ok () := by
  cases check <;> simp [ofCheck?]

/-- No report of the engine blames the arguments. -/
theorem Failure.not_ofArguments_ofEngineError (e : EngineError) : ¬(ofEngineError e).OfArguments := by
  rw [ofEngineError]
  split
  · exact id
  · split <;> exact id

-- ---------------------------------------------------------------------------
-- Steps that fail without a trace
-- ---------------------------------------------------------------------------

namespace Transact

variable {α β : Type} {x : Transact α} {f : α → Transact β} {tx : Transaction}

/-- If the step fails on the transaction, it fails for what it finds there and leaves the
transaction as it was. -/
def FailsClean (x : Transact α) (tx : Transaction) : Prop :=
  ∀ e, (x tx).1 = .error e → (x tx).2 = tx ∧ ¬e.OfArguments

theorem failsClean_pure (a : α) : FailsClean (pure a) tx := fun e h => by cases h

/-- Failing is clean when the failure is not about the arguments, which are checked elsewhere. -/
theorem failsClean_throw {e : Failure} (h : ¬e.OfArguments) :
    FailsClean (throw e : Transact α) tx := by
  intro e' he'
  cases he'
  exact ⟨rfl, h⟩

/-- What comes first must not write, unless it is followed by what cannot fail. -/
theorem FailsClean.bind (hx : FailsClean x tx)
    (hf : ∀ a after, x tx = (.ok a, after) →
      after = tx ∧ FailsClean (f a) tx ∨ ∃ b, (f a after).1 = .ok b) :
    FailsClean (x >>= f) tx := by
  intro e h
  rcases hstep : x tx with ⟨e' | a, after⟩
  · rw [bind_error hstep] at h ⊢
    cases h
    simpa [hstep] using hx e (by rw [hstep])
  · rw [bind_ok hstep] at h ⊢
    rcases hf a after hstep with ⟨rfl, hrest⟩ | ⟨b, hb⟩
    · -- the first step has only read, so the second fails on the transaction as it was
      exact hrest e h
    · -- the first step may have written, but then there is no failure
      rw [hb] at h
      cases h

/-- What is done with the result cannot fail, so it adds no failure. -/
theorem FailsClean.bind_pure (hx : FailsClean x tx) (g : α → β) :
    FailsClean (x >>= fun a => pure (g a)) tx :=
  hx.bind fun a _ _ => .inr ⟨g a, rfl⟩

/-- A step that only reads leaves the rest where it was. -/
theorem FailsClean.bind_of_reads (hx : FailsClean x tx) (hreads : Reads x)
    (hf : ∀ a, FailsClean (f a) tx) : FailsClean (x >>= f) tx := by
  refine hx.bind fun a after hstep => .inl ⟨?_, hf a⟩
  simpa [hstep] using hreads tx

end Transact

open Transact

variable {t : Table} {now : Timestamp} {tx : Transaction}

namespace Transaction

/-- **The engine fails a statement as a whole.** -/
theorem execute_failsClean (statement : Statement) : FailsClean (execute now statement) tx := by
  intro e h
  rcases hexecute : tx.snapshot.execute now statement with b | ⟨db, n⟩
  · rw [execute_error hexecute] at h ⊢
    cases h
    exact ⟨rfl, Failure.not_ofArguments_ofEngineError b.report⟩
  · rw [execute_ok hexecute] at h
    cases h

theorem insert_failsClean (row : Columns) : FailsClean (insert now t row) tx :=
  (execute_failsClean (.insert t row)).bind_pure _

/-- A refused update is clean; one that sets nothing is not even issued. -/
theorem update_failsClean (filter payload : Columns) :
    FailsClean (update now t filter payload) tx := by
  rw [update]
  split
  · exact failsClean_pure 0
  · exact execute_failsClean _

theorem delete_failsClean (filter : Columns) : FailsClean (delete now t filter) tx :=
  execute_failsClean _

/-- A failed select is clean: it never writes, and what fails is the name of a column. -/
theorem select_failsClean (filter : Columns) : FailsClean (select t filter) tx := by
  intro e h
  refine ⟨reads_select t filter tx, ?_⟩
  rw [select] at h
  split at h
  · next b _ =>
    cases h
    exact Failure.not_ofArguments_ofEngineError b.report
  · cases h

end Transaction

namespace Registrar

open Transaction

-- ---------------------------------------------------------------------------
-- Operations
-- ---------------------------------------------------------------------------

theorem decoded_failsClean {α : Type} (result : Except DecodeError α) :
    FailsClean (decoded result) tx := by
  cases result with
  | error e => exact failsClean_throw id
  | ok a => exact failsClean_pure a

theorem first_failsClean (filter : Columns) : FailsClean (first t filter) tx := by
  refine (select_failsClean filter).bind_of_reads (reads_select t filter) fun rows => ?_
  cases rows with
  | nil => exact failsClean_throw id
  | cons row rest => exact decoded_failsClean _

/-- Given its argument is valid, a lookup fails clean. The hypothesis stands in all that follow,
because the violation of a check is a failure about the arguments. -/
theorem findBy_failsClean {a : Attribute} {content : a.Content} (hcheck : a.check content = .ok ()) :
    FailsClean (findBy t a content) tx := by
  rw [findBy, hcheck, ensure_ok_bind]
  exact first_failsClean _

/-- A composite key that is taken is a clean failure. -/
theorem ensureVacant_failsClean (key : CompositeKey) (owner : Option Value) :
    FailsClean (ensureVacant t key owner) tx := by
  refine (select_failsClean key.filter).bind_of_reads (reads_select t _) fun rows => ?_
  split
  · exact failsClean_throw id
  · exact failsClean_pure ()

theorem ensureMovable_failsClean (uuid : String) (current : Record t) (payload : Columns) :
    FailsClean (ensureMovable t uuid current payload) tx := by
  refine (decoded_failsClean _).bind_of_reads (reads_decoded _) fun merged => ?_
  split
  · exact ensureVacant_failsClean _ _
  · exact failsClean_pure ()

/-- Steps that only read and fail clean can be taken one after the other: whichever fails, those
before it left everything. -/
theorem mapM_failsClean {α β : Type} {g : α → Transact β} (hreads : ∀ a, Reads (g a))
    (h : ∀ a, FailsClean (g a) tx) (xs : List α) : FailsClean (xs.mapM g) tx := by
  induction xs with
  | nil => exact failsClean_pure []
  | cons a rest ih =>
    rw [List.mapM_cons]
    exact (h a).bind_of_reads (hreads a) fun b => ih.bind_pure _

/-- A creation with valid arguments fails clean. Once its row is inserted nothing can fail any more,
for the lookup that follows finds that row. -/
theorem create_failsClean {record : Record t} (hcheck : record.check = .ok ()) :
    FailsClean (create now record) tx := by
  have hwrite : FailsClean (do
      Transaction.insert now t record.toColumns
      get t record.uuid) tx := by
    -- behind the write stands a step that succeeds
    refine (insert_failsClean record.toColumns).bind fun _ after hinserted => .inr ?_
    rw [get_of_inserted hcheck hinserted]
    exact ⟨_, rfl⟩
  rw [create, hcheck, ensure_ok_bind]
  cases hkey : record.compositeKey with
  | none => exact hwrite
  | some key =>
    exact (ensureVacant_failsClean key none).bind_of_reads (reads_ensureVacant t key none)
      fun _ => hwrite

theorem uuidsMatching_failsClean {wanted : Revision t} (hcheck : wanted.check = .ok ()) :
    FailsClean (uuidsMatching wanted) tx := by
  rw [uuidsMatching, hcheck, ensure_ok_bind]
  refine (select_failsClean wanted.criteria).bind_of_reads (reads_select t _) fun rows => ?_
  have hdecoded : FailsClean (rows.mapM fun row =>
      decoded (t.identity.ofValue (row.get t.identityKey))) tx :=
    mapM_failsClean (fun _ => reads_decoded _) (fun _ => decoded_failsClean _) rows
  split
  · exact (failsClean_throw id).bind_of_reads (reads_throw _) fun _ => hdecoded
  · exact hdecoded

/-- A revision with valid arguments fails clean: all that may fail behind its checks is the one
update. -/
theorem modify_failsClean {uuid : String} {revision : Revision t} (hid : revision.uuid = none)
    (huuid : t.identity.check uuid = .ok ()) (hcheck : revision.check = .ok ()) :
    FailsClean (modify now uuid revision) tx := by
  have hwrite : FailsClean (do
      let _ ← Transaction.update now t (t.identityFilter uuid) revision.payload) tx :=
    (update_failsClean _ _).bind_pure _
  intro e
  rw [modify_of_valid hid huuid hcheck]
  split
  · exact failsClean_pure () e
  · split
    · split
      · exact failsClean_pure () e
      · next row rest hrows =>
        -- the checks of the composite key come before the one statement
        have hchecked : ∀ current, FailsClean (do
            ensureMovable t uuid current revision.payload
            let _ ← Transaction.update now t (t.identityFilter uuid) revision.payload) tx :=
          fun current => (ensureMovable_failsClean uuid current _).bind_of_reads
            (reads_ensureMovable uuid current _) fun _ => hwrite
        exact (decoded_failsClean _).bind_of_reads (reads_decoded _) hchecked e
    · exact hwrite e

/-- A check with an objection ends what follows it with that objection. -/
theorem ensure_bind_of_ofCheck? {α : Type} {check : Except Violation Unit} {f : Failure}
    (h : Failure.ofCheck? check = some f) (rest : Unit → Transact α) :
    ensure check >>= rest = throw f := by
  cases check with
  | error v =>
    cases h
    rfl
  | ok u => cases h

/-- A revision with an objection fails with it at once, whatever the transaction. The uuid inside
the revision is objected to first, then the other uuid, then the fields. -/
theorem modify_of_objection? {uuid : String} {revision : Revision t} {f : Failure}
    (h : (Operation.modify t uuid revision).objection? = some f) :
    modify now uuid revision = throw f := by
  rw [Operation.objection?] at h
  rw [modify]
  cases hid : revision.uuid with
  | some other =>
    rw [hid, Option.isSome_some, if_pos rfl] at h
    cases h
    rfl
  | none =>
    rw [hid, Option.isSome_none, if_neg Bool.false_ne_true, Option.orElse_eq_orElse,
      Option.orElse_eq_or, Option.or_eq_some_iff] at h
    rw [Option.isSome_none, if_neg Bool.false_ne_true]
    show (ensure (t.identity.check uuid) >>= fun _ => ensure revision.check >>= fun _ => _) = _
    -- the outer uuid is checked before the fields are
    rcases h with huuid | ⟨huuid, hcheck⟩
    · exact ensure_bind_of_ofCheck? huuid _
    · rw [Failure.ofCheck?_eq_none_iff.1 huuid, ensure_ok_bind]
      exact ensure_bind_of_ofCheck? hcheck _

end Registrar

namespace Operation

open Registrar

variable {operation : Operation} {f : Failure}

/-- **An operation whose arguments are objected to is this failure**, and nothing else. -/
theorem run_of_objection? (h : operation.objection? = some f) (now : Timestamp) :
    operation.run now = throw f := by
  -- what turns the result into an answer comes too late
  have hbind : ∀ {α : Type} {x : Transact α} (g : α → Answer), x = throw f →
      (x >>= fun a => pure (g a)) = throw f := by
    rintro α x g rfl
    rfl
  cases operation with
  | create t record => exact hbind _ (ensure_bind_of_ofCheck? h _)
  | login role id => exact hbind _ (ensure_bind_of_ofCheck? h _)
  | get t uuid => exact hbind _ (ensure_bind_of_ofCheck? h _)
  | find person wanted => exact hbind _ (ensure_bind_of_ofCheck? h _)
  | modify t uuid revision => exact hbind _ (modify_of_objection? h)
  | delete role uuid => exact hbind _ (ensure_bind_of_ofCheck? h _)

theorem ofArguments_of_objection? (h : operation.objection? = some f) : f.OfArguments := by
  have hcheck : ∀ {check}, Failure.ofCheck? check = some f → f.OfArguments := by
    rintro (v | u) hf <;> cases hf
    trivial
  cases operation with
  | modify t uuid revision =>
    rw [objection?] at h
    split at h
    · cases h
      trivial
    · rw [Option.orElse_eq_orElse, Option.orElse_eq_or, Option.or_eq_some_iff] at h
      rcases h with huuid | ⟨-, hrevision⟩
      · exact hcheck huuid
      · exact hcheck hrevision
  | _ => exact hcheck h

/-- **An operation whose arguments are not objected to fails without a trace**, if it fails. -/
theorem run_failsClean (h : operation.objection? = none) :
    FailsClean (operation.run now) tx := by
  cases operation with
  | create t record =>
    exact (create_failsClean (Failure.ofCheck?_eq_none_iff.1 h)).bind_pure _
  | login role id => exact (findBy_failsClean (Failure.ofCheck?_eq_none_iff.1 h)).bind_pure _
  | get t uuid => exact (findBy_failsClean (Failure.ofCheck?_eq_none_iff.1 h)).bind_pure _
  | find person wanted =>
    exact (uuidsMatching_failsClean (Failure.ofCheck?_eq_none_iff.1 h)).bind_pure _
  | modify t uuid revision =>
    rw [objection?] at h
    split at h
    · cases h
    · next hid =>
      rw [Option.orElse_eq_orElse, Option.orElse_eq_or, Option.or_eq_none_iff,
        Failure.ofCheck?_eq_none_iff, Failure.ofCheck?_eq_none_iff] at h
      rw [Bool.not_eq_true, Option.isSome_eq_false_iff, Option.isNone_iff_eq_none] at hid
      exact (modify_failsClean hid h.1 h.2).bind_pure _
  | delete role uuid =>
    rw [run, Registrar.delete, Failure.ofCheck?_eq_none_iff.1 h, ensure_ok_bind]
    exact ((Transaction.delete_failsClean _).bind_pure _).bind_pure _

/-- An operation that fails leaves its transaction as it was, and if it fails for its arguments,
then by the objection to them. -/
theorem of_run_error (h : (operation.run now tx).1 = .error f) :
    (operation.run now tx).2 = tx ∧ (f.OfArguments → operation.objection? = some f) := by
  cases hobjection : operation.objection? with
  | some f' =>
    rw [run_of_objection? hobjection] at h ⊢
    cases h
    exact ⟨rfl, fun _ => rfl⟩
  | none =>
    obtain ⟨hsame, hrows⟩ := run_failsClean hobjection f h
    exact ⟨hsame, fun harguments => absurd harguments hrows⟩

end Operation

/-- A raw operation that fails leaves the transaction. It checks no arguments, so this needs no
hypothesis. -/
theorem RawOperation.run_failsClean (operation : RawOperation) :
    FailsClean (operation.run now) tx := by
  cases operation with
  | insert t row => exact (Transaction.insert_failsClean row).bind_pure _
  | select t filter => exact (Transaction.select_failsClean filter).bind_pure _
  | update t filter payload => exact (Transaction.update_failsClean filter payload).bind_pure _
  | delete t filter => exact (Transaction.delete_failsClean filter).bind_pure _

-- ---------------------------------------------------------------------------
-- Sessions
-- ---------------------------------------------------------------------------

namespace Session

variable {s : Session} {name : String} {step : Step} {refusal : Refusal}

theorem agree_refl (s : Session) : Agree (fun _ => True) s s := ⟨rfl, fun _ _ => rfl⟩

/-- A transaction that is put where it was changes nothing. -/
theorem agree_put_self {opened : OpenTransaction} (h : s.find? name = some opened) :
    Agree (fun _ => True) (s.put name opened) s where
  committed := rfl
  find? key _ := by
    rw [find?_put]
    split
    · next hkey => rw [hkey, h]
    · rfl

/-- Work that leaves its transaction when it fails leaves the session when it fails, also where
there is no transaction to work in. -/
theorem agree_inside_of_error {access : Access} {work : Transact Answer}
    (hwork : ∀ tx e, (work tx).1 = .error e → (work tx).2 = tx)
    (h : (s.inside name access work).2 = .error refusal) :
    Agree (fun _ => True) (s.inside name access work).1 s := by
  by_cases hopen : ∃ opened, s.find? name = some opened ∧ opened.access = access
  · obtain ⟨opened, hfind, haccess⟩ := hopen
    rw [inside_of_open work hfind haccess] at h ⊢
    -- an error out of an open transaction is the error of the work
    have hsame : (work opened.transaction).2 = opened.transaction := by
      cases hresult : (work opened.transaction).1 with
      | error e => exact hwork _ e hresult
      | ok answer =>
        rw [hresult] at h
        cases h
    rw [hsame]
    exact agree_put_self hfind
  · -- without the transaction the session refuses the step by itself
    obtain ⟨refusal', hclosed⟩ :=
      inside_of_not_open work fun opened hfind haccess => hopen ⟨opened, hfind, haccess⟩
    rw [hclosed]
    exact agree_refl s

/-- **A session goes on after a failing step as if it had not been made**, unless it is a commit. -/
theorem agree_of_error (hcommit : ∀ name, step ≠ .commit name)
    (h : (s.step now step).2 = .error refusal) :
    Agree (fun _ => True) (s.step now step).1 s := by
  cases step with
  | begin access name => cases h
  | wrap name =>
    rw [Session.step] at h ⊢
    split
    · exact agree_refl s
    · next hfind =>
      rw [hfind] at h
      cases h
  | commit name => exact absurd rfl (hcommit name)
  | rollback name =>
    rw [Session.step] at h ⊢
    split
    · exact agree_refl s
    · next hfind =>
      rw [hfind] at h
      cases h
  | drop name => cases h
  | rows t => cases h
  | rowCount t => cases h
  | operate name operation =>
    exact agree_inside_of_error (fun _ _ he => (Operation.of_run_error he).1) h
  | operateRaw name operation =>
    exact agree_inside_of_error (fun _ e he => (operation.run_failsClean e he).1) h

/-- **Failures leave no trace.** An operation that fails, be it on records or on rows, leaves
its transaction as it was, whatever rows the copy holds. It fails for its arguments just if they
are objected to, and then it does nothing but fail, on every transaction and at every moment.
After a step that fails, other than a commit, a session goes on as if the step had not been
made: every later step is answered alike, and the same transactions and the same committed state
come of them. -/
theorem untouched (now : Timestamp) :
    (∀ (operation : Operation) tx f, (operation.run now tx).1 = .error f →
      (operation.run now tx).2 = tx ∧ (f.OfArguments ↔ operation.objection? = some f)) ∧
    (∀ (operation : Operation) f, operation.objection? = some f → operation.run now = throw f) ∧
    (∀ (operation : RawOperation) tx f, (operation.run now tx).1 = .error f →
      (operation.run now tx).2 = tx) ∧
    ∀ (s : Session) step refusal, (∀ name, step ≠ .commit name) →
      (s.step now step).2 = .error refusal → ∀ rest,
        (s.step now step).1.allAnswers rest = s.allAnswers rest ∧
        ((s.step now step).1.run rest).committed = (s.run rest).committed ∧
        ∀ name, ((s.step now step).1.run rest).find? name = (s.run rest).find? name := by
  refine ⟨fun operation tx f h => ?_, fun operation f h => Operation.run_of_objection? h now,
    fun operation tx f h => (operation.run_failsClean f h).1, fun s step refusal hcommit h rest => ?_⟩
  · obtain ⟨hsame, hobjection⟩ := Operation.of_run_error h
    exact ⟨hsame, hobjection, Operation.ofArguments_of_objection?⟩
  · have hafter : Agree (fun _ => True) (s.step now step).1 s := agree_of_error hcommit h
    have hrun : Agree (fun _ => True) ((s.step now step).1.run rest) (s.run rest) :=
      (allAnswers_congr hafter).2
    exact ⟨(allAnswers_congr hafter).1, hrun.committed, fun name => hrun.find? name trivial⟩

/-- Three accounts, the last of them under a number where the uuid should be. -/
def oddAccounts : Transaction :=
  let account (uuid : Value) (login : String) : Columns := .ofList
    [("parent_uuid", uuid), ("parent_id", .text login), ("parent_pw", .text "hash")]
  let add (row : Columns) (tx : Transaction) : Transaction :=
    (Transaction.insert (.ofSeconds 1) .parentAuths row tx).2
  add (account (.int 3) "lee3")
    (add (account (.text "parent-000000000002") "lee2")
      (add (account (.text "parent-000000000001") "lee1") (.begin .empty)))

/-- The session in which they are open. -/
def oddSession : Session := ⟨.empty, [("a", ⟨.rows, oddAccounts⟩)]⟩

/-- One login for all accounts. -/
def sameLogin : RawOperation := .update .parentAuths ∅ (.ofList [("parent_id", .text "lee4")])

/-- An account under a login that is taken. -/
def takenLogin : Operation :=
  .create .parentAuths ⟨"parent-000000000004", ("lee2", "hash", ()), none, none⟩

/-- A new uuid for an account. -/
def otherUuid : Operation :=
  .modify .parentAuths "parent-000000000001" ⟨some "parent-000000000004", none, none, ()⟩

/-- The login fits the first account and clashes at the second, and nothing is left of it;
neither is of the creation under a taken login, and the new uuid is refused without a look at
the accounts. -/
theorem untouched_oddAccounts :
    (takenLogin.run (.ofSeconds 2) oddAccounts).2 = oddAccounts ∧
      otherUuid.run (.ofSeconds 2) = throw (.identityImmutable .parent) ∧
      (sameLogin.run (.ofSeconds 2) oddAccounts).2 = oddAccounts ∧
      ((oddSession.step (.ofSeconds 2) (.operateRaw "a" sameLogin)).1.run
          [(.ofSeconds 3, .commit "a")]).committed =
        (oddSession.run [(.ofSeconds 3, .commit "a")]).committed := by
  have htaken : (takenLogin.run (.ofSeconds 2) oddAccounts).1 =
      .error (.duplicateEntry ⟨"parent_id", "lee2"⟩) := by rfl
  have hother : otherUuid.objection? = some (.identityImmutable .parent) := by rfl
  have hsame : (sameLogin.run (.ofSeconds 2) oddAccounts).1 =
      .error (.duplicateEntry ⟨"parent_id", "lee4"⟩) := by rfl
  have hstep : (oddSession.step (.ofSeconds 2) (.operateRaw "a" sameLogin)).2 =
      .error (.failure (.duplicateEntry ⟨"parent_id", "lee4"⟩)) := by rfl
  obtain ⟨hrecords, hobjection, hrows, hsessions⟩ := untouched (.ofSeconds 2)
  obtain ⟨hunchanged, -⟩ := hrecords takenLogin oddAccounts _ htaken
  obtain ⟨-, hcommitted, -⟩ := hsessions oddSession _ _ (fun name h => by cases h) hstep
    [(.ofSeconds 3, .commit "a")]
  exact ⟨hunchanged, hobjection otherUuid _ hother, hrows sameLogin oddAccounts _ hsame, hcommitted⟩

end Session

end Rollbook
