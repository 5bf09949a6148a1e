import Rollbook.Proofs.Course

/-!
# Rollbook — the serial history behind the committed state

The ledger is what one can note down beside a session without a look at the journals: which
statements succeeded on the copy of which transaction, and which commits were answered with success,
in their order. It determines the committed state. Running the lists of the successful commits one
after the other, from the empty tables and with the moments first taken, gives exactly that state
(`committed_eq_history`).
-/

namespace Rollbook

/-- Notes taken beside a session: what succeeded in the transaction that is open under a name, and
what the successful commits published, in their order. -/
structure Ledger where
  pending   : String → List JournalEntry
  published : List (List JournalEntry)

namespace Session

/-- The statement that a step issues in the transaction of a name, if it succeeds there. -/
def success? (s : Session) (tx : String) (now : Timestamp) (step : Step) : Option JournalEntry :=
  (s.find? tx).bind fun opened =>
    (s.issued? tx step).bind fun statement =>
      match opened.transaction.snapshot.execute now statement with
      | .ok _ => some ⟨now, statement⟩
      | .error _ => none

/-- The ledger after one more step. -/
def note (s : Session) (ledger : Ledger) (now : Timestamp) (step : Step) : Ledger where
  pending tx :=
    match step with
    | .begin _ name =>
      if name = tx then [] else ledger.pending tx
    | _ => ledger.pending tx ++ (s.success? tx now step).toList
  published :=
    match step, (s.step now step).2 with
    | .commit tx, .ok _ => ledger.published ++ [ledger.pending tx]
    | _, _ => ledger.published

/-- The ledger after a list of steps. -/
def watch (s : Session) (ledger : Ledger) : List (Timestamp × Step) → Ledger
  | [] => ledger
  | p :: rest => (s.step p.1 p.2).1.watch (s.note ledger p.1 p.2) rest

/-- The ledger of a run of a new session. -/
def ledger (steps : List (Timestamp × Step)) : Ledger := new.watch ⟨fun _ => [], []⟩ steps

variable {s : Session} {now : Timestamp} {tx : String} {step : Step} {opened : OpenTransaction}
  {steps : List (Timestamp × Step)} {e : JournalEntry}

/-- A ledger that is kept over two runs is kept over the one and then over the other. -/
theorem watch_append (s : Session) (ledger : Ledger) (xs ys : List (Timestamp × Step)) :
    s.watch ledger (xs ++ ys) = (s.run xs).watch (s.watch ledger xs) ys := by
  induction xs generalizing s ledger with
  | nil => rfl
  | cons p rest ih => exact ih _ _

/-- One more step adds one note to the ledger. This is the form in which the induction on runs meets
it. -/
theorem ledger_concat (steps : List (Timestamp × Step)) (p : Timestamp × Step) :
    ledger (steps ++ [p]) = (new.run steps).note (ledger steps) p.1 p.2 :=
  watch_append new _ steps [p]

-- ---------------------------------------------------------------------------
-- Pending statements are the journal
-- ---------------------------------------------------------------------------

/-- An attempt notes in the journal what an onlooker sees succeed. -/
theorem journal_attempt (h : s.find? tx = some opened) :
    (opened.transaction.attempt now (s.issued? tx step)).journal =
      opened.transaction.journal ++ (s.success? tx now step).toList := by
  rw [success?, h, Option.bind_some]
  cases hissued : s.issued? tx step with
  | none => simp [Transaction.attempt]
  | some statement =>
    rw [Option.bind_some]
    cases hexecute : opened.transaction.snapshot.execute now statement with
    | error b => simp [Transaction.attempt, Transaction.execute_error hexecute]
    | ok r => simp [Transaction.attempt, Transaction.execute_ok hexecute]

/-- A step that neither begins nor ends a transaction adds at most its own success to what is
pending in it. -/
theorem pending_note_of_not_bounds {ledger : Ledger} (hstep : step.bounds tx = false) :
    (s.note ledger now step).pending tx =
      ledger.pending tx ++ (s.success? tx now step).toList := by
  cases step with
  | begin access name =>
    have hname : name ≠ tx := by simpa [Step.bounds] using hstep
    have hnone : s.success? tx now (.begin access name) = none := by
      simp [success?, issued?]
    simp [note, hname, hnone]
  | _ => rfl

/-- The journal of an open transaction is what the ledger holds pending for it. -/
theorem journal_eq_pending (h : (new.run steps).find? tx = some opened) :
    opened.transaction.journal = (ledger steps).pending tx := by
  induction steps using List.reverseRecOn generalizing opened with
  | nil => cases h
  | append_singleton steps p ih =>
    rw [run_concat] at h
    rw [ledger_concat]
    rcases find?_step_cases h with ⟨access, hbegin, rfl⟩ | ⟨earlier, hearlier, hbounds, htx⟩
    · -- the transaction has just begun, and its journal is empty
      rw [hbegin]
      simp [note, Transaction.begin]
    · rw [htx, journal_attempt hearlier, pending_note_of_not_bounds hbounds, ih hearlier]

-- ---------------------------------------------------------------------------
-- Nothing is noted that did not succeed
-- ---------------------------------------------------------------------------

/-- A step of the run issued the statement at its moment, in a transaction on whose copy it
succeeded. -/
def Succeeded (steps : List (Timestamp × Step)) (e : JournalEntry) : Prop :=
  ∃ before step after tx opened r,
    steps = before ++ (e.moment, step) :: after ∧
      (new.run before).find? tx = some opened ∧
      (new.run before).issued? tx step = some e.statement ∧
      opened.transaction.snapshot.execute e.moment e.statement = .ok r

theorem Succeeded.concat (h : Succeeded steps e) (p : Timestamp × Step) :
    Succeeded (steps ++ [p]) e := by
  obtain ⟨before, step, after, tx, opened, r, rfl, hrest⟩ := h
  exact ⟨before, step, after ++ [p], tx, opened, r, by simp, hrest⟩

/-- What the ledger notes of a step has succeeded with that step. -/
theorem succeeded_of_success? {p : Timestamp × Step}
    (h : (new.run steps).success? tx p.1 p.2 = some e) : Succeeded (steps ++ [p]) e := by
  obtain ⟨opened, hfind, h⟩ := Option.bind_eq_some_iff.1 h
  obtain ⟨statement, hissued, h⟩ := Option.bind_eq_some_iff.1 h
  split at h
  · next r hexecute =>
    cases h
    exact ⟨steps, p.2, [], tx, opened, r, rfl, hfind, hissued, hexecute⟩
  · cases h

/-- Every entry of the ledger, pending or published, succeeded when it was issued. -/
theorem succeeded_ledger (steps : List (Timestamp × Step)) :
    (∀ tx, ∀ e ∈ (ledger steps).pending tx, Succeeded steps e) ∧
      ∀ journal ∈ (ledger steps).published, ∀ e ∈ journal, Succeeded steps e := by
  induction steps using List.reverseRecOn with
  | nil =>
    constructor
    · intro tx e he
      cases he
    · intro journal hjournal
      cases hjournal
  | append_singleton steps p ih =>
    obtain ⟨ihPending, ihPublished⟩ := ih
    rw [ledger_concat]
    -- what is pending was pending before, or has just succeeded
    have hgrown : ∀ tx, ∀ e ∈ (ledger steps).pending tx ++
        ((new.run steps).success? tx p.1 p.2).toList, Succeeded (steps ++ [p]) e := by
      intro tx e he
      rcases List.mem_append.1 he with he | he
      · exact (ihPending tx e he).concat p
      · exact succeeded_of_success? (Option.mem_toList.1 he)
    constructor
    · intro tx e he
      simp only [note] at he
      split at he
      · split at he
        · cases he
        · exact (ihPending tx e he).concat p
      · exact hgrown tx e he
    · -- a journal is published as it was pending
      intro journal hjournal e he
      simp only [note] at hjournal
      split at hjournal
      · rcases List.mem_append.1 hjournal with hjournal | hjournal
        · exact (ihPublished journal hjournal e he).concat p
        · rw [List.mem_singleton.1 hjournal] at he
          exact (ihPending _ e he).concat p
      · exact (ihPublished journal hjournal e he).concat p

-- ---------------------------------------------------------------------------
-- The history
-- ---------------------------------------------------------------------------

/-- A step that is no successful commit publishes nothing. -/
theorem published_note_of_no_commit {ledger : Ledger}
    (h : ∀ name answer, step = .commit name → (s.step now step).2 ≠ .ok answer) :
    (s.note ledger now step).published = ledger.published := by
  -- the assumption rules out the one case in which the match appends
  simp only [note]

/-- One more journal of a history runs where the others have led. -/
theorem foldlM_replay_concat {journals : List (List JournalEntry)} {db next : Database}
    {journal : List JournalEntry}
    (h : journals.foldlM Transaction.replay Database.empty = .ok db)
    (hreplay : Transaction.replay db journal = .ok next) :
    (journals ++ [journal]).foldlM Transaction.replay Database.empty = .ok next := by
  rw [List.foldlM_append, h]
  simp only [List.foldlM_cons, List.foldlM_nil]
  show (Transaction.replay db journal >>= pure) = _
  rw [hreplay]
  rfl

/-- The committed database is the replay of what was published, transaction by transaction. The
induction is on the run from its end: only a successful commit publishes, and only that changes the
database. -/
theorem committed_eq_replay (steps : List (Timestamp × Step)) :
    (ledger steps).published.foldlM Transaction.replay Database.empty =
      .ok (new.run steps).committed := by
  induction steps using List.reverseRecOn with
  | nil => rfl
  | append_singleton steps p ih =>
    rw [ledger_concat, run_concat]
    by_cases hcommit : ∃ name answer,
        p.2 = .commit name ∧ ((new.run steps).step p.1 p.2).2 = .ok answer
    · -- a commit publishes the journal that it replays
      obtain ⟨name, answer, hname, hanswer⟩ := hcommit
      rw [hname] at hanswer ⊢
      have hnote : ((new.run steps).note (ledger steps) p.1 (.commit name)).published =
          (ledger steps).published ++ [(ledger steps).pending name] := by
        simp only [note, hanswer]
      rw [hnote]
      cases hfind : (new.run steps).find? name with
      | none => simp [Session.step, commit, hfind] at hanswer
      | some opened =>
        rcases commit_cases p.1 hfind with ⟨db, hreplay, hdb, -⟩ | ⟨b, -, -, herror⟩
        · rw [hdb]
          exact foldlM_replay_concat ih (journal_eq_pending hfind ▸ hreplay)
        · rw [herror] at hanswer
          cases hanswer
    · -- any other step leaves the history and the database
      have hno : ∀ name answer, p.2 = .commit name →
          ((new.run steps).step p.1 p.2).2 ≠ .ok answer :=
        fun name answer hname hanswer => hcommit ⟨name, answer, hname, hanswer⟩
      rw [published_note_of_no_commit hno, committed_step_of_no_commit hno]
      exact ih

/-- **The committed state is a serial history.** After any run it is what the lists of the
successful commits make of the empty tables, one after the other. What a commit runs is what
succeeded in its transaction, nothing published ever failed, and a step that is no successful commit
leaves the committed state alone. -/
theorem committed_eq_history (steps : List (Timestamp × Step)) :
    (ledger steps).published.foldlM Transaction.replay Database.empty =
        .ok (new.run steps).committed ∧
      (∀ tx opened, (new.run steps).find? tx = some opened →
        opened.transaction.journal = (ledger steps).pending tx) ∧
      (∀ journal ∈ (ledger steps).published, ∀ e ∈ journal, Succeeded steps e) ∧
      ∀ now step, (∀ name answer, step = .commit name →
          ((new.run steps).step now step).2 ≠ .ok answer) →
        ((new.run steps).step now step).1.committed = (new.run steps).committed :=
  ⟨committed_eq_replay steps, fun _ _ h => journal_eq_pending h, (succeeded_ledger steps).2,
    fun _ _ h => committed_step_of_no_commit h⟩

/-- Two transactions insert the same parent, and the second of them commits too late; a third is
refused the parent at once and stays open. -/
def rivals : List (Timestamp × Step) :=
  let insert : RawOperation := .insert .parentAuths (.ofList
    [("parent_uuid", .text "p"), ("parent_id", .text "id"), ("parent_pw", .text "pw")])
  [(.ofSeconds 1, .begin .rows "a"), (.ofSeconds 2, .begin .rows "b"),
    (.ofSeconds 3, .operateRaw "a" insert), (.ofSeconds 4, .operateRaw "b" insert),
    (.ofSeconds 5, .commit "a"),
    (.ofSeconds 6, .begin .rows "c"), (.ofSeconds 7, .operateRaw "c" insert)]

/-- Two rivals for one login identifier: the second commit fails, and the history is that of the
first. -/
theorem committed_eq_history_rivals :
    ∃ journal e, (ledger rivals).published = [journal] ∧ e ∈ journal ∧ Succeeded rivals e ∧
      (∃ opened, (new.run rivals).find? "c" = some opened ∧ opened.transaction.journal = [] ∧
        opened.transaction.journal = (ledger rivals).pending "c") ∧
      ((new.run rivals).step (.ofSeconds 8) (.commit "b")).1.committed =
        (new.run rivals).committed := by
  obtain ⟨-, hpending, hpublished, hcommitted⟩ := committed_eq_history rivals
  have hopen : ((new.run rivals).find? "c").map (fun opened => opened.transaction.journal) =
      some [] := by rfl
  obtain ⟨opened, hfind, hjournal⟩ := Option.map_eq_some_iff.1 hopen
  obtain ⟨e, hnotes⟩ : ∃ e, (ledger rivals).published = [[e]] := ⟨_, rfl⟩
  refine ⟨[e], e, hnotes, List.mem_singleton_self e,
    hpublished [e] (by rw [hnotes]; simp) e (List.mem_singleton_self e),
    ⟨opened, hfind, hjournal, hpending "c" opened hfind⟩, hcommitted _ _ ?_⟩
  -- the second commit comes too late, so it publishes nothing
  rintro name answer ⟨rfl⟩ hanswer
  have hrefused : (((new.run rivals).step (.ofSeconds 8) (.commit "b")).2.isOk) = false := by rfl
  rw [hanswer] at hrefused
  cases hrefused

end Session

end Rollbook
