import Rollbook.Proofs.Course

/-!
# Rollbook — isolation

What a transaction answers depends on the committed state that it began on and on its own steps, and
what it does is seen nowhere before it is committed. Both are statements about two runs: one of all
the steps, and one from which steps have been left out.

* `step_congr`             — a step is answered by the committed state and the transaction of its
  own name, and changes nothing else.
* `answers_own`            — the steps of the other transactions may be left out.
* `answers_of_uncommitted` — the steps of a transaction that is not committed may be left out.
* `isolated_run`           — both, for a whole session.
-/

namespace Rollbook

/-- Whether a step is one of the transaction of a name. -/
def Step.concerns (tx : String) : Step → Bool
  | .begin _ name => name = tx
  | .wrap name => name = tx
  | .commit name => name = tx
  | .rollback name => name = tx
  | .drop name => name = tx
  | .rows _ => false
  | .rowCount _ => false
  | .operate name _ => name = tx
  | .operateRaw name _ => name = tx

/-- A step that does not concern a transaction does not begin or end it. -/
theorem Step.bounds_of_not_concerns {tx : String} {step : Step} (h : step.concerns tx = false) :
    step.bounds tx = false := by
  cases step with
  | begin access name => exact h
  | commit name => exact h
  | rollback name => exact h
  | drop name => exact h
  | wrap name => rfl
  | rows t => rfl
  | rowCount t => rfl
  | operate name operation => rfl
  | operateRaw name operation => rfl

/-- A step that does not concern a transaction leaves the way in which it is used. -/
theorem Step.access_of_not_concerns {tx : String} {step : Step} (h : step.concerns tx = false)
    (access : Access) : step.access tx access = access := by
  cases step with
  | wrap name => exact if_neg (by simpa [concerns] using h)
  | _ => rfl

/-- A step is one of a single transaction. -/
theorem Step.not_concerns_of_ne {tx name : String} {step : Step} (h : step.concerns tx = true)
    (hname : name ≠ tx) : step.concerns name = false := by
  have hother : ∀ key, key = tx → decide (key = name) = false := by
    rintro key rfl
    exact decide_eq_false (Ne.symm hname)
  cases step with
  | rows t => rfl
  | rowCount t => rfl
  | _ => exact hother _ (of_decide_eq_true h)

/-- The steps within a transaction. -/
theorem Step.within_cases {tx : String} {step : Step} (hconcerns : step.concerns tx = true)
    (hbounds : step.bounds tx = false) :
    step = .wrap tx ∨ (∃ operation, step = .operate tx operation) ∨
      ∃ operation, step = .operateRaw tx operation := by
  cases step with
  | wrap name => exact .inl (by simpa [concerns] using hconcerns)
  | operate name operation => exact .inr (.inl ⟨operation, by simpa [concerns] using hconcerns⟩)
  | operateRaw name operation => exact .inr (.inr ⟨operation, by simpa [concerns] using hconcerns⟩)
  | rows t => cases hconcerns
  | rowCount t => cases hconcerns
  | begin access name => cases hconcerns.symm.trans hbounds
  | commit name => cases hconcerns.symm.trans hbounds
  | rollback name => cases hconcerns.symm.trans hbounds
  | drop name => cases hconcerns.symm.trans hbounds

namespace Session

variable {s s' : Session} {now : Timestamp} {tx : String} {step : Step}

/-- The answers that a run gives to the selected ones of its steps, in order. -/
def answers (selected : Step → Bool) (s : Session) :
    List (Timestamp × Step) → List (Except Refusal Answer)
  | [] => []
  | p :: rest =>
    if selected p.2 then (s.step p.1 p.2).2 :: answers selected (s.step p.1 p.2).1 rest
    else answers selected (s.step p.1 p.2).1 rest

/-- The answers that a run gives to all of its steps. -/
abbrev allAnswers (s : Session) (steps : List (Timestamp × Step)) : List (Except Refusal Answer) :=
  s.answers (fun _ => true) steps

/-- No commit of the transaction of a name succeeds in a run. -/
def Uncommitted (tx : String) (s : Session) : List (Timestamp × Step) → Prop
  | [] => True
  | p :: rest =>
    (p.2 = .commit tx → ∀ answer, (s.step p.1 p.2).2 ≠ .ok answer) ∧
      Uncommitted tx (s.step p.1 p.2).1 rest

theorem answers_cons_of_selected {selected : Step → Bool} {p : Timestamp × Step}
    {rest : List (Timestamp × Step)} (h : selected p.2 = true) :
    s.answers selected (p :: rest) =
      (s.step p.1 p.2).2 :: (s.step p.1 p.2).1.answers selected rest := if_pos h

theorem answers_cons_of_not_selected {selected : Step → Bool} {p : Timestamp × Step}
    {rest : List (Timestamp × Step)} (h : selected p.2 = false) :
    s.answers selected (p :: rest) = (s.step p.1 p.2).1.answers selected rest :=
  if_neg (Bool.eq_false_iff.1 h)

theorem allAnswers_cons (s : Session) (p : Timestamp × Step) (rest : List (Timestamp × Step)) :
    s.allAnswers (p :: rest) = (s.step p.1 p.2).2 :: (s.step p.1 p.2).1.allAnswers rest := rfl

-- ---------------------------------------------------------------------------
-- What one step reads and writes
-- ---------------------------------------------------------------------------

/-- A step that does not concern a transaction issues nothing in it. -/
theorem issued?_of_not_concerns (s : Session) (h : step.concerns tx = false) :
    s.issued? tx step = none := by
  rw [issued?, Option.bind_eq_none_iff]
  intro opened _
  cases step with
  | operate name operation =>
    have hname : name ≠ tx := by simpa [Step.concerns] using h
    exact if_neg fun hopen => hname hopen.1
  | operateRaw name operation =>
    have hname : name ≠ tx := by simpa [Step.concerns] using h
    exact if_neg fun hopen => hname hopen.1
  | _ => rfl

/-- A step of another transaction leaves a transaction as it is. -/
theorem find?_step_of_not_concerns (now : Timestamp) (h : step.concerns tx = false) :
    (s.step now step).1.find? tx = s.find? tx := by
  rw [find?_step_of_not_bounds now (Step.bounds_of_not_concerns h), issued?_of_not_concerns s h]
  simp only [Step.access_of_not_concerns h, Transaction.attempt]
  exact Option.map_id'

/-- What a step issues in a transaction depends on that transaction alone. The committed database is
not looked at. -/
theorem issued?_congr (hfind : s.find? tx = s'.find? tx) (step : Step) :
    s.issued? tx step = s'.issued? tx step := by
  rw [issued?, issued?, hfind]

/-- A step within a transaction moves it by what it holds, whatever the rest of the session is. -/
theorem find?_step_congr (now : Timestamp) (hfind : s.find? tx = s'.find? tx)
    (hbounds : step.bounds tx = false) :
    (s.step now step).1.find? tx = (s'.step now step).1.find? tx := by
  rw [find?_step_of_not_bounds now hbounds, find?_step_of_not_bounds now hbounds, hfind,
    issued?_congr hfind]

/-- The answer of work inside a transaction depends on that transaction alone. -/
theorem inside_congr (hfind : s.find? tx = s'.find? tx) (access : Access)
    (work : Transact Answer) : (s.inside tx access work).2 = (s'.inside tx access work).2 := by
  rw [inside, inside, hfind]
  split
  · rfl
  · split <;> rfl

/-- A step within a transaction is answered by what the transaction holds. -/
theorem answer_congr (now : Timestamp) (hfind : s.find? tx = s'.find? tx)
    (hconcerns : step.concerns tx = true) (hbounds : step.bounds tx = false) :
    (s.step now step).2 = (s'.step now step).2 := by
  rcases Step.within_cases hconcerns hbounds with rfl | ⟨operation, rfl⟩ | ⟨operation, rfl⟩
  · rw [Session.step, Session.step, hfind]
    split <;> rfl
  · exact inside_congr hfind .records (operation.run now)
  · exact inside_congr hfind .rows (operation.run now)

-- ---------------------------------------------------------------------------
-- Sessions that agree on some names
-- ---------------------------------------------------------------------------

/-- Two sessions agree on some names: they have the same committed state, and the same transaction
under each of the names. -/
structure Agree (names : String → Prop) (s s' : Session) : Prop where
  committed : s.committed = s'.committed
  find?     : ∀ name, names name → s.find? name = s'.find? name

variable {names : String → Prop}

/-- Sessions that agree still do when both get the same transaction. -/
theorem Agree.put (h : Agree names s s') (tx : String) (opened : OpenTransaction) :
    Agree names (s.put tx opened) (s'.put tx opened) where
  committed := h.committed
  find? name hname := by rw [find?_put, find?_put, h.find? name hname]

theorem Agree.close (h : Agree names s s') (tx : String) :
    Agree names (s.close tx) (s'.close tx) where
  committed := h.committed
  find? name hname := by rw [find?_close, find?_close, h.find? name hname]

/-- Work inside a transaction that they agree on is answered alike, and they agree afterwards. -/
theorem Agree.inside (h : Agree names s s') (hname : names tx) (access : Access)
    (work : Transact Answer) :
    (s.inside tx access work).2 = (s'.inside tx access work).2 ∧
      Agree names (s.inside tx access work).1 (s'.inside tx access work).1 := by
  refine ⟨inside_congr (h.find? tx hname) access work, ?_⟩
  rw [Session.inside, Session.inside, h.find? tx hname]
  split
  · exact h
  · split
    · exact h
    · exact h.put tx _

/-- A commit is answered alike and leaves sessions that agree: the journals are the same, and so is
the database they are replayed on. -/
theorem Agree.commit (h : Agree names s s') (hname : names tx) :
    (s.commit tx).2 = (s'.commit tx).2 ∧ Agree names (s.commit tx).1 (s'.commit tx).1 := by
  rw [Session.commit, Session.commit, h.find? tx hname, h.committed]
  split
  · exact ⟨rfl, h⟩
  · split
    · exact ⟨rfl, rfl, (h.close tx).find?⟩
    · exact ⟨rfl, h.close tx⟩

/-- Where two sessions agree on the name of a step, the step is answered alike, and the sessions
still agree. -/
theorem Agree.step_congr (h : Agree names s s') (now : Timestamp) (step : Step)
    (hnames : ∀ name, step.concerns name = true → names name) :
    (s.step now step).2 = (s'.step now step).2 ∧
      Agree names (s.step now step).1 (s'.step now step).1 := by
  cases step with
  | begin access tx =>
    rw [Session.step, Session.step, h.committed]
    exact ⟨rfl, h.put tx _⟩
  | wrap tx =>
    rw [Session.step, Session.step, h.find? tx (hnames tx (by simp [Step.concerns]))]
    split
    · exact ⟨rfl, h⟩
    · exact ⟨rfl, h.put tx _⟩
  | commit tx => exact h.commit (hnames tx (by simp [Step.concerns]))
  | rollback tx =>
    rw [Session.step, Session.step, h.find? tx (hnames tx (by simp [Step.concerns]))]
    split
    · exact ⟨rfl, h⟩
    · exact ⟨rfl, h.close tx⟩
  | drop tx => exact ⟨rfl, h.close tx⟩
  -- counting and listing look at the committed state, on which the sessions agree
  | rows t => exact ⟨by rw [Session.step, Session.step, h.committed], h⟩
  | rowCount t => exact ⟨by rw [Session.step, Session.step, h.committed], h⟩
  | operate tx operation =>
    exact h.inside (hnames tx (by simp [Step.concerns])) .records (operation.run now)
  | operateRaw tx operation =>
    exact h.inside (hnames tx (by simp [Step.concerns])) .rows (operation.run now)

/-- A step of a transaction is seen by no other unless it is a commit that succeeds. -/
theorem Agree.step_of_own (h : Agree (· ≠ tx) s s') (now : Timestamp)
    (hconcerns : step.concerns tx = true)
    (hcommit : step = .commit tx → ∀ answer, (s.step now step).2 ≠ .ok answer) :
    Agree (· ≠ tx) (s.step now step).1 s' where
  committed := by
    rw [committed_step_of_no_commit ?_, h.committed]
    rintro name answer rfl
    have hname : name = tx := by simpa [Step.concerns] using hconcerns
    exact hcommit (congrArg Step.commit hname) answer
  find? name hname := by
    rw [find?_step_of_not_concerns now (step.not_concerns_of_ne hconcerns hname)]
    exact h.find? name hname

-- ---------------------------------------------------------------------------
-- Whole runs
-- ---------------------------------------------------------------------------

/-- **The steps of the others may be left out**: from sessions that hold the same transaction under
a name, its own steps are answered alike and lead to the same transaction, whatever the committed
state of either session is and becomes. -/
theorem answers_own {during : List (Timestamp × Step)} (hfind : s.find? tx = s'.find? tx)
    (hbounds : ∀ p ∈ during, p.2.bounds tx = false) :
    s.answers (Step.concerns tx) during =
        s'.allAnswers (during.filter fun p => p.2.concerns tx) ∧
      (s.run during).find? tx = (s'.run (during.filter fun p => p.2.concerns tx)).find? tx := by
  induction during generalizing s s' with
  | nil => exact ⟨rfl, hfind⟩
  | cons p rest ih =>
    have hp : p.2.bounds tx = false := hbounds p List.mem_cons_self
    have hrest : ∀ q ∈ rest, q.2.bounds tx = false :=
      fun q hq => hbounds q (List.mem_cons_of_mem _ hq)
    cases hconcerns : p.2.concerns tx with
    -- an own step is answered from the transaction, which both sessions hold
    | true =>
      obtain ⟨hanswers, hrun⟩ := ih (find?_step_congr p.1 hfind hp) hrest
      rw [List.filter_cons, if_pos hconcerns, answers_cons_of_selected hconcerns, allAnswers_cons,
        answer_congr p.1 hfind hconcerns hp, hanswers]
      exact ⟨rfl, hrun⟩
    -- a step of another is not taken on the right, and on the left it leaves the transaction
    | false =>
      have hafter : (s.step p.1 p.2).1.find? tx = s'.find? tx :=
        (find?_step_of_not_concerns p.1 hconcerns).trans hfind
      rw [List.filter_cons, if_neg (Bool.eq_false_iff.1 hconcerns),
        answers_cons_of_not_selected hconcerns]
      exact ih hafter hrest

/-- **The steps of a transaction that is not committed may be left out**: the others are answered
alike and lead to the same committed state. -/
theorem answers_of_uncommitted {steps : List (Timestamp × Step)} (h : Agree (· ≠ tx) s s')
    (hcommit : s.Uncommitted tx steps) :
    s.answers (fun step => !step.concerns tx) steps =
        s'.allAnswers (steps.filter fun p => !p.2.concerns tx) ∧
      Agree (· ≠ tx) (s.run steps) (s'.run (steps.filter fun p => !p.2.concerns tx)) := by
  induction steps generalizing s s' with
  | nil => exact ⟨rfl, h⟩
  | cons p rest ih =>
    obtain ⟨hp, hrest⟩ := hcommit
    cases hconcerns : p.2.concerns tx with
    -- a step of the transaction touches nothing that the others see, as it is no commit that
    -- succeeds
    | true =>
      rw [List.filter_cons_of_neg (by simp [hconcerns]),
        answers_cons_of_not_selected (by simp [hconcerns])]
      exact ih (h.step_of_own p.1 hconcerns hp) hrest
    -- a step of another is taken on both sides
    | false =>
      have hnames : ∀ name, p.2.concerns name = true → name ≠ tx := by
        rintro name hname rfl
        exact Bool.false_ne_true (hconcerns.symm.trans hname)
      obtain ⟨hanswer, hafter⟩ := h.step_congr p.1 p.2 hnames
      obtain ⟨hanswers, hrun⟩ := ih hafter hrest
      rw [List.filter_cons_of_pos (by simp [hconcerns]),
        answers_cons_of_selected (by simp [hconcerns]), allAnswers_cons, hanswer, hanswers]
      exact ⟨rfl, hrun⟩

/-- Sessions that agree on every name answer alike from then on. -/
theorem allAnswers_congr {steps : List (Timestamp × Step)} (h : Agree (fun _ => True) s s') :
    s.allAnswers steps = s'.allAnswers steps ∧
      Agree (fun _ => True) (s.run steps) (s'.run steps) := by
  induction steps generalizing s s' with
  | nil => exact ⟨rfl, h⟩
  | cons p rest ih =>
    obtain ⟨hanswer, hafter⟩ := h.step_congr p.1 p.2 fun _ _ => trivial
    obtain ⟨hanswers, hrun⟩ := ih hafter
    rw [allAnswers_cons, allAnswers_cons, hanswer, hanswers]
    exact ⟨rfl, hrun⟩

/-- **Isolation.** First, a transaction that has begun answers its own steps, up to its end, as it
would alone on the committed state that it began on, and it is there the same transaction, copy and
journal included. Second, the steps of a transaction that is never committed change no answer to
another step, no other transaction and no committed state, and nothing that comes after another
transaction has begun under its name. -/
theorem isolated_run (s : Session) (tx : String) :
    (∀ began access during, (∀ p ∈ during, p.2.bounds tx = false) →
      let steps := (began, Step.begin access tx) :: during
      let own := steps.filter fun p => p.2.concerns tx
      let alone : Session := ⟨s.committed, []⟩
      s.answers (Step.concerns tx) steps = alone.allAnswers own ∧
        ∃ opened, (s.run steps).find? tx = some opened ∧
          (alone.run own).find? tx = some opened) ∧
    ∀ steps, s.Uncommitted tx steps →
      let others := steps.filter fun p => !p.2.concerns tx
      s.answers (fun step => !step.concerns tx) steps = s.allAnswers others ∧
        (s.run steps).committed = (s.run others).committed ∧
        (∀ name, name ≠ tx → (s.run steps).find? name = (s.run others).find? name) ∧
        ∀ began access rest, (s.run steps).allAnswers ((began, .begin access tx) :: rest) =
          (s.run others).allAnswers ((began, .begin access tx) :: rest) := by
  constructor
  · intro began access during hbounds steps own alone
    have hown : own = (began, .begin access tx) :: during.filter fun p => p.2.concerns tx := by
      rw [show own = steps.filter _ from rfl, List.filter_cons,
        if_pos (by simp [Step.concerns])]
    -- both sessions have just begun the transaction on the same state
    have hbegun : (s.step began (.begin access tx)).1.find? tx =
        (alone.step began (.begin access tx)).1.find? tx := by
      rw [step, step, find?_put, find?_put, if_pos rfl, if_pos rfl]
    obtain ⟨hanswers, hrun⟩ := answers_own hbegun hbounds
    obtain ⟨opened, hfind, -⟩ := exists_find?_run s began access tx hbounds
    rw [hown, answers_cons_of_selected (by simp [Step.concerns]), allAnswers_cons]
    exact ⟨congrArg (Except.ok Answer.done :: ·) hanswers, opened, hfind, hrun ▸ hfind⟩
  · intro steps hcommit others
    have hself : Agree (· ≠ tx) s s := ⟨rfl, fun _ _ => rfl⟩
    obtain ⟨hanswers, hrun⟩ := answers_of_uncommitted hself hcommit
    refine ⟨hanswers, hrun.committed, hrun.find?, fun began access rest => ?_⟩
    -- once the name is begun again, the sessions agree on it as well
    have hbegun : Agree (fun _ => True) ((s.run steps).step began (.begin access tx)).1
        ((s.run others).step began (.begin access tx)).1 := by
      refine ⟨hrun.committed, fun name _ => ?_⟩
      rw [step, step, find?_put, find?_put, hrun.committed]
      split
      · rfl
      · next hname => exact hrun.find? name hname
    rw [allAnswers_cons, allAnswers_cons, (allAnswers_congr hbegun).1]
    rfl

/-- Two transactions create one account; one of them reads before and after the other commits. -/
def crossingAccounts : List (Timestamp × Step) :=
  let parent := "parent-000000000001"
  [(.ofSeconds 1, .begin .records "a"),
    (.ofSeconds 2, .begin .records "b"),
    (.ofSeconds 3, .operate "b" (.create .parentAuths ⟨parent, ("lee2", "hash", ()), none, none⟩)),
    (.ofSeconds 4, .operate "a" (.get .parentAuths parent)),
    (.ofSeconds 5, .commit "b"),
    (.ofSeconds 6, .operate "a" (.get .parentAuths parent)),
    (.ofSeconds 7, .operate "a" (.create .parentAuths ⟨parent, ("lee1", "hash", ()), none, none⟩))]

/-- The steps of both, and the commit of the reader, which comes too late. -/
def crossedAccounts : List (Timestamp × Step) :=
  crossingAccounts ++ [(.ofSeconds 8, .commit "a")]

/-- The reader answers as in a session without the other, and the other commits the one account as
in a session without the reader. -/
theorem isolated_run_crossingAccounts :
    new.answers (Step.concerns "a") crossingAccounts =
        new.allAnswers (crossingAccounts.filter fun p => p.2.concerns "a") ∧
      (∃ opened, (new.run crossingAccounts).find? "a" = some opened ∧
        opened.transaction.journal.length = 1) ∧
      (new.run crossedAccounts).committed =
        (new.run (crossedAccounts.filter fun p => !p.2.concerns "a")).committed ∧
      ((new.run crossedAccounts).committed.rows .parentAuths).length = 1 := by
  have hbounds : ∀ p ∈ crossingAccounts.tail, p.2.bounds "a" = false := by
    intro p hp
    simp only [crossingAccounts, List.tail_cons, List.mem_cons, List.not_mem_nil, or_false] at hp
    rcases hp with rfl | rfl | rfl | rfl | rfl | rfl <;> rfl
  -- the commit of the reader comes too late, so the reader is never committed
  have hlate : ∀ answer, ((new.run crossingAccounts).step (.ofSeconds 8) (.commit "a")).2 ≠
      .ok answer := fun answer h => by cases h
  have hcommit : new.Uncommitted "a" crossedAccounts :=
    ⟨nofun, nofun, nofun, nofun, by simp, nofun, nofun, fun _ => hlate, trivial⟩
  obtain ⟨hown, hothers⟩ := isolated_run new "a"
  obtain ⟨hanswers, opened, hfind, -⟩ := hown (.ofSeconds 1) .records crossingAccounts.tail hbounds
  obtain ⟨-, hcommitted, -⟩ := hothers crossedAccounts hcommit
  have hjournal : ((new.run crossingAccounts).find? "a").map (·.transaction.journal.length) =
      some 1 := by rfl
  have hopened : (new.run crossingAccounts).find? "a" = some opened := hfind
  rw [hopened, Option.map_some, Option.some.injEq] at hjournal
  exact ⟨hanswers, ⟨opened, hopened, hjournal⟩, hcommitted, by rfl⟩

end Session

end Rollbook
