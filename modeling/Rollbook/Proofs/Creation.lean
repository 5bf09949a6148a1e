import Mathlib.Data.List.Flatten
import Mathlib.Data.List.Perm.Basic
import Rollbook.Proofs.Footprint
import Rollbook.Proofs.Integrity
import Rollbook.Proofs.Isolation

/-!
# Rollbook — the order in which creations are committed

Transactions that only create records may be committed in any order. All that can stand in the way
of an insertion by another transaction is a row with which it shares a key, and sharing a key is
symmetric; the rows that an insertion refers to are there from the start or come before it in its
own journal, and more rows never take them away. So if the journals of such transactions succeed one
after the other in one order, they do in every order, and the rows added are the same.

* `execute_eq_ok_iff_admits` — what an insertion needs, and what it adds.
* `replay_adding_iff`        — a journal of insertions beside the rows of others.
* `replay_flatMap_iff`       — journals in a row: no two of them may share a key.
* `commit_order`             — the commits of transactions that create, in two orders.
-/

namespace Rollbook

-- ---------------------------------------------------------------------------
-- Insertions
-- ---------------------------------------------------------------------------

namespace JournalEntry

/-- The entry is an insertion. -/
def Inserts (e : JournalEntry) : Prop := ∃ t row, e.statement = .insert t row

/-- The row that the entry adds to a table, if it is an insertion there. -/
def row? (t : Table) (e : JournalEntry) : Option Row :=
  e.statement.insertion?.bind fun p =>
    if p.1 = t then some (Database.complete p.1 p.2 e.moment) else none

/-- The row that an entry brings to a table: an insert brings its completed row to its own. -/
theorem row?_insert (t t' : Table) (columns : Columns) (now : Timestamp) :
    row? t' ⟨now, .insert t columns⟩ =
      if t = t' then some (Database.complete t columns now) else none := rfl

/-- No rows that the two entries add to one table share a key. -/
def Apart (e e' : JournalEntry) : Prop :=
  ∀ t row row', e.row? t = some row → e'.row? t = some row' →
    ∀ c ∈ t.columns, t.isKey c = true → row.get c.name ≠ row'.get c.name

theorem Apart.symm {e e' : JournalEntry} (h : e.Apart e') : e'.Apart e :=
  fun t row row' hrow hrow' c hc hkey heq => h t row' row hrow' hrow c hc hkey heq.symm

end JournalEntry

namespace Database

/-- The database with the rows that the entries add, in their order, at the ends of the tables. -/
def adding (db : Database) (journal : List JournalEntry) : Database :=
  ⟨fun t => db.rows t ++ journal.filterMap (JournalEntry.row? t)⟩

/-- What the row of an insertion needs: columns of the table, a value where one must be, rows to
refer to, and keys that no row of the table has. -/
structure Admits (db : Database) (e : JournalEntry) : Prop where
  known  : e.statement.Known
  filled : ∀ t row, e.row? t = some row → nullColumn? t row = none
  refers : ∀ t row, e.row? t = some row → db.RefersWell t row
  fresh  : ∀ t row, e.row? t = some row → ∀ r ∈ db.rows t,
    ∀ c ∈ t.columns, t.isKey c = true → r.get c.name ≠ row.get c.name

variable {db next : Database} {e : JournalEntry} {journal others : List JournalEntry} {n : Nat}

/-- The rows of a table after a journal is added: those of before, and then those it brings. -/
@[simp] theorem rows_adding (db : Database) (journal : List JournalEntry) (t : Table) :
    (db.adding journal).rows t = db.rows t ++ journal.filterMap (JournalEntry.row? t) := rfl

@[simp] theorem adding_nil (db : Database) : db.adding [] = db := by
  ext1
  funext t
  exact List.append_nil _

theorem adding_append (db : Database) (xs ys : List JournalEntry) :
    db.adding (xs ++ ys) = (db.adding xs).adding ys := by
  ext1
  funext t
  rw [rows_adding, rows_adding, rows_adding, List.filterMap_append, List.append_assoc]

/-- A state admits an insert when the engine finds no breach in it. The order of the checks plays no
part here, for only success is in question. -/
theorem admits_insert_iff {t : Table} {columns : Columns} {now : Timestamp} :
    db.Admits ⟨now, .insert t columns⟩ ↔
      (∀ name ∈ columns.names, (t.column? name).isSome = true) ∧
        db.breach? t (db.rows t) none (complete t columns now) = none := by
  rw [breach?_eq_none_iff]
  constructor
  · intro h
    have hrow : JournalEntry.row? t ⟨now, .insert t columns⟩ = some (complete t columns now) :=
      if_pos rfl
    refine ⟨h.known, h.filled t _ hrow, by simp, ?_, noReferent?_eq_none_iff.2 (h.refers t _ hrow)⟩
    exact duplicate?_eq_none_iff.2 fun c hc hkey _ r hr => h.fresh t _ hrow r hr c hc hkey
  · rintro ⟨hknown, hnull, -, hduplicate, hreferent⟩
    have hrow : ∀ t' row, JournalEntry.row? t' ⟨now, .insert t columns⟩ = some row →
        t = t' ∧ row = complete t columns now := by
      intro t' row h
      obtain ⟨ht, hrow⟩ := Option.ite_none_right_eq_some.1 h
      exact ⟨ht, (Option.some.inj hrow).symm⟩
    refine ⟨hknown, ?_, ?_, ?_⟩
    · rintro t' row h
      obtain ⟨rfl, rfl⟩ := hrow t' row h
      exact hnull
    · rintro t' row h
      obtain ⟨rfl, rfl⟩ := hrow t' row h
      exact noReferent?_eq_none_iff.1 hreferent
    · rintro t' row h r hr c hc hkey
      obtain ⟨rfl, rfl⟩ := hrow t' row h
      have hvalue : (complete t columns now).get c.name ≠ .null :=
        nullColumn?_eq_none_iff.1 hnull c hc (Table.not_nullable_of_isKey c hc hkey)
      exact duplicate?_eq_none_iff.1 hduplicate c hc hkey hvalue r hr

/-- Adding one insert is what the engine does with it. -/
theorem adding_insert {t : Table} {columns : Columns} {now : Timestamp} :
    db.adding [⟨now, .insert t columns⟩] = db.set t (db.rows t ++ [complete t columns now]) := by
  ext1
  funext t'
  rw [rows_adding, rows_set, List.filterMap_cons, List.filterMap_nil, JournalEntry.row?_insert]
  by_cases ht : t' = t
  · subst ht
    rw [if_pos rfl, if_pos rfl]
  · rw [if_neg (Ne.symm ht), if_neg ht, List.append_nil]

/-- **An insertion succeeds when the database admits it**, and adds its row. -/
theorem execute_eq_ok_iff_admits (h : e.Inserts) :
    db.execute e.moment e.statement = .ok (next, n) ↔
      db.Admits e ∧ next = db.adding [e] ∧ n = 1 := by
  obtain ⟨now, statement⟩ := e
  obtain ⟨t, columns, rfl⟩ := h
  rw [admits_insert_iff, adding_insert, and_assoc]
  exact insert_eq_ok_iff

/-- References that find a row still find it when rows are only added. -/
theorem RefersWell.mono {db' : Database} {t : Table} {row : Row} (h : db.RefersWell t row)
    (hrows : ∀ t', ∀ r ∈ db.rows t', r ∈ db'.rows t') : db'.RefersWell t row := by
  intro fk hfk hvalue
  obtain ⟨r, hr, heq⟩ := h fk hfk hvalue
  exact ⟨r, hrows _ r hr, heq⟩

/-- What is admitted is admitted beside the rows of others if it shares no key with them. -/
theorem admits_beside_iff (h : (db.adding journal).Admits e) (others : List JournalEntry) :
    ((db.adding others).adding journal).Admits e ↔ ∀ o ∈ others, o.Apart e := by
  have hmem : ∀ t r, r ∈ ((db.adding others).adding journal).rows t ↔
      r ∈ (db.adding journal).rows t ∨ ∃ o ∈ others, o.row? t = some r := by
    intro t r
    simp only [rows_adding, List.mem_append, List.mem_filterMap]
    rw [or_right_comm]
  constructor
  · intro hbeside o ho t row row' hrow hrow' c hc hkey
    exact hbeside.fresh t row' hrow' row ((hmem t row).2 (.inr ⟨o, ho, hrow⟩)) c hc hkey
  · intro hapart
    refine ⟨h.known, h.filled, fun t row hrow => ?_, fun t row hrow r hr c hc hkey => ?_⟩
    · exact (h.refers t row hrow).mono fun t' r hr => (hmem t' r).2 (.inl hr)
    · rcases (hmem t r).1 hr with hr | ⟨o, ho, hadded⟩
      · exact h.fresh t row hrow r hr c hc hkey
      · exact hapart o ho t r row hadded hrow c hc hkey

end Database

-- ---------------------------------------------------------------------------
-- Journals of insertions
-- ---------------------------------------------------------------------------

namespace Transaction

variable {db next : Database} {journal : List JournalEntry}

/-- **A journal of insertions succeeds when each of them is admitted** by what the database is then,
and adds their rows. -/
theorem replay_eq_ok_iff_admits (hinserts : ∀ e ∈ journal, e.Inserts) :
    replay db journal = .ok next ↔
      (∀ front e rest, journal = front ++ e :: rest → (db.adding front).Admits e) ∧
        next = db.adding journal := by
  induction journal generalizing db with
  | nil =>
    simp only [replay, Except.ok.injEq, Database.adding_nil]
    constructor
    · rintro rfl
      exact ⟨fun front e rest h => by simp at h, rfl⟩
    · exact fun h => h.2.symm
  | cons e rest ih =>
    have hrest := fun e he => hinserts e (List.mem_cons_of_mem _ he)
    have hfirst : ∀ {mid n}, db.execute e.moment e.statement = .ok (mid, n) ↔
        db.Admits e ∧ mid = db.adding [e] ∧ n = 1 :=
      Database.execute_eq_ok_iff_admits (hinserts e List.mem_cons_self)
    rw [replay_cons_eq_ok_iff]
    constructor
    · rintro ⟨mid, n, hexecute, hreplay⟩
      obtain ⟨hadmits, rfl, -⟩ := hfirst.1 hexecute
      obtain ⟨hothers, rfl⟩ := (ih hrest).1 hreplay
      refine ⟨?_, (db.adding_append [e] rest).symm⟩
      rintro (_ | ⟨first, front⟩) e' later hsplit
      · obtain ⟨rfl, -⟩ := List.cons.inj hsplit
        rw [Database.adding_nil]
        exact hadmits
      · obtain ⟨rfl, htail⟩ := List.cons.inj hsplit
        rw [← List.singleton_append, Database.adding_append]
        exact hothers front e' later htail
    · rintro ⟨hall, rfl⟩
      have hadmits := hall [] e rest rfl
      rw [Database.adding_nil] at hadmits
      refine ⟨db.adding [e], 1, hfirst.2 ⟨hadmits, rfl, rfl⟩, (ih hrest).2 ⟨?_, ?_⟩⟩
      · intro front e' later hsplit
        rw [← Database.adding_append]
        exact hall (e :: front) e' later (by rw [hsplit]; rfl)
      · exact db.adding_append [e] rest

/-- A journal of insertions that succeeds by itself succeeds beside the rows of others just when it
shares no key with them. -/
theorem replay_beside_iff {own : Database} (hinserts : ∀ e ∈ journal, e.Inserts)
    (hown : replay db journal = .ok own) (others : List JournalEntry) :
    replay (db.adding others) journal = .ok next ↔
      (∀ o ∈ others, ∀ e ∈ journal, o.Apart e) ∧ next = db.adding (others ++ journal) := by
  obtain ⟨hadmits, -⟩ := (replay_eq_ok_iff_admits hinserts).1 hown
  rw [replay_eq_ok_iff_admits hinserts, Database.adding_append]
  refine and_congr_left fun _ => ?_
  constructor
  · -- each entry is admitted on what stands in front of it, with the rows of others there as well
    intro h o ho e he
    obtain ⟨front, rest, hsplit⟩ := List.append_of_mem he
    exact (Database.admits_beside_iff (hadmits front e rest hsplit) others).1
      (h front e rest hsplit) o ho
  · intro h front e rest hsplit
    have he : e ∈ journal := by simp [hsplit]
    refine (Database.admits_beside_iff (hadmits front e rest hsplit) others).2 ?_
    exact fun o ho => h o ho e he

/-- **Journals of insertions that succeed by themselves succeed one after the other just when no two
of them share a key.** -/
theorem replay_flatMap_iff {journals : String → List JournalEntry} {names : List String}
    (hinserts : ∀ tx ∈ names, ∀ e ∈ journals tx, e.Inserts)
    (hown : ∀ tx ∈ names, ∃ own, replay db (journals tx) = .ok own) (others : List JournalEntry) :
    replay (db.adding others) (names.flatMap journals) = .ok next ↔
      ((∀ o ∈ others, ∀ tx ∈ names, ∀ e ∈ journals tx, o.Apart e) ∧
        names.Pairwise fun tx tx' => ∀ e ∈ journals tx, ∀ e' ∈ journals tx', e.Apart e') ∧
      next = db.adding (others ++ names.flatMap journals) := by
  induction names generalizing others with
  | nil => simp [replay, eq_comm]
  | cons tx rest ih =>
    -- the first journal meets the rows of others alone, the rest those of the first as well
    obtain ⟨own, htx⟩ := hown tx List.mem_cons_self
    have hrest : ∀ others, replay (db.adding others) (rest.flatMap journals) = .ok next ↔ _ :=
      ih (fun name hname => hinserts name (List.mem_cons_of_mem _ hname))
        fun name hname => hown name (List.mem_cons_of_mem _ hname)
    have hbeside : ∀ {mid}, replay (db.adding others) (journals tx) = .ok mid ↔ _ :=
      replay_beside_iff (hinserts tx List.mem_cons_self) htx others
    rw [List.flatMap_cons, replay_append_eq_ok_iff, List.pairwise_cons]
    constructor
    · rintro ⟨mid, hmid, hreplay⟩
      obtain ⟨hfirst, rfl⟩ := hbeside.1 hmid
      obtain ⟨⟨hlater, hpairwise⟩, rfl⟩ := (hrest _).1 hreplay
      refine ⟨⟨?_, ?_, hpairwise⟩, by rw [List.append_assoc]⟩
      · intro o ho
        refine List.forall_mem_cons.2 ⟨hfirst o ho, ?_⟩
        exact hlater o (List.mem_append_left _ ho)
      · intro name hname e he
        exact hlater e (List.mem_append_right _ he) name hname
    · rintro ⟨⟨hapart, hfirst, hpairwise⟩, rfl⟩
      refine ⟨_, hbeside.2 ⟨fun o ho => hapart o ho tx List.mem_cons_self, rfl⟩, ?_⟩
      refine (hrest _).2 ⟨⟨fun o ho name hname => ?_, hpairwise⟩, by rw [List.append_assoc]⟩
      rcases List.mem_append.1 ho with ho | ho
      · exact hapart o ho name (List.mem_cons_of_mem _ hname)
      · exact hfirst name hname o ho

/-- **Journals of insertions may be run in any order**: where they succeed by themselves, and one
after the other in one order, they do in every order, and they add the same rows. -/
theorem replay_flatMap_perm {journals : String → List JournalEntry} {names names' : List String}
    (hperm : names.Perm names') (hinserts : ∀ tx ∈ names, ∀ e ∈ journals tx, e.Inserts)
    (hown : ∀ tx ∈ names, ∃ own, replay db (journals tx) = .ok own)
    (h : replay db (names.flatMap journals) = .ok next) :
    next = db.adding (names.flatMap journals) ∧
      replay db (names'.flatMap journals) = .ok (db.adding (names'.flatMap journals)) := by
  rw [← db.adding_nil] at h
  obtain ⟨⟨-, hapart⟩, hnext⟩ := (replay_flatMap_iff hinserts hown []).1 h
  refine ⟨hnext, ?_⟩
  -- keeping apart is symmetric, so it holds of the pairs of every order
  have hsymm : ∀ {tx tx'}, (∀ e ∈ journals tx, ∀ e' ∈ journals tx', e.Apart e') →
      ∀ e' ∈ journals tx', ∀ e ∈ journals tx, e'.Apart e :=
    fun hapart e' he' e he => (hapart e he e' he').symm
  have hother := (replay_flatMap_iff (fun tx htx => hinserts tx (hperm.mem_iff.2 htx))
    (fun tx htx => hown tx (hperm.mem_iff.2 htx)) []).2
      ⟨⟨by simp, (hperm.pairwise_iff hsymm).1 hapart⟩, rfl⟩
  rw [db.adding_nil] at hother
  exact hother

end Transaction

-- ---------------------------------------------------------------------------
-- Transactions that create
-- ---------------------------------------------------------------------------

/-- The operation creates a record, or only looks records up. -/
def Operation.Additive : Operation → Prop
  | create _ _ | login _ _ | get _ _ | find _ _ => True
  | modify _ _ _ | delete _ _ => False

/-- An additive operation issues inserts at most. -/
theorem Operation.Additive.exists_insert {operation : Operation} {db : Database}
    {statement : Statement} (h : operation.Additive)
    (hissued : operation.issued? db = some statement) : ∃ t row, statement = .insert t row := by
  cases operation with
  | create t record =>
    obtain ⟨-, hstatement⟩ := Option.ite_none_right_eq_some.1 hissued
    exact ⟨t, record.toColumns, (Option.some.inj hstatement).symm⟩
  | modify t uuid revision => exact h.elim
  | delete role uuid => exact h.elim
  | _ => cases hissued

/-- The transaction that a step commits. -/
def Step.committed? : Step → Option String
  | .commit tx => some tx
  | _ => none

theorem Step.committed?_eq_some_iff {step : Step} {tx : String} :
    step.committed? = some tx ↔ step = .commit tx := by
  cases step <;> simp [committed?]

namespace Session

variable {s : Session} {db next : Database} {tx : String} {own steps : List (Timestamp × Step)}

/-- All steps are operations of one transaction that create records or only look them up. -/
def Creates (tx : String) (own : List (Timestamp × Step)) : Prop :=
  ∀ p ∈ own, ∃ operation : Operation, p.2 = .operate tx operation ∧ operation.Additive

/-- The transactions that a run commits, in order. -/
def commitOrder (steps : List (Timestamp × Step)) : List String :=
  steps.filterMap fun p => p.2.committed?

/-- The answers that a run gives to its commits. -/
def commitAnswers (s : Session) (steps : List (Timestamp × Step)) : List (Except Refusal Answer) :=
  s.answers (fun step => step.committed?.isSome) steps

/-- The run commits transactions in an order, and nothing else. Each of them begins before the first
commit, and what it does until its own commit is its given work. -/
structure Commits (work : String → List (Timestamp × Step)) (order : List String)
    (steps : List (Timestamp × Step)) : Prop where
  order  : commitOrder steps = order
  course : ∀ earlier now tx later, steps = earlier ++ (now, .commit tx) :: later →
    ∃ before began during, earlier = before ++ (began, .begin .records tx) :: during ∧
      (∀ p ∈ before, ∀ name, p.2 ≠ .commit name) ∧ (∀ p ∈ during, p.2.bounds tx = false) ∧
        during.filter (fun p => p.2.concerns tx) = work tx

/-- What a transaction has noted after its own steps, alone on a committed state. -/
def journalOf (db : Database) (own : List (Timestamp × Step)) (tx : String) : List JournalEntry :=
  ((((⟨db, []⟩ : Session).put tx ⟨.records, .begin db⟩).run own).find? tx).elim []
    fun opened => opened.transaction.journal

theorem bounds_of_creates (h : Creates tx own) : ∀ p ∈ own, p.2.bounds tx = false := by
  intro p hp
  obtain ⟨operation, hstep, -⟩ := h p hp
  rw [hstep]
  rfl

/-- A transaction that only creates has noted insertions only. -/
theorem inserts_run (h : Creates tx own)
    (hstart : ∀ opened, s.find? tx = some opened → ∀ e ∈ opened.transaction.journal, e.Inserts) :
    ∀ opened, (s.run own).find? tx = some opened →
      ∀ e ∈ opened.transaction.journal, e.Inserts := by
  induction own generalizing s with
  | nil => exact hstart
  | cons p rest ih =>
    refine ih (fun q hq => h q (List.mem_cons_of_mem _ hq)) fun opened hfind => ?_
    obtain ⟨operation, hstep, hadditive⟩ := h p List.mem_cons_self
    rcases find?_step_cases hfind with ⟨access, hbegin, -⟩ | ⟨before, hbefore, -, htx⟩
    · cases hstep.symm.trans hbegin
    · rw [htx]
      -- the step attempted nothing, or the one insert of a creation
      rcases before.transaction.attempt_cases p.1 (s.issued? tx p.2) with
        hsame | ⟨statement, db, n, hissued, -, hafter⟩
      · rw [hsame]
        exact hstart before hbefore
      · rw [hafter]
        intro e he
        rcases List.mem_append.1 he with he | he
        · exact hstart before hbefore e he
        · rw [List.mem_singleton.1 he]
          rw [issued?, hbefore, Option.bind_some, hstep] at hissued
          exact hadditive.exists_insert (Option.ite_none_right_eq_some.1 hissued).2

/-- The journal of a transaction that only creates consists of insertions that succeed on the state
that it began on. -/
theorem journalOf_spec (h : Creates tx own) :
    (∀ e ∈ journalOf db own tx, e.Inserts) ∧
      ∃ copy, Transaction.replay db (journalOf db own tx) = .ok copy := by
  obtain ⟨opened, hfind, hreplay⟩ :=
    exists_find?_run (⟨db, []⟩ : Session) (.ofSeconds 0) .records tx (bounds_of_creates h)
  have hopened : (((⟨db, []⟩ : Session).put tx ⟨.records, .begin db⟩).run own).find? tx =
      some opened := hfind
  -- it begins with an empty journal
  have hbegun : ∀ opened, ((⟨db, []⟩ : Session).put tx ⟨.records, .begin db⟩).find? tx =
      some opened → ∀ e ∈ opened.transaction.journal, e.Inserts := by
    intro opened hput e he
    rw [find?_put, if_pos rfl, Option.some.injEq] at hput
    rw [← hput] at he
    cases he
  rw [journalOf, hopened]
  exact ⟨inserts_run h hbegun opened hopened, opened.transaction.snapshot, hreplay⟩

theorem mem_commitOrder {p : Timestamp × Step} (hp : p ∈ steps) (hcommit : p.2 = .commit tx) :
    tx ∈ commitOrder steps :=
  List.mem_filterMap.2 ⟨p, hp, Step.committed?_eq_some_iff.2 hcommit⟩

/-- What a transaction has noted at its commit is what it would have noted alone. -/
theorem Commits.journals {work : String → List (Timestamp × Step)} {order : List String}
    (h : Commits work order steps) (hwork : ∀ tx ∈ order, Creates tx (work tx)) :
    ∀ earlier now tx later, steps = earlier ++ (now, .commit tx) :: later →
      ∃ opened, (s.run earlier).find? tx = some opened ∧
        opened.transaction.journal = journalOf s.committed (work tx) tx := by
  intro earlier now tx later hsplit
  have hcreates : Creates tx (work tx) := by
    refine hwork tx ?_
    rw [← h.order]
    exact mem_commitOrder (p := (now, .commit tx)) (by simp [hsplit]) rfl
  obtain ⟨before, began, during, rfl, hquiet, hbounds, hown⟩ := h.course earlier now tx later hsplit
  -- it began on the state that the run started from
  have hcommitted : (s.run before).committed = s.committed := committed_run_of_no_commit hquiet
  let alone : Session := (⟨s.committed, []⟩ : Session).put tx ⟨.records, .begin s.committed⟩
  have hbegun : ((s.run before).step began (.begin .records tx)).1.find? tx = alone.find? tx := by
    rw [Session.step, find?_put, find?_put, if_pos rfl, if_pos rfl, hcommitted]
  obtain ⟨-, hsame⟩ := answers_own hbegun hbounds
  obtain ⟨opened, hfind, -⟩ := exists_find?_run (⟨s.committed, []⟩ : Session) began .records tx
    (bounds_of_creates hcreates)
  have hopened : (alone.run (work tx)).find? tx = some opened := hfind
  refine ⟨opened, ?_, ?_⟩
  · rw [run_append, ← hopened, ← hown]
    exact hsame
  · rw [journalOf, hopened]
    rfl

/-- **The commits of a run succeed when the journals of their transactions do**, one after the other
on the state that the run starts from, and the run leaves the state that the journals lead to. -/
theorem replay_commitOrder_iff {journals : String → List JournalEntry}
    (hjournals : ∀ earlier now tx later, steps = earlier ++ (now, .commit tx) :: later →
      ∃ opened, (s.run earlier).find? tx = some opened ∧
        opened.transaction.journal = journals tx) :
    Transaction.replay s.committed ((commitOrder steps).flatMap journals) = .ok next ↔
      (∀ answer ∈ s.commitAnswers steps, answer = .ok .done) ∧ (s.run steps).committed = next := by
  induction steps generalizing s with
  | nil => simp [commitOrder, commitAnswers, answers, Transaction.replay, run]
  | cons p rest ih =>
    obtain ⟨now, step⟩ := p
    have hrest : Transaction.replay (s.step now step).1.committed
        ((commitOrder rest).flatMap journals) = .ok next ↔
      (∀ answer ∈ (s.step now step).1.commitAnswers rest, answer = .ok .done) ∧
        ((s.step now step).1.run rest).committed = next :=
      ih fun earlier moment tx later hsplit =>
        hjournals ((now, step) :: earlier) moment tx later (by rw [hsplit, List.cons_append])
    cases hcommit : step.committed? with
    -- a step that is no commit leaves the committed state, and is not answered for
    | none =>
      have hcommitted : (s.step now step).1.committed = s.committed := by
        refine committed_step_of_no_commit fun name _ hname => ?_
        rw [Step.committed?_eq_some_iff.2 hname] at hcommit
        cases hcommit
      have horder : commitOrder ((now, step) :: rest) = commitOrder rest :=
        List.filterMap_cons_none hcommit
      have hanswers : s.commitAnswers ((now, step) :: rest) =
          (s.step now step).1.commitAnswers rest :=
        answers_cons_of_not_selected (by rw [hcommit]; rfl)
      rw [horder, hanswers, ← hcommitted]
      exact hrest
    | some tx =>
      obtain rfl := Step.committed?_eq_some_iff.1 hcommit
      have horder : commitOrder ((now, .commit tx) :: rest) = tx :: commitOrder rest :=
        List.filterMap_cons_some hcommit
      have hanswers : s.commitAnswers ((now, .commit tx) :: rest) =
          (s.step now (.commit tx)).2 :: (s.step now (.commit tx)).1.commitAnswers rest :=
        answers_cons_of_selected (by rw [hcommit]; rfl)
      obtain ⟨opened, hopen, hjournal⟩ := hjournals [] now tx rest rfl
      have hfind : s.find? tx = some opened := hopen
      rw [horder, hanswers, List.flatMap_cons, List.forall_mem_cons, and_assoc,
        Transaction.replay_append_eq_ok_iff, ← hjournal]
      rcases commit_cases now hfind with ⟨db, hreplay, hdb, hanswer⟩ | ⟨b, hreplay, -, hanswer⟩
      · rw [hdb] at hrest
        rw [hreplay, hanswer]
        simp only [Except.ok.injEq, exists_eq_left', true_and]
        exact hrest
      · rw [hreplay, hanswer]
        simp

/-- **The order of commits does not matter to transactions that create.** Let transactions begin on
one committed state, each to create records and look records up, and let them all be committed with
success in one run. Then in every other run in which they do the same work and are committed, in
whatever order, all commits succeed as well. Either run keeps the rows that were there, in front and
as they were, and both add the same rows to each table. -/
theorem commit_order (s : Session) {work : String → List (Timestamp × Step)}
    {order order' : List String} {steps steps' : List (Timestamp × Step)}
    (hperm : order.Perm order') (hwork : ∀ tx ∈ order, Creates tx (work tx))
    (hsteps : Commits work order steps) (hsteps' : Commits work order' steps')
    (hdone : ∀ answer ∈ s.commitAnswers steps, answer = .ok .done) :
    (∀ answer ∈ s.commitAnswers steps', answer = .ok .done) ∧
      ∀ t, ∃ added added',
        (s.run steps).committed.rows t = s.committed.rows t ++ added ∧
        (s.run steps').committed.rows t = s.committed.rows t ++ added' ∧ added.Perm added' := by
  let journals : String → List JournalEntry := fun tx => journalOf s.committed (work tx) tx
  have hwork' : ∀ tx ∈ order', Creates tx (work tx) := fun tx htx => hwork tx (hperm.mem_iff.2 htx)
  have hspec : ∀ tx ∈ order, (∀ e ∈ journals tx, e.Inserts) ∧
      ∃ copy, Transaction.replay s.committed (journals tx) = .ok copy :=
    fun tx htx => journalOf_spec (hwork tx htx)
  -- the run that succeeds replays the journals in its order, and so any other order can
  have hreplay := (replay_commitOrder_iff (hsteps.journals hwork)).2 ⟨hdone, rfl⟩
  rw [hsteps.order] at hreplay
  obtain ⟨hcommitted, hother⟩ := Transaction.replay_flatMap_perm hperm
    (fun tx htx => (hspec tx htx).1) (fun tx htx => (hspec tx htx).2) hreplay
  have hrun' : Transaction.replay s.committed ((commitOrder steps').flatMap journals) =
      .ok (s.committed.adding (order'.flatMap journals)) := by
    rw [hsteps'.order]
    exact hother
  obtain ⟨hdone', hcommitted'⟩ := (replay_commitOrder_iff (hsteps'.journals hwork')).1 hrun'
  have hadded : ∀ t, ((order.flatMap journals).filterMap (JournalEntry.row? t)).Perm
      ((order'.flatMap journals).filterMap (JournalEntry.row? t)) :=
    fun t => (hperm.flatMap_right journals).filterMap _
  refine ⟨hdone', fun t => ⟨_, _, ?_, ?_, hadded t⟩⟩
  · rw [hcommitted]
    rfl
  · rw [hcommitted']
    rfl

/-- The work of two transactions, which create a parent each; the first tries it twice. -/
def twoCreations (tx : String) : List (Timestamp × Step) :=
  if tx = "a" then
    let parent : Record .parentAuths := ⟨"parent-000000000001", ("lee1", "hash", ()), none, none⟩
    [(.ofSeconds 3, .operate "a" (.create .parentAuths parent)),
      (.ofSeconds 4, .operate "a" (.create .parentAuths parent))]
  else
    [(.ofSeconds 5, .operate "b" (.create .parentAuths
      ⟨"parent-000000000002", ("lee2", "hash", ()), none, none⟩))]

/-- Both have done their work when the first is committed. -/
def firstThenSecond : List (Timestamp × Step) :=
  (.ofSeconds 1, .begin .records "a") :: (.ofSeconds 2, .begin .records "b") ::
    twoCreations "a" ++ twoCreations "b" ++
      [(.ofSeconds 6, .commit "a"), (.ofSeconds 7, .commit "b")]

/-- The second is committed before the first does its work. -/
def secondThenFirst : List (Timestamp × Step) :=
  (.ofSeconds 1, .begin .records "a") :: (.ofSeconds 2, .begin .records "b") ::
    twoCreations "b" ++ (.ofSeconds 6, .commit "b") ::
      twoCreations "a" ++ [(.ofSeconds 7, .commit "a")]

/-- The two creations, committed in the order in which they were begun. -/
theorem commits_firstThenSecond : Commits twoCreations ["a", "b"] firstThenSecond where
  order := rfl
  course earlier now tx later hsplit := by
    simp only [firstThenSecond, twoCreations, ↓reduceIte, List.cons_append, List.nil_append,
      String.reduceEq, List.cons_eq_append_iff, List.cons.injEq, Prod.mk.injEq, reduceCtorEq,
      and_false, false_and, Step.commit.injEq, List.nil_eq, List.append_eq_nil_iff, exists_const,
      or_false, ↓existsAndEq, true_and, false_or] at hsplit
    obtain ⟨last, rfl, ⟨rfl, ⟨rfl, rfl⟩, rfl⟩ | ⟨rfl, ⟨rfl, rfl⟩, rfl⟩⟩ := hsplit
    · exact ⟨[], _, _, rfl, by simp, by simp [Step.bounds], rfl⟩
    · exact ⟨[_], _, _, rfl, by simp, by simp [Step.bounds], rfl⟩

/-- The same two creations, committed the other way round. -/
theorem commits_secondThenFirst : Commits twoCreations ["b", "a"] secondThenFirst where
  order := rfl
  course earlier now tx later hsplit := by
    simp only [secondThenFirst, twoCreations, ↓reduceIte, List.cons_append, List.nil_append,
      String.reduceEq, List.cons_eq_append_iff, List.cons.injEq, Prod.mk.injEq, reduceCtorEq,
      and_false, false_and, Step.commit.injEq, List.nil_eq, List.append_eq_nil_iff, exists_const,
      or_false, ↓existsAndEq, true_and, false_or] at hsplit
    obtain ⟨last, rfl, ⟨rfl, ⟨rfl, rfl⟩, rfl⟩ | ⟨rfl, ⟨rfl, rfl⟩, rfl⟩⟩ := hsplit
    · exact ⟨[_], _, _, rfl, by simp, by simp [Step.bounds], rfl⟩
    · exact ⟨[], _, _, rfl, by simp, by simp [Step.bounds], rfl⟩

/-- Either order admits both parents, and the rows stand in the order of the commits. -/
theorem commit_order_twoCreations :
    (∀ answer ∈ new.commitAnswers secondThenFirst, answer = .ok .done) ∧
      ((new.run firstThenSecond).committed.rows .parentAuths).Perm
        ((new.run secondThenFirst).committed.rows .parentAuths) ∧
      ((new.run firstThenSecond).committed.rows .parentAuths).map (·.get "parent_id") =
        [.text "lee1", .text "lee2"] ∧
      ((new.run secondThenFirst).committed.rows .parentAuths).map (·.get "parent_id") =
        [.text "lee2", .text "lee1"] := by
  have hwork : ∀ tx ∈ ["a", "b"], Creates tx (twoCreations tx) := by
    intro tx htx p hp
    simp only [List.mem_cons, List.not_mem_nil, or_false] at htx
    rcases htx with rfl | rfl
    · simp only [twoCreations, ↓reduceIte, List.mem_cons, List.not_mem_nil, or_false] at hp
      rcases hp with rfl | rfl <;> exact ⟨_, rfl, trivial⟩
    · simp only [twoCreations, String.reduceEq, ↓reduceIte, List.mem_singleton] at hp
      subst hp
      exact ⟨_, rfl, trivial⟩
  have hanswers : new.commitAnswers firstThenSecond = [.ok .done, .ok .done] := by rfl
  have hdone : ∀ answer ∈ new.commitAnswers firstThenSecond, answer = .ok .done := by
    rw [hanswers]
    simp
  obtain ⟨hother, hrows⟩ := commit_order new (List.Perm.swap "b" "a" []) hwork
    commits_firstThenSecond commits_secondThenFirst hdone
  obtain ⟨added, added', hadded, hadded', hperm⟩ := hrows .parentAuths
  refine ⟨hother, ?_, by rfl, by rfl⟩
  rw [hadded, hadded']
  exact hperm.append_left _

end Session

end Rollbook
