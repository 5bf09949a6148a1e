import Mathlib.Data.List.Count
import Rollbook.Proofs.Integrity

/-!
# Rollbook — the checks of a statement are exact

A statement has a plain outcome: the rows that it would leave if nobody checked them. The engine
never looks at the outcome as a whole. An insertion asks only for what its own row refers to, a
deletion only who refers to the rows that go, and an update checks one row after the other beside a
list that is half old and half new. Where the rows are consistent, this is neither too much nor too
little.

* `breach?_insert`, `breach?_revise`, `referenced?_doomed` — on the way to a consistent outcome, no
  check of an insertion, an update or a deletion fails.
* `execute_eq_ok_iff` — a statement succeeds just when its outcome is consistent, and leads there.
* `execute_exact` — the same for a transaction, which a failing statement leaves as it was.
-/

namespace Rollbook

-- ---------------------------------------------------------------------------
-- The outcome
-- ---------------------------------------------------------------------------

namespace Statement

/-- The database that the statement describes, whatever the constraints say of it: one row more at
the end, the new values laid over the rows that they alter, or some rows less. -/
def outcome (db : Database) (now : Timestamp) : Statement → Database
  | .insert t row => db.set t (db.rows t ++ [Database.complete t row now])
  | .update t filter payload => db.set t ((db.rows t).map fun row =>
      if row.meets filter = true ∧ row.overlay payload ≠ row then
        (row.overlay payload).insert updatedAtKey (.timestamp now)
      else row)
  | .delete t filter => db.set t ((db.rows t).filter fun row => !row.meets filter)

/-- How many rows come, change or go. -/
def touched (db : Database) : Statement → Nat
  | .insert _ _ => 1
  | .update t filter payload =>
    (db.rows t).countP fun row => row.meets filter = true ∧ row.overlay payload ≠ row
  | .delete t filter => (db.rows t).countP fun row => row.meets filter

end Statement

/-- A foreign key refers to a key of the other table. -/
theorem Table.exists_key_of_reference {t : Table} : ∀ fk ∈ t.foreignKeys,
    ∃ c ∈ fk.refTable.columns, c.name = fk.refColumn ∧ fk.refTable.isKey c = true := by
  cases t <;> decide

/-- The moment of the last change is no key. -/
theorem Table.ne_updatedAt_of_isKey {t : Table} :
    ∀ c ∈ t.columns, t.isKey c = true → c.name ≠ updatedAtKey := by
  cases t <;> decide

namespace Database

variable {db next : Database} {t : Table} {filter payload : Columns} {now : Timestamp} {n : Nat}
  {statement : Statement}

/-- The revision of a row in one expression: the new values and the moment, if it is met and they
differ. -/
theorem revise_eq_ite (filter payload : Columns) (now : Timestamp) (row : Row) :
    revise filter payload now row =
      if row.meets filter = true ∧ row.overlay payload ≠ row then
        (row.overlay payload).insert updatedAtKey (.timestamp now)
      else row := by
  rw [revise, revised?]
  split <;> rfl

/-- The outcome of an update, with the revision by name. -/
theorem outcome_update :
    (Statement.update t filter payload).outcome db now =
      db.set t ((db.rows t).map (revise filter payload now)) := by
  rw [Statement.outcome, funext (revise_eq_ite filter payload now)]

theorem touched_update (now : Timestamp) :
    (Statement.update t filter payload).touched db =
      (db.rows t).countP fun row => (revised? filter payload now row).isSome := by
  rw [Statement.touched]
  refine List.countP_congr fun row _ => ?_
  rw [revised?]
  by_cases halters : row.meets filter = true ∧ row.overlay payload ≠ row
  · simp [halters]
  · simp [halters]

-- ---------------------------------------------------------------------------
-- Rows of a consistent database
-- ---------------------------------------------------------------------------

/-- Where keys are distinct, the value in a key column belongs to one row. -/
theorem DistinctKeys.eq_of_get_eq {rows : List Row} (h : DistinctKeys t rows) {c : Column}
    (hc : c ∈ t.columns) (hkey : t.isKey c = true) {row row' : Row} (hrow : row ∈ rows)
    (hrow' : row' ∈ rows) (hsame : row.get c.name = row'.get c.name) : row = row' :=
  List.inj_on_of_nodup_map (h c hc hkey) hrow hrow' hsame

/-- Where keys are distinct, a row shares no key with the rows around it. -/
theorem DistinctKeys.get_ne {front rest : List Row} {row : Row}
    (h : DistinctKeys t (front ++ row :: rest)) {c : Column} (hc : c ∈ t.columns)
    (hkey : t.isKey c = true) {other : Row} (hother : other ∈ front ++ rest) :
    other.get c.name ≠ row.get c.name := by
  have hperm : (front ++ row :: rest).Perm (row :: (front ++ rest)) := List.perm_middle
  have hnodup := (h.perm hperm) c hc hkey
  rw [List.map_cons, List.nodup_cons] at hnodup
  exact fun hsame => hnodup.1 (List.mem_map.2 ⟨other, hother, hsame⟩)

/-- A change of one table does not move what its own rows refer to. -/
theorem RefersWell.of_set {rows : List Row} {row : Row} (h : (db.set t rows).RefersWell t row) :
    db.RefersWell t row := by
  intro fk hfk hvalue
  have hfound := h fk hfk hvalue
  rw [rows_set_of_ne _ _ (Table.refTable_ne fk hfk)] at hfound
  exact hfound

/-- A row that refers to a changed table finds what it refers to there, if the change is
consistent. -/
theorem Consistent.exists_referent {rows : List Row} (h : Consistent (db.set t rows))
    {child : Table} {fk : ForeignKey} (hfk : fk ∈ child.foreignKeys) (href : fk.refTable = t)
    {r : Row} (hr : r ∈ db.rows child) (hvalue : r.get fk.column ≠ .null) :
    ∃ p ∈ rows, p.get fk.refColumn = r.get fk.column := by
  have hchild : child ≠ t := fun hsame => Table.refTable_ne fk hfk (href.trans hsame.symm)
  have hr' : r ∈ (db.set t rows).rows child := by
    rw [rows_set_of_ne _ _ hchild]
    exact hr
  have hfound := h.references child r hr' fk hfk hvalue
  rw [href, rows_set_self] at hfound
  exact hfound

-- ---------------------------------------------------------------------------
-- Insertion and deletion
-- ---------------------------------------------------------------------------

/-- The row of a consistent insertion passes its checks. -/
theorem breach?_insert {row : Columns}
    (h : Consistent ((Statement.insert t row).outcome db now)) :
    db.breach? t (db.rows t) none (complete t row now) = none := by
  have hmem : complete t row now ∈ ((Statement.insert t row).outcome db now).rows t := by
    rw [Statement.outcome, rows_set_self]
    exact List.mem_append_right _ (List.mem_singleton_self _)
  have hkeys := h.keys t
  rw [Statement.outcome, rows_set_self] at hkeys
  have hrefers : db.RefersWell t (complete t row now) := (h.references t _ hmem).of_set
  refine breach?_eq_none_iff.2 ⟨?_, fun o ho => ?_, ?_, ?_⟩
  · exact nullColumn?_eq_none_iff.2 (h.fits t _ hmem).notNull
  · -- a new row has no predecessor that could be referred to
    cases ho
  · refine duplicate?_eq_none_iff.2 fun c hc hkey _ other hother => ?_
    exact hkeys.get_ne hc hkey (by simpa using hother)
  · exact noReferent?_eq_none_iff.2 hrefers

/-- Nobody refers to a row that a consistent deletion takes away. -/
theorem referenced?_doomed (hdb : Consistent db)
    (h : Consistent ((Statement.delete t filter).outcome db now)) {row : Row}
    (hrow : row ∈ db.select t filter) : db.referenced? t row none = none := by
  obtain ⟨hmem, hmeets⟩ := List.mem_filter.1 hrow
  refine referenced?_eq_none_iff.2 fun child fk hfk href hvalue _ r hr hrefers => ?_
  obtain ⟨p, hp, heq⟩ := h.exists_referent hfk href hr (hrefers ▸ hvalue)
  obtain ⟨hpmem, hkept⟩ := List.mem_filter.1 hp
  -- the row that is found after the deletion would have to be the deleted one
  obtain ⟨c, hc, hname, hkey⟩ := Table.exists_key_of_reference fk hfk
  rw [href] at hc hkey
  have hsame : p.get c.name = row.get c.name := by rw [hname, heq, hrefers]
  have hone : p = row := (hdb.keys t).eq_of_get_eq hc hkey hpmem hmem hsame
  rw [hone, hmeets] at hkept
  cases hkept

-- ---------------------------------------------------------------------------
-- Updates
-- ---------------------------------------------------------------------------

/-- All revisions of an update bring in the same values: where one row has been revised, each row
ends with its own old value or with the value of that revision. -/
theorem get_revise_cases {row revised : Row} {name : String} (hname : name ≠ updatedAtKey)
    (hrev : revised? filter payload now row = some revised) (other : Row) :
    (revise filter payload now other).get name = other.get name ∨
      (revise filter payload now other).get name = revised.get name := by
  obtain ⟨hmeets, -, -⟩ := revised?_eq_some_iff.1 hrev
  have hvalue : revised.get name = (payload.get? name).getD (row.get name) := by
    rw [← revise_of_revised? hrev, get_revise hname, if_pos hmeets]
  rw [get_revise hname, hvalue]
  cases payload.get? name with
  | none => exact .inl (ite_self _)
  | some value =>
    by_cases hother : other.meets filter = true
    · exact .inr (if_pos hother)
    · exact .inl (if_neg hother)

/-- A row of an update with a consistent outcome passes its checks beside the revisions of the rows
before it and the rows still to come. -/
theorem breach?_revise (hdb : Consistent db)
    (h : Consistent ((Statement.update t filter payload).outcome db now))
    {front rest : List Row} {row revised : Row} (hrows : db.rows t = front ++ row :: rest)
    (hrev : revised? filter payload now row = some revised) :
    db.breach? t (front.map (revise filter payload now) ++ rest) (some row) revised = none := by
  rw [outcome_update] at h
  have hleft : (db.rows t).map (revise filter payload now) =
      front.map (revise filter payload now) ++ revised :: rest.map (revise filter payload now) := by
    rw [hrows, List.map_append, List.map_cons, revise_of_revised? hrev]
  have hkeys := h.keys t
  rw [rows_set_self, hleft] at hkeys
  have hmem : revised ∈ (db.set t ((db.rows t).map (revise filter payload now))).rows t := by
    rw [rows_set_self, hleft]
    simp
  refine breach?_eq_none_iff.2 ⟨?_, ?_, ?_, ?_⟩
  · exact nullColumn?_eq_none_iff.2 (h.fits t _ hmem).notNull
  · -- a reference to a value that is given up would find no row in the outcome
    rintro o ho
    cases ho
    refine referenced?_eq_none_iff.2 fun child fk hfk href hvalue hgone r hr hrefers => ?_
    obtain ⟨p, hp, heq⟩ := h.exists_referent hfk href hr (hrefers ▸ hvalue)
    obtain ⟨q, hq, rfl⟩ := List.mem_map.1 hp
    obtain ⟨c, hc, hname, hkey⟩ := Table.exists_key_of_reference fk hfk
    rw [href] at hc hkey
    have hvalue' : (revise filter payload now q).get fk.refColumn = row.get fk.refColumn :=
      heq.trans hrefers
    have hrefColumn : fk.refColumn ≠ updatedAtKey :=
      hname ▸ Table.ne_updatedAt_of_isKey c hc hkey
    rcases get_revise_cases hrefColumn hrev q with hkept | hbrought
    · -- the row that has the value is the one that has been revised
      have hsame : q.get c.name = row.get c.name := by rw [hname, ← hkept, hvalue']
      have hone : q = row :=
        (hdb.keys t).eq_of_get_eq hc hkey hq (by rw [hrows]; simp) hsame
      rw [hone, revise_of_revised? hrev] at hvalue'
      exact hgone revised rfl hvalue'
    · exact hgone revised rfl (hbrought.symm.trans hvalue')
  · -- a row that has the value now has it in the outcome as well
    refine duplicate?_eq_none_iff.2 fun c hc hkey _ other hother hsame => ?_
    rcases List.mem_append.1 hother with hfront | hrest
    · exact hkeys.get_ne hc hkey (List.mem_append_left _ hfront) hsame
    · have hstays : (revise filter payload now other).get c.name = revised.get c.name := by
        rcases get_revise_cases (Table.ne_updatedAt_of_isKey c hc hkey) hrev other with
          hkept | hbrought
        · rw [hkept, hsame]
        · exact hbrought
      exact hkeys.get_ne hc hkey (List.mem_append_right _ (List.mem_map_of_mem hrest)) hstays
  · exact noReferent?_eq_none_iff.2 (h.references t _ hmem).of_set

/-- An update whose rows all pass their checks comes to its end. -/
theorem exists_updateRows_of_breach? {done rows : List Row}
    (h : ∀ front row rest revised, rows = front ++ row :: rest →
      revised? filter payload now row = some revised →
        db.breach? t (done ++ (front.map (revise filter payload now) ++ rest)) (some row) revised =
          none) :
    ∃ p, db.updateRows t filter payload now done rows = .ok p := by
  induction rows generalizing done with
  | nil => exact ⟨_, rfl⟩
  | cons row rest ih =>
    -- behind the first row, the front of a later one starts with what became of the first
    have hrest : ∃ p, db.updateRows t filter payload now
        (done ++ [revise filter payload now row]) rest = .ok p := by
      refine ih fun front later rest' revised hrows hrev => ?_
      have hlater := h (row :: front) later rest' revised (by rw [hrows, List.cons_append]) hrev
      simpa using hlater
    obtain ⟨p, hp⟩ := hrest
    rw [updateRows]
    cases hrev : revised? filter payload now row with
    | none =>
      rw [revise, hrev, Option.getD_none] at hp
      exact ⟨p, hp⟩
    | some revised =>
      rw [revise_of_revised? hrev] at hp
      have hpasses := h [] row rest revised rfl hrev
      rw [List.map_nil, List.nil_append] at hpasses
      simp only [hpasses, hp]
      exact ⟨_, rfl⟩

-- ---------------------------------------------------------------------------
-- Statements
-- ---------------------------------------------------------------------------

/-- What a statement that succeeds has done is its outcome. -/
theorem outcome_of_execute (h : db.execute now statement = .ok (next, n)) :
    statement.Known ∧ next = statement.outcome db now ∧ n = statement.touched db := by
  cases statement with
  | insert t row =>
    obtain ⟨hknown, -, hnext, hcount⟩ := insert_eq_ok_iff.1 h
    exact ⟨hknown, hnext, hcount⟩
  -- the visit of the rows has revised each of them, and counted those that it changed
  | update t filter payload =>
    obtain ⟨hpayload, hfilter, rows, hrows, hnext⟩ := update_eq_ok_iff.1 h
    obtain ⟨hleft, hcount⟩ := updateRows_eq_ok hrows
    rw [List.nil_append] at hleft
    refine ⟨⟨hpayload, hfilter⟩, ?_, ?_⟩
    · rw [outcome_update, hnext, hleft]
    · rw [touched_update now, hcount]
  | delete t filter =>
    obtain ⟨hknown, -, hnext, hcount⟩ := delete_eq_ok_iff.1 h
    refine ⟨hknown, hnext, ?_⟩
    rw [hcount, select, Statement.touched, List.countP_eq_length_filter]

/-- A statement with a consistent outcome succeeds. -/
theorem exists_execute_of_consistent (hdb : Consistent db) (hknown : statement.Known)
    (h : Consistent (statement.outcome db now)) : ∃ r, db.execute now statement = .ok r := by
  cases statement with
  | insert t row =>
    exact ⟨_, insert_eq_ok_iff.2 ⟨hknown, breach?_insert h, rfl, rfl⟩⟩
  | update t filter payload =>
    obtain ⟨p, hp⟩ : ∃ p, db.updateRows t filter payload now [] (db.rows t) = .ok p := by
      refine exists_updateRows_of_breach? fun front row rest revised hrows hrev => ?_
      rw [List.nil_append]
      exact breach?_revise hdb h hrows hrev
    exact ⟨_, update_eq_ok_iff.2 ⟨hknown.1, hknown.2, p.1, hp, rfl⟩⟩
  | delete t filter =>
    exact ⟨_, delete_eq_ok_iff.2 ⟨hknown, fun row hrow => referenced?_doomed hdb h hrow, rfl, rfl⟩⟩

/-- **The checks are sound and complete.** On a consistent database, a statement succeeds just when
the columns that it names are known and its outcome is consistent; it then leads to this outcome. -/
theorem execute_eq_ok_iff (hdb : Consistent db) :
    db.execute now statement = .ok (next, n) ↔
      statement.Known ∧ Consistent (statement.outcome db now) ∧
        next = statement.outcome db now ∧ n = statement.touched db := by
  constructor
  · intro h
    obtain ⟨hknown, hnext, hcount⟩ := outcome_of_execute h
    exact ⟨hknown, hnext ▸ hdb.execute h, hnext, hcount⟩
  · rintro ⟨hknown, houtcome, rfl, rfl⟩
    obtain ⟨⟨next, n⟩, h⟩ := exists_execute_of_consistent hdb hknown houtcome
    obtain ⟨-, hnext, hcount⟩ := outcome_of_execute h
    rw [h, hnext, hcount]

/-- **The checks are exact.** On a consistent database, a statement of known columns succeeds if and
only if its outcome is consistent, and then leads to the outcome and counts the rows that it
touched. A statement that names an unknown column fails on every database. A transaction whose
statement fails has the same copy and journal as before. -/
theorem execute_exact (db : Database) (now : Timestamp) (statement : Statement) :
    (Consistent db → ∀ next n, db.execute now statement = .ok (next, n) ↔
      statement.Known ∧ Consistent (statement.outcome db now) ∧
        next = statement.outcome db now ∧ n = statement.touched db) ∧
    (¬statement.Known → ∃ b, db.execute now statement = .error b) ∧
    ∀ b, db.execute now statement = .error b → ∀ journal,
      (Transaction.execute now statement ⟨db, journal⟩).2 = ⟨db, journal⟩ := by
  refine ⟨fun hdb next n => execute_eq_ok_iff hdb, fun hunknown => ?_, fun b hfails journal => ?_⟩
  · rcases hexecute : db.execute now statement with b | ⟨next, n⟩
    · exact ⟨b, rfl⟩
    · exact absurd (outcome_of_execute hexecute).1 hunknown
  · have hcopy : (Transaction.mk db journal).snapshot.execute now statement = .error b := hfails
    rw [Transaction.execute_error hcopy]

/-- A session that commits two parents. -/
def twoParents : List (Timestamp × Step) :=
  let parent (uuid login : String) : RawOperation := .insert .parentAuths (.ofList
    [("parent_uuid", .text uuid), ("parent_id", .text login), ("parent_pw", .text "hash")])
  [(.ofSeconds 1, .begin .rows "a"),
    (.ofSeconds 2, .operateRaw "a" (parent "p1" "mother")),
    (.ofSeconds 3, .operateRaw "a" (parent "p2" "father")),
    (.ofSeconds 4, .commit "a")]

/-- One of two parents may take a new login. If both are to take it, the first row passes its
checks, the second does not, and the outcome has the login twice. -/
theorem execute_exact_twoParents :
    let db := (Session.new.run twoParents).committed
    let now := Timestamp.ofSeconds 5
    let login := Columns.ofList [("parent_id", .text "parent")]
    let one := Statement.update .parentAuths (.ofList [("parent_uuid", .text "p1")]) login
    let both := Statement.update .parentAuths ∅ login
    Consistent db ∧ Consistent (one.outcome db now) ∧ one.touched db = 1 ∧
      ¬Consistent (both.outcome db now) ∧
      ∃ b, db.execute now (.delete .parentAuths (.ofList [("nickname", .null)])) = .error b := by
  intro db now login one both
  have hdb : Consistent db := (Session.throughout_consistent twoParents).committed
  have hone : ((db.execute now one).map Prod.snd).toOption = some 1 := by rfl
  have hboth : (db.execute now both).isOk = false := by rfl
  have hlogin : ∀ name ∈ login.names, (Table.parentAuths.column? name).isSome = true := by decide
  rcases hexecute : db.execute now one with b | ⟨next, n⟩
  · rw [hexecute] at hone
    cases hone
  · rw [hexecute] at hone
    obtain ⟨-, houtcome, -, hcount⟩ := ((execute_exact db now one).1 hdb next n).1 hexecute
    refine ⟨hdb, houtcome, hcount.symm.trans (Option.some.inj hone), fun houtcome => ?_, ?_⟩
    · -- were the outcome consistent, the update would have succeeded
      have hexecute := ((execute_exact db now both).1 hdb _ _).2
        ⟨⟨hlogin, by simp⟩, houtcome, rfl, rfl⟩
      rw [hexecute] at hboth
      cases hboth
    · refine (execute_exact db now _).2.1 fun hknown => ?_
      have hcolumn : (Table.parentAuths.column? "nickname").isSome = true := hknown _ (by decide)
      exact absurd hcolumn (by decide)

end Database

end Rollbook
