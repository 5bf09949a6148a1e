import Mathlib.Data.List.Nodup
import Rollbook.Proofs.Course

/-!
# Rollbook — integrity of the tables

A database is consistent when each row has the shape of its table, no two rows share a key, and
every reference finds its row. The engine checks one row of one statement at a time, an insertion
only towards the tables that the row refers to and a deletion only towards those that refer to it.

* `Consistent.execute` — this is enough for all seven tables together.
* `consistent_run`     — whatever transactions do beside each other, no state of a session is
  inconsistent.
-/

namespace Rollbook

/-- The shape of a row: exactly the columns of the table, and a value where one must be. -/
structure Table.Fits (t : Table) (row : Row) : Prop where
  columns : ∀ name, name ∈ row.names ↔ ∃ c ∈ t.columns, c.name = name
  notNull : ∀ c ∈ t.columns, c.nullable = false → row.get c.name ≠ .null

namespace Database

/-- Every reference of the row finds its row. -/
def RefersWell (db : Database) (t : Table) (row : Row) : Prop :=
  ∀ fk ∈ t.foreignKeys, row.get fk.column ≠ .null →
    ∃ r ∈ db.rows fk.refTable, r.get fk.refColumn = row.get fk.column

/-- No two rows agree on the identity or on a unique column. -/
def DistinctKeys (t : Table) (rows : List Row) : Prop :=
  ∀ c ∈ t.columns, t.isKey c = true → (rows.map fun row => row.get c.name).Nodup

/-- The constraints of the schema. -/
structure Consistent (db : Database) : Prop where
  fits       : ∀ t, ∀ row ∈ db.rows t, t.Fits row
  keys       : ∀ t, DistinctKeys t (db.rows t)
  references : ∀ t, ∀ row ∈ db.rows t, db.RefersWell t row

theorem consistent_empty : Consistent empty where
  fits := by simp [empty]
  keys := by simp [empty, DistinctKeys]
  references := by simp [empty]

variable {db next : Database} {t : Table} {filter payload : Columns} {now : Timestamp} {n : Nat}

-- ---------------------------------------------------------------------------
-- Rows
-- ---------------------------------------------------------------------------

/-- A completed row has all columns of its table and no others, and the engine has looked for nulls
in it. -/
theorem fits_complete {row : Columns} (hnull : nullColumn? t (complete t row now) = none) :
    t.Fits (complete t row now) where
  columns _ := mem_names_complete
  notNull := nullColumn?_eq_none_iff.1 hnull

/-- A revised row has the columns it had before, because an update sets known columns only. -/
theorem fits_revised {row revised : Row} (h : t.Fits row)
    (hknown : ∀ name ∈ payload.names, (t.column? name).isSome = true)
    (hrev : revised? filter payload now row = some revised)
    (hnull : nullColumn? t revised = none) : t.Fits revised where
  columns _ := mem_names_revised h.columns hknown hrev
  notNull := nullColumn?_eq_none_iff.1 hnull

/-- A row that shares no key with the others can stand beside them. -/
theorem distinctKeys_cons {others : List Row} {row : Row} (h : DistinctKeys t others)
    (hnull : nullColumn? t row = none) (hdup : duplicate? t others row = none) :
    DistinctKeys t (row :: others) := by
  intro c hc hkey
  rw [List.map_cons, List.nodup_cons]
  refine ⟨?_, h c hc hkey⟩
  have hvalue : row.get c.name ≠ .null :=
    nullColumn?_eq_none_iff.1 hnull c hc (Table.not_nullable_of_isKey c hc hkey)
  intro hmem
  obtain ⟨o, ho, heq⟩ := List.mem_map.1 hmem
  exact duplicate?_eq_none_iff.1 hdup c hc hkey hvalue o ho heq

/-- The order of the rows does not matter for their keys. -/
theorem DistinctKeys.perm {rows rows' : List Row} (h : DistinctKeys t rows)
    (hperm : rows.Perm rows') : DistinctKeys t rows' :=
  fun c hc hkey => (hperm.map _).nodup_iff.1 (h c hc hkey)

theorem DistinctKeys.sublist {rows rows' : List Row} (h : DistinctKeys t rows)
    (hsub : rows'.Sublist rows) : DistinctKeys t rows' :=
  fun c hc hkey => (h c hc hkey).sublist (hsub.map _)

/-- No two rows have the same identity. -/
theorem Consistent.identity_nodup (h : Consistent db) (t : Table) :
    ((db.rows t).map fun row => row.get t.identityKey).Nodup := by
  obtain ⟨c, hc, hname⟩ := t.exists_identity
  have hkey : t.isKey c = true := by simp [Table.isKey, hname]
  have hnodup := h.keys t c hc hkey
  rw [hname] at hnodup
  exact hnodup

-- ---------------------------------------------------------------------------
-- Statements
-- ---------------------------------------------------------------------------

/-- An insert that is accepted keeps the tables consistent: the new row passes the checks, and the
references of the old ones still hold, since rows are only added. -/
theorem Consistent.insert {row : Columns} (h : Consistent db)
    (hins : db.insert t row now = .ok (next, n)) : Consistent next := by
  obtain ⟨-, hbreach, rfl, -⟩ := insert_eq_ok_iff.1 hins
  obtain ⟨hnull, -, hdup, href⟩ := breach?_eq_none_iff.1 hbreach
  -- rows are only added, so what referred to a row still does
  have hgrow : ∀ t', ∀ r ∈ db.rows t',
      r ∈ (db.set t (db.rows t ++ [complete t row now])).rows t' := by
    intro t' r hr
    rw [rows_set]
    split
    · next ht => exact List.mem_append_left _ (ht ▸ hr)
    · exact hr
  -- every row is an old one or the new one
  have hmem : ∀ t' r, r ∈ (db.set t (db.rows t ++ [complete t row now])).rows t' →
      r ∈ db.rows t' ∨ t' = t ∧ r = complete t row now := by
    intro t' r hr
    rw [rows_set] at hr
    split at hr
    · next ht =>
      subst ht
      simpa using hr
    · exact .inl hr
  refine ⟨?_, ?_, ?_⟩
  · intro t' r hr
    rcases hmem t' r hr with hold | ⟨rfl, rfl⟩
    · exact h.fits t' r hold
    · exact fits_complete hnull
  · intro t'
    by_cases ht : t' = t
    · subst ht
      rw [rows_set_self]
      exact (distinctKeys_cons (h.keys t') hnull hdup).perm
        (List.perm_append_singleton _ _).symm
    · -- the other tables are as they were
      rw [rows_set_of_ne _ _ ht]
      exact h.keys t'
  · intro t' r hr fk hfk hvalue
    have hfound : ∃ p ∈ db.rows fk.refTable, p.get fk.refColumn = r.get fk.column := by
      rcases hmem t' r hr with hold | ⟨rfl, rfl⟩
      · exact h.references t' r hold fk hfk hvalue
      · exact noReferent?_eq_none_iff.1 href fk hfk hvalue
    obtain ⟨p, hp, heq⟩ := hfound
    exact ⟨p, hgrow _ p hp, heq⟩

/-- A delete that is accepted keeps the tables consistent: keys and columns of the rows that stay
are as they were, and no reference of theirs is left without its row. -/
theorem Consistent.delete (h : Consistent db) (hdel : db.delete t filter = .ok (next, n)) :
    Consistent next := by
  obtain ⟨-, hfree, rfl, -⟩ := delete_eq_ok_iff.1 hdel
  -- every row that is left was there before
  have hmem : ∀ t' r, r ∈ (db.set t ((db.rows t).filter fun row => !row.meets filter)).rows t' →
      r ∈ db.rows t' := by
    intro t' r hr
    rw [rows_set] at hr
    split at hr
    · next ht => exact ht ▸ (List.mem_filter.1 hr).1
    · exact hr
  refine ⟨fun t' r hr => h.fits t' r (hmem t' r hr), ?_, ?_⟩
  · intro t'
    by_cases ht : t' = t
    · subst ht
      rw [rows_set_self]
      exact (h.keys t').sublist List.filter_sublist
    · rw [rows_set_of_ne _ _ ht]
      exact h.keys t'
  · intro t' r hr fk hfk hvalue
    obtain ⟨p, hp, heq⟩ := h.references t' r (hmem t' r hr) fk hfk hvalue
    refine ⟨p, ?_, heq⟩
    by_cases ht : fk.refTable = t
    · -- the row referred to is none of those that go, for those are free of references
      rw [ht, rows_set_self]
      rw [ht] at hp
      have hr' : r ∈ db.rows t' := hmem t' r hr
      refine List.mem_filter.2 ⟨hp, ?_⟩
      by_contra hmeets
      rw [Bool.not_eq_true, Bool.not_eq_false'] at hmeets
      have hdoomed : p ∈ db.select t filter := List.mem_filter.2 ⟨hp, hmeets⟩
      exact referenced?_eq_none_iff.1 (hfree p hdoomed) t' fk hfk ht (heq ▸ hvalue)
        (by simp) r hr' heq.symm
    · rw [rows_set_of_ne _ _ ht]
      exact hp

/-- The rows of an update, each visited when the ones before it have been revised, fit their table,
refer to rows and keep their keys apart. The induction is on the visited rows, and what it carries
is about the list as it stands by then, since the keys of a row are checked against the rows on both
sides of it. -/
theorem Consistent.updateRows {rows : List Row} (h : Consistent db)
    (hknown : ∀ name ∈ payload.names, (t.column? name).isSome = true)
    (hrows : db.updateRows t filter payload now [] (db.rows t) = .ok (rows, n)) :
    (∀ row ∈ rows, t.Fits row ∧ db.RefersWell t row) ∧ DistinctKeys t rows := by
  refine updateRows_induction (motive := fun rows =>
    (∀ row ∈ rows, t.Fits row ∧ db.RefersWell t row) ∧ DistinctKeys t rows) hrows ?_ ?_
  · -- the rows in front are revised and those behind are not, and the visited one is checked
    -- against both
    rintro front row rest revised ⟨hown, hkeys⟩ hrev hbreach
    obtain ⟨hnull, -, hdup, href⟩ := breach?_eq_none_iff.1 hbreach
    constructor
    · intro r hr
      rcases List.mem_append.1 hr with hfront | hrest
      · exact hown r (List.mem_append_left _ hfront)
      · rcases List.mem_cons.1 hrest with rfl | hrest
        · have hfits := (hown row (by simp)).1
          exact ⟨fits_revised hfits hknown hrev hnull, noReferent?_eq_none_iff.1 href⟩
        · exact hown r (by simp [hrest])
    · -- the list is a permutation of one with the visited row in front
      have hothers : DistinctKeys t (front ++ rest) :=
        hkeys.sublist ((List.sublist_cons_self row rest).append_left front)
      exact (distinctKeys_cons hothers hnull hdup).perm List.perm_middle.symm
  · exact ⟨fun row hrow => ⟨h.fits t row hrow, h.references t row hrow⟩, h.keys t⟩

/-- After an update of the table that it refers to, a row still finds what it refers to. -/
theorem exists_referent_updateRows {rows : List Row} {child : Table} {fk : ForeignKey} {r : Row}
    (hrows : db.updateRows t filter payload now [] (db.rows t) = .ok (rows, n))
    (hfk : fk ∈ child.foreignKeys) (hrefTable : fk.refTable = t)
    (hr : r ∈ db.rows child) (hvalue : r.get fk.column ≠ .null)
    (hfound : ∃ p ∈ db.rows t, p.get fk.refColumn = r.get fk.column) :
    ∃ p ∈ rows, p.get fk.refColumn = r.get fk.column := by
  refine updateRows_induction (motive := fun rows =>
    ∃ p ∈ rows, p.get fk.refColumn = r.get fk.column) hrows ?_ hfound
  rintro front row rest revised ⟨p, hp, heq⟩ - hbreach
  obtain ⟨-, hfree, -, -⟩ := breach?_eq_none_iff.1 hbreach
  rcases List.mem_append.1 hp with hfront | hrest
  · exact ⟨p, List.mem_append_left _ hfront, heq⟩
  · rcases List.mem_cons.1 hrest with rfl | hrest
    · -- the row referred to is revised: it may not give the value up
      refine ⟨revised, by simp, ?_⟩
      by_contra hgone
      refine referenced?_eq_none_iff.1 (hfree p rfl) child fk hfk hrefTable (heq ▸ hvalue) ?_
        r hr heq.symm
      rintro s hs
      cases hs
      exact fun hsame => hgone (hsame.trans heq)
    · exact ⟨p, by simp [hrest], heq⟩

/-- An update that is accepted keeps the tables consistent, within the table by what is carried over
its rows, and in the tables that refer to it because a referred value is never changed away. -/
theorem Consistent.update (h : Consistent db)
    (hup : db.update t filter payload now = .ok (next, n)) : Consistent next := by
  obtain ⟨hknown, -, rows, hrows, rfl⟩ := update_eq_ok_iff.1 hup
  obtain ⟨hown, hkeys⟩ := h.updateRows hknown hrows
  refine ⟨?_, ?_, ?_⟩
  · intro t' r hr
    by_cases ht : t' = t
    · subst ht
      rw [rows_set_self] at hr
      exact (hown r hr).1
    · rw [rows_set_of_ne _ _ ht] at hr
      exact h.fits t' r hr
  · intro t'
    by_cases ht : t' = t
    · subst ht
      rw [rows_set_self]
      exact hkeys
    · rw [rows_set_of_ne _ _ ht]
      exact h.keys t'
  · intro t' r hr fk hfk hvalue
    by_cases ht : t' = t
    · -- the changed table does not refer to itself
      subst ht
      rw [rows_set_self] at hr
      rw [rows_set_of_ne _ _ (Table.refTable_ne fk hfk)]
      exact (hown r hr).2 fk hfk hvalue
    · rw [rows_set_of_ne _ _ ht] at hr
      have hfound := h.references t' r hr fk hfk hvalue
      -- a reference into the changed table finds its row revised, any other finds it untouched
      by_cases href : fk.refTable = t
      · rw [href] at hfound ⊢
        rw [rows_set_self]
        exact exists_referent_updateRows hrows hfk href hr hvalue hfound
      · rw [rows_set_of_ne _ _ href]
        exact hfound

/-- **Every statement keeps the constraints.** -/
theorem Consistent.execute {statement : Statement} (h : Consistent db)
    (hrun : db.execute now statement = .ok (next, n)) : Consistent next := by
  cases statement with
  | insert t row => exact h.insert hrun
  | update t filter payload => exact h.update hrun
  | delete t filter => exact h.delete hrun

end Database

-- ---------------------------------------------------------------------------
-- Whole runs
-- ---------------------------------------------------------------------------

namespace Session

/-- Whatever the steps, the committed database and all open copies are consistent: a statement keeps
it wherever it is run, in an operation or in a replay. -/
theorem throughout_consistent (steps : List (Timestamp × Step)) :
    (new.run steps).Throughout Database.Consistent fun _ => True := by
  have hkeeps : Keeps Database.Consistent fun _ => True :=
    fun _ _ _ _ _ h _ hexecute => h.execute hexecute
  exact throughout_run hkeeps Database.consistent_empty fun _ _ _ _ _ _ => trivial

/-- **The constraints hold at every moment of every run**, in the committed state and in the copy of
every open transaction. -/
theorem consistent_run (steps : List (Timestamp × Step)) :
    (new.run steps).committed.Consistent ∧
      ∀ tx opened, (new.run steps).find? tx = some opened →
        opened.transaction.snapshot.Consistent :=
  ⟨(throughout_consistent steps).committed, (throughout_consistent steps).snapshot⟩

/-- A transaction that begins after a parent has been committed. -/
def afterParent : List (Timestamp × Step) :=
  [(.ofSeconds 1, .begin .rows "a"),
    (.ofSeconds 2, .operateRaw "a" (.insert .parentAuths (.ofList
      [("parent_uuid", .text "p"), ("parent_id", .text "id"), ("parent_pw", .text "pw")]))),
    (.ofSeconds 3, .commit "a"),
    (.ofSeconds 4, .begin .rows "b")]

/-- A run with an open transaction that sees a parent's account. -/
theorem consistent_run_afterParent :
    ∃ opened, (new.run afterParent).find? "b" = some opened ∧
      (opened.transaction.snapshot.rows .parentAuths).length = 1 ∧
      opened.transaction.snapshot.Consistent := by
  have hrun : ((new.run afterParent).find? "b").map
      (fun opened => (opened.transaction.snapshot.rows .parentAuths).length) = some 1 := by rfl
  obtain ⟨opened, hopened, hlength⟩ := Option.map_eq_some_iff.1 hrun
  exact ⟨opened, hopened, hlength, (consistent_run _).2 "b" opened hopened⟩

end Session

end Rollbook
