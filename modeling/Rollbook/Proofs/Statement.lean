import Mathlib.Data.List.Basic
import Rollbook.Proofs.Results
import Rollbook.Store.Database

/-!
# Rollbook — what a statement that succeeds has done

Each check of the engine read as a statement about rows, and each statement described by the state
that it leaves. An update visits its rows one by one and checks each beside a list that is half old
and half new, so what it does is told as a step on that list (`updateRows_induction`): what every
such step keeps, the update keeps.

Main results:

* `breach?_eq_none_iff` — the four checks of a row, as one bundle of facts.
* `insert_eq_ok_iff`, `update_eq_ok_iff`, `delete_eq_ok_iff` — when a statement succeeds, and with
  which state and count.
* `updateRows_eq_ok` — the rows that an update leaves are the old ones, each revised in its place.
-/

namespace Rollbook

/-- The table whose rows a statement changes. -/
def Statement.table : Statement → Table
  | insert t _ => t
  | update t _ _ => t
  | delete t _ => t

/-- The columns that the statement names are columns of its table. -/
def Statement.Known : Statement → Prop
  | .insert t row => ∀ name ∈ row.names, (t.column? name).isSome = true
  | .update t filter payload =>
    (∀ name ∈ payload.names, (t.column? name).isSome = true) ∧
      ∀ name ∈ filter.names, (t.column? name).isSome = true
  | .delete t filter => ∀ name ∈ filter.names, (t.column? name).isSome = true

/-- The table and the columns of an insertion. -/
def Statement.insertion? : Statement → Option (Table × Columns)
  | .insert t columns => some (t, columns)
  | _ => none

namespace Database

variable {db next : Database} {t : Table} {filter payload : Columns} {now : Timestamp} {n : Nat}

@[simp] theorem set_rows (db : Database) (t : Table) : db.set t (db.rows t) = db := by
  ext1
  funext t'
  rw [rows_set]
  split
  · next h => rw [h]
  · rfl

-- ---------------------------------------------------------------------------
-- The checks
-- ---------------------------------------------------------------------------

/-- A clause passes when all columns that it names are known. -/
theorem unknownColumn?_eq_none_iff {columns : Columns} (clause : Clause) :
    unknownColumn? t columns clause = none ↔
      ∀ name ∈ columns.names, (t.column? name).isSome = true := by
  rw [unknownColumn?, Option.map_eq_none_iff, List.find?_eq_none]
  simp only [Bool.not_eq_true, Option.isNone_eq_false_iff]

/-- A row passes when no column that must have a value is null. -/
theorem nullColumn?_eq_none_iff {row : Row} :
    nullColumn? t row = none ↔
      ∀ c ∈ t.columns, c.nullable = false → row.get c.name ≠ .null := by
  rw [nullColumn?, Option.map_eq_none_iff, List.find?_eq_none]
  simp only [Bool.and_eq_true, Bool.not_eq_true', Value.isNull_iff, not_and, ne_eq]

/-- A row passes when no other row has its value in a key; null is no value in this sense, and may
be had by several. -/
theorem duplicate?_eq_none_iff {others : List Row} {row : Row} :
    duplicate? t others row = none ↔
      ∀ c ∈ t.columns, t.isKey c = true → row.get c.name ≠ .null →
        ∀ o ∈ others, o.get c.name ≠ row.get c.name := by
  rw [duplicate?, Option.map_eq_none_iff, List.find?_eq_none]
  simp only [Bool.and_eq_true, Bool.not_eq_true', List.any_eq_true, decide_eq_true_eq, not_and,
    not_exists, and_imp, ne_eq, ← Value.isNull_iff, Bool.not_eq_true]

theorem noReferent?_eq_none_iff {row : Row} :
    db.noReferent? t row = none ↔
      ∀ fk ∈ t.foreignKeys, row.get fk.column ≠ .null →
        ∃ r ∈ db.rows fk.refTable, r.get fk.refColumn = row.get fk.column := by
  rw [noReferent?, Option.map_eq_none_iff, List.find?_eq_none]
  simp only [Bool.and_eq_true, Bool.not_eq_true', List.any_eq_false, decide_eq_true_eq, not_and,
    not_forall, not_not, exists_prop, ne_eq, ← Value.isNull_iff, Bool.not_eq_true]

/-- The referrers of a table are the foreign keys that name it. -/
theorem mem_referrers_iff {child : Table} {fk : ForeignKey} :
    (child, fk) ∈ referrers t ↔ fk ∈ child.foreignKeys ∧ fk.refTable = t := by
  simp only [referrers, List.mem_flatMap, List.mem_map, List.mem_filter, decide_eq_true_eq,
    Prod.mk.injEq]
  constructor
  · rintro ⟨_, -, _, ⟨hmem, href⟩, rfl, rfl⟩
    exact ⟨hmem, href⟩
  · rintro ⟨hmem, href⟩
    exact ⟨child, Table.mem_all child, fk, ⟨hmem, href⟩, rfl, rfl⟩

/-- A row is not referenced when nobody refers to a value that it gives up. -/
theorem referenced?_eq_none_iff {row : Row} {successor : Option Row} :
    db.referenced? t row successor = none ↔
      ∀ child fk, fk ∈ child.foreignKeys → fk.refTable = t → row.get fk.refColumn ≠ .null →
        (∀ s, successor = some s → s.get fk.refColumn ≠ row.get fk.refColumn) →
          ∀ r ∈ db.rows child, r.get fk.column ≠ row.get fk.refColumn := by
  rw [referenced?, Option.map_eq_none_iff, List.find?_eq_none]
  constructor
  · intro h child fk hmem href hnull hgone r hr heq
    refine h (child, fk) (mem_referrers_iff.2 ⟨hmem, href⟩) ?_
    -- a value that the successor keeps is not given up
    have hany : (successor.any fun s => s.get fk.refColumn = row.get fk.refColumn) = false := by
      cases successor with
      | none => rfl
      | some s => simpa using hgone s rfl
    simp only [Bool.and_eq_true, Bool.not_eq_true', List.any_eq_true, decide_eq_true_eq]
    exact ⟨⟨by simpa [Bool.eq_false_iff] using hnull, hany⟩, r, hr, heq⟩
  · rintro h ⟨child, fk⟩ hp hfail
    obtain ⟨hmem, href⟩ := mem_referrers_iff.1 hp
    simp only [Bool.and_eq_true, Bool.not_eq_true', List.any_eq_true, decide_eq_true_eq] at hfail
    obtain ⟨⟨hnull, hany⟩, r, hr, heq⟩ := hfail
    refine h child fk hmem href (by simpa [Bool.eq_false_iff] using hnull) ?_ r hr heq
    rintro s rfl
    simpa using hany

/-- A row stands beside the others when it holds what it must, leaves no reference behind, shares no
key and refers to rows that exist. -/
theorem breach?_eq_none_iff {others : List Row} {old : Option Row} {row : Row} :
    db.breach? t others old row = none ↔
      nullColumn? t row = none ∧
      (∀ o, old = some o → db.referenced? t o (some row) = none) ∧
      duplicate? t others row = none ∧
      db.noReferent? t row = none := by
  have hold : (old.bind fun o => db.referenced? t o (some row)) = none ↔
      ∀ o, old = some o → db.referenced? t o (some row) = none := by
    cases old with
    | none => simp
    | some o => simp
  rw [← hold, breach?]
  cases nullColumn? t row <;> cases old.bind fun o => db.referenced? t o (some row) <;>
    cases duplicate? t others row <;> simp

-- ---------------------------------------------------------------------------
-- Insertion and deletion
-- ---------------------------------------------------------------------------

/-- An insert succeeds when its columns are known and the completed row breaks nothing, and then
that row stands behind the others. -/
theorem insert_eq_ok_iff {row : Columns} :
    db.insert t row now = .ok (next, n) ↔
      (∀ name ∈ row.names, (t.column? name).isSome = true) ∧
      db.breach? t (db.rows t) none (complete t row now) = none ∧
      next = db.set t (db.rows t ++ [complete t row now]) ∧ n = 1 := by
  rw [← unknownColumn?_eq_none_iff .fieldList, insert]
  cases unknownColumn? t row .fieldList with
  | some b => simp
  | none =>
    cases hb : db.breach? t (db.rows t) none (complete t row now) with
    | some b => simp [hb]
    | none => simp [hb, eq_comm]

/-- A completed row has exactly the columns of the table. -/
theorem mem_names_complete {row : Columns} {name : String} :
    name ∈ (complete t row now).names ↔ ∃ c ∈ t.columns, c.name = name := by
  rw [Columns.mem_names_iff, get?_complete, ← Table.column?_isSome_iff]
  cases t.column? name <;> simp

/-- A completed row holds what it was given, except for the moments. -/
theorem get_complete {row : Columns} {name : String}
    (hknown : (t.column? name).isSome = true) (hkind : t.isTimestamp name = false) :
    (complete t row now).get name = row.get name := by
  obtain ⟨c, hc⟩ := Option.isSome_iff_exists.1 hknown
  have hname : c.name = name := by simpa using List.find?_some hc
  have hother : c.kind ≠ .timestamp := by
    rw [Table.isTimestamp, hc] at hkind
    simpa using hkind
  rw [Columns.get, get?_complete, hc, Option.map_some, Option.getD_some, hname, if_neg hother]
  rfl

theorem get_complete_identityKey (row : Columns) (now : Timestamp) :
    (complete t row now).get t.identityKey = row.get t.identityKey :=
  get_complete (Table.column?_isSome_iff.2 t.exists_identity) Table.not_isTimestamp_identityKey

/-- A row that is inserted has an identity that no row had. -/
theorem get_identityKey_ne_of_insert {row : Columns} (h : db.insert t row now = .ok (next, n)) :
    ∀ o ∈ db.rows t, o.get t.identityKey ≠ row.get t.identityKey := by
  obtain ⟨-, hbreach, -⟩ := insert_eq_ok_iff.1 h
  obtain ⟨hnull, -, hduplicate, -⟩ := breach?_eq_none_iff.1 hbreach
  obtain ⟨c, hc, hname⟩ := t.exists_identity
  have hkey : t.isKey c = true := by simp [Table.isKey, hname]
  have hvalue : (complete t row now).get c.name ≠ .null :=
    nullColumn?_eq_none_iff.1 hnull c hc (Table.not_nullable_of_isKey c hc hkey)
  have hothers := duplicate?_eq_none_iff.1 hduplicate c hc hkey hvalue
  rwa [hname, get_complete_identityKey] at hothers

/-- A moment that was not given is now. -/
theorem get_complete_moment {row : Columns} {name : String} (hkind : t.isTimestamp name = true)
    (hnone : row.get? name = none) : (complete t row now).get name = .timestamp now := by
  rw [Table.isTimestamp, Option.any_eq_true] at hkind
  obtain ⟨c, hc, hmoment⟩ := hkind
  have hname : c.name = name := by simpa using List.find?_some hc
  rw [Columns.get, get?_complete, hc, Option.map_some, Option.getD_some, hname, hnone,
    Option.getD_none, if_pos (of_decide_eq_true hmoment)]

/-- A delete succeeds when its filter is known and none of the rows it meets is referred to. It then
takes all of them, which may be none. -/
theorem delete_eq_ok_iff :
    db.delete t filter = .ok (next, n) ↔
      (∀ name ∈ filter.names, (t.column? name).isSome = true) ∧
      (∀ row ∈ db.select t filter, db.referenced? t row none = none) ∧
      next = db.set t ((db.rows t).filter fun row => !row.meets filter) ∧
      n = (db.select t filter).length := by
  rw [← unknownColumn?_eq_none_iff .whereClause, ← List.findSome?_eq_none_iff, delete]
  cases unknownColumn? t filter .whereClause with
  | some b => simp
  | none =>
    cases hb : (db.select t filter).findSome? fun row => db.referenced? t row none with
    | some b => simp [hb]
    | none => simp [hb, eq_comm]

-- ---------------------------------------------------------------------------
-- Updates
-- ---------------------------------------------------------------------------

/-- The row that an update puts in the place of a row. -/
def revise (filter payload : Columns) (now : Timestamp) (row : Row) : Row :=
  (revised? filter payload now row).getD row

theorem revise_of_revised? {row revised : Row}
    (h : revised? filter payload now row = some revised) :
    revise filter payload now row = revised := by
  rw [revise, h, Option.getD_some]

/-- A row is revised when it is met and the new values differ from its own, and then its moment is
set as well. -/
theorem revised?_eq_some_iff {row next : Row} :
    revised? filter payload now row = some next ↔
      row.meets filter = true ∧ row.overlay payload ≠ row ∧
      next = (row.overlay payload).insert updatedAtKey (.timestamp now) := by
  rw [revised?]
  split
  · next h => simp [h.1, h.2, eq_comm]
  · next h =>
    simp only [reduceCtorEq, false_iff]
    rintro ⟨hmeets, hne, -⟩
    exact h ⟨hmeets, hne⟩

/-- A row that is not met, or has all the new values already, is left with its moment. -/
theorem revised?_eq_none_iff (now : Timestamp) {row : Row} :
    revised? filter payload now row = none ↔
      (row.meets filter = true → row.overlay payload = row) := by
  rw [revised?]
  split
  · next h => simp [h.1, h.2]
  · next h => simpa using h

/-- A revised row has exactly the columns of the table if the row had them. -/
theorem mem_names_revised {row revised : Row}
    (hrow : ∀ name, name ∈ row.names ↔ ∃ c ∈ t.columns, c.name = name)
    (hknown : ∀ name ∈ payload.names, (t.column? name).isSome = true)
    (hrev : revised? filter payload now row = some revised) {name : String} :
    name ∈ revised.names ↔ ∃ c ∈ t.columns, c.name = name := by
  obtain ⟨-, -, rfl⟩ := revised?_eq_some_iff.1 hrev
  rw [Columns.mem_names_insert, Columns.mem_names_overlay, hrow]
  constructor
  · rintro (rfl | hpayload | hcolumn)
    · exact t.exists_updatedAt
    · exact Table.column?_isSome_iff.1 (hknown name hpayload)
    · exact hcolumn
  · exact fun hcolumn => .inr (.inr hcolumn)

/-- A revised row holds the new values, except for the moment of its last change. -/
theorem get_revise {row : Row} {name : String}
    (hname : name ≠ updatedAtKey) :
    (revise filter payload now row).get name =
      if row.meets filter = true then (payload.get? name).getD (row.get name)
      else row.get name := by
  rw [revise]
  cases hrev : revised? filter payload now row with
  | none =>
    rw [Option.getD_none]
    split
    · next hmeets =>
      -- a row that is met and not revised has the new values already
      have hsame := (revised?_eq_none_iff now).1 hrev hmeets
      rw [← Columns.get_overlay, hsame]
    · rfl
  | some revised =>
    obtain ⟨hmeets, -, rfl⟩ := revised?_eq_some_iff.1 hrev
    rw [Option.getD_some, if_pos hmeets, ← Columns.get_overlay, Columns.get,
      Columns.get?_insert_of_ne _ _ hname]
    rfl

/-- An update succeeds when the columns that it sets and those that it asks for are known and its
visit of the rows succeeds, which gives the new rows of the table. -/
theorem update_eq_ok_iff :
    db.update t filter payload now = .ok (next, n) ↔
      (∀ name ∈ payload.names, (t.column? name).isSome = true) ∧
      (∀ name ∈ filter.names, (t.column? name).isSome = true) ∧
      ∃ rows, db.updateRows t filter payload now [] (db.rows t) = .ok (rows, n) ∧
        next = db.set t rows := by
  rw [← unknownColumn?_eq_none_iff .fieldList,
    ← unknownColumn?_eq_none_iff .whereClause, update]
  cases unknownColumn? t payload .fieldList with
  | some b => simp
  | none =>
    cases unknownColumn? t filter .whereClause with
    | some b => simp
    | none =>
      show Except.map (fun p : List Row × Nat => (db.set t p.1, p.2)) _ = _ ↔ _
      simp only [map_eq_ok_iff, Prod.mk.injEq, true_and, Prod.exists]
      constructor
      · rintro ⟨rows, _, hrows, rfl, rfl⟩
        exact ⟨rows, hrows, rfl⟩
      · rintro ⟨rows, hrows, rfl⟩
        exact ⟨rows, n, hrows, rfl, rfl⟩

/-- Whatever holds of the rows at first, and stays when one row gives way to a revision of it that
passes the checks beside the rest, holds of the rows that the update leaves. -/
theorem updateRows_induction {motive : List Row → Prop} {done rows left : List Row}
    (h : db.updateRows t filter payload now done rows = .ok (left, n))
    (hstep : ∀ front row rest next, motive (front ++ row :: rest) →
      revised? filter payload now row = some next →
      db.breach? t (front ++ rest) (some row) next = none → motive (front ++ next :: rest))
    (hstart : motive (done ++ rows)) : motive left := by
  induction rows generalizing done n with
  | nil =>
    rw [updateRows] at h
    cases h
    simpa using hstart
  | cons row rest ih =>
    rw [updateRows] at h
    split at h
    -- the row stays as it is
    · exact ih h (by simpa using hstart)
    · next next hrev =>
      split at h
      · cases h
      · -- the revised row joins the rows that are done, and the motive holds with it in place
        next hb =>
        obtain ⟨p, hp, heq⟩ := map_eq_ok_iff.1 h
        cases heq
        exact ih hp (by simpa using hstep done row rest next hstart hrev hb)

/-- What an update leaves are the rows in their old order, each of them revised, and it counts those
that it revised. -/
theorem updateRows_eq_ok {done rows left : List Row}
    (h : db.updateRows t filter payload now done rows = .ok (left, n)) :
    left = done ++ rows.map (revise filter payload now) ∧
      n = rows.countP fun row => (revised? filter payload now row).isSome := by
  induction rows generalizing done n with
  | nil =>
    rw [updateRows] at h
    cases h
    simp
  | cons row rest ih =>
    rw [updateRows] at h
    split at h
    · next hrev =>
      obtain ⟨hleft, hcount⟩ := ih h
      simp [hleft, hcount, revise, hrev]
    · next next hrev =>
      split at h
      · cases h
      · obtain ⟨p, hp, heq⟩ := map_eq_ok_iff.1 h
        cases heq
        obtain ⟨hleft, hcount⟩ := ih hp
        simp [hleft, hcount, revise, hrev]

end Database

end Rollbook
