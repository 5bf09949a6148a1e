import Rollbook.Store.Breach

/-!
# Rollbook — the database

The rows of the seven tables and the statements that change them. A statement is checked row by
row: no column that must hold a value may be empty, no row that others refer to may go, no key may
hold a value twice, and every reference must find its row. The first breach fails the statement as
a whole; `execute` then gives no new state.
-/

namespace Rollbook

/-- The rows of each table, in the order of their insertion. -/
@[ext]
structure Database where
  rows : Table → List Row

/-- A statement that changes rows. -/
inductive Statement where
  | insert (table : Table) (row : Columns)
  | update (table : Table) (filter payload : Columns)
  | delete (table : Table) (filter : Columns)
deriving DecidableEq

namespace Database

/-- The database without a row. -/
def empty : Database := ⟨fun _ => []⟩

instance : Inhabited Database := ⟨empty⟩

/-- The database with other rows in one table. -/
def set (db : Database) (t : Table) (rows : List Row) : Database :=
  ⟨fun t' => if t' = t then rows else db.rows t'⟩

/-- Setting the rows of a table is read back there, and nowhere else. -/
theorem rows_set (db : Database) (t t' : Table) (rows : List Row) :
    (db.set t rows).rows t' = if t' = t then rows else db.rows t' := rfl

@[simp] theorem rows_set_self (db : Database) (t : Table) (rows : List Row) :
    (db.set t rows).rows t = rows := by simp [set]

theorem rows_set_of_ne (db : Database) {t t' : Table} (rows : List Row) (h : t' ≠ t) :
    (db.set t rows).rows t' = db.rows t' := by simp [set, h]

/-- The rows of a table that meet a filter. -/
def select (db : Database) (t : Table) (filter : Columns) : List Row :=
  (db.rows t).filter fun row => row.meets filter

/-! ## Checks -/

/-- The first name, in the order of names, that is no column of the table. -/
def unknownColumn? (t : Table) (columns : Columns) (clause : Clause) : Option Breach :=
  (columns.names.find? fun n => (t.column? n).isNone).map (.unknownColumn · clause)

/-- The first column, in declared order, that must hold a value and does not. -/
def nullColumn? (t : Table) (row : Row) : Option Breach :=
  (t.columns.find? fun c => !c.nullable && (row.get c.name).isNull).map (.nullColumn ·.name)

/-- The first key column, in declared order, whose value another row holds already. -/
def duplicate? (t : Table) (others : List Row) (row : Row) : Option Breach :=
  (t.columns.find? fun c =>
      t.isKey c && !(row.get c.name).isNull
        && others.any fun o => o.get c.name = row.get c.name).map
    fun c => .duplicate ⟨t.keyName c.name, (row.get c.name).display⟩

/-- The first reference of a row that finds no row. -/
def noReferent? (db : Database) (t : Table) (row : Row) : Option Breach :=
  (t.foreignKeys.find? fun fk =>
      !(row.get fk.column).isNull
        && !(db.rows fk.refTable).any fun r => r.get fk.refColumn = row.get fk.column).map
    fun fk => .noReferent (fk.failure t)

/-- The foreign keys that refer to a table, with the tables they belong to, in table order. -/
def referrers (t : Table) : List (Table × ForeignKey) :=
  Table.all.flatMap fun child =>
    (child.foreignKeys.filter fun fk => fk.refTable = t).map fun fk => (child, fk)

/-- The first foreign key whose referred value a row gives up while some row still refers to it.
`next` is what becomes of the row, `none` if it goes. -/
def referenced? (db : Database) (t : Table) (row : Row) (next : Option Row) : Option Breach :=
  ((referrers t).find? fun p =>
      let value := row.get p.2.refColumn
      !value.isNull && !next.any (fun n => n.get p.2.refColumn = value)
        && (db.rows p.1).any fun r => r.get p.2.column = value).map
    fun p => .referenced (p.2.failure p.1)

/-- What is wrong with `next` as a row of the table beside `others`, where `old` is the row that it
replaces. -/
def breach? (db : Database) (t : Table) (others : List Row) (old : Option Row) (next : Row) :
    Option Breach :=
  nullColumn? t next
    <|> (old.bind fun row => db.referenced? t row (some next))
    <|> duplicate? t others next
    <|> db.noReferent? t next

/-! ## Statements -/

/-- A row of the table made of the given columns: an absent moment is now, and any other absent
column is nothing. -/
def complete (t : Table) (row : Columns) (now : Timestamp) : Row :=
  .ofList (t.columns.map fun c =>
    (c.name, (row.get? c.name).getD (if c.kind = .timestamp then .timestamp now else .null)))

/-- A completed row has the columns of the table and no other. -/
theorem get?_complete (t : Table) (row : Columns) (now : Timestamp) (name : String) :
    (complete t row now).get? name = (t.column? name).map fun c =>
      (row.get? c.name).getD (if c.kind = .timestamp then .timestamp now else .null) := by
  rw [complete, Columns.get?_ofList]
  · rw [Table.column?]
    induction t.columns with
    | nil => rfl
    | cons c rest ih =>
      rw [List.map_cons, List.lookup_cons, List.find?_cons, ih]
      by_cases hn : name = c.name
      · simp [hn]
      · simp [beq_eq_false_iff_ne.2 hn, Ne.symm hn]
  · rw [List.map_map]
    exact t.columns_nodup

def insert (db : Database) (t : Table) (row : Columns) (now : Timestamp) :
    Except Breach (Database × Nat) :=
  match unknownColumn? t row .fieldList with
  | some b => .error b
  | none =>
    let full := complete t row now
    match db.breach? t (db.rows t) none full with
    | some b => .error b
    | none => .ok (db.set t (db.rows t ++ [full]), 1)

/-- What an update makes of a row: `none` if the row does not meet the filter or holds all the new
values already. -/
def revised? (filter payload : Columns) (now : Timestamp) (row : Row) : Option Row :=
  let next := row.overlay payload
  if row.meets filter ∧ next ≠ row then some (next.insert updatedAtKey (.timestamp now)) else none

/-- Updates the rows of a table from the front. `done` are the rows that have been visited, and a
row is checked beside them and those still to come. The answer counts the rows that change. -/
def updateRows (db : Database) (t : Table) (filter payload : Columns) (now : Timestamp) :
    (done : List Row) → List Row → Except Breach (List Row × Nat)
  | done, [] => .ok (done, 0)
  | done, row :: rest =>
    match revised? filter payload now row with
    | none => db.updateRows t filter payload now (done ++ [row]) rest
    | some next =>
      match db.breach? t (done ++ rest) (some row) next with
      | some b => .error b
      | none => (db.updateRows t filter payload now (done ++ [next]) rest).map fun p =>
          (p.1, p.2 + 1)

def update (db : Database) (t : Table) (filter payload : Columns) (now : Timestamp) :
    Except Breach (Database × Nat) :=
  match unknownColumn? t payload .fieldList <|> unknownColumn? t filter .whereClause with
  | some b => .error b
  | none => (db.updateRows t filter payload now [] (db.rows t)).map fun p => (db.set t p.1, p.2)

def delete (db : Database) (t : Table) (filter : Columns) : Except Breach (Database × Nat) :=
  match unknownColumn? t filter .whereClause with
  | some b => .error b
  | none =>
    let doomed := db.select t filter
    match doomed.findSome? fun row => db.referenced? t row none with
    | some b => .error b
    | none => .ok (db.set t ((db.rows t).filter fun row => !row.meets filter), doomed.length)

/-- Runs a statement at a moment: the new state and the number of rows it touched, or what is wrong
with it. -/
def execute (db : Database) (now : Timestamp) : Statement → Except Breach (Database × Nat)
  | .insert t row => db.insert t row now
  | .update t filter payload => db.update t filter payload now
  | .delete t filter => db.delete t filter

end Database

end Rollbook
