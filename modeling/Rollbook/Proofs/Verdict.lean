import Rollbook.Proofs.ClientError

/-!
# Rollbook — what a statement is refused with

A statement that the engine refuses has a breach, which goes out as a number and a text and comes
back as a failure. Here the failure is told from the rows alone: the statement's names come first,
then its changes in table order, and for each change the empty columns, the references to what goes,
the keys and the references of what comes. Values enter a text only where a duplicate is reported,
and are read back whatever they hold.

* `Change.Refused`, `Statement.Refused` — the failure of a change and of a statement, without texts.
* `Change.refused_iff`    — the four checks of a change, with the way through the texts.
* `updateRows_eq_error_iff`, `findSome?_select_eq_some_iff` — an update of many rows and a deletion
  fail at the first row that is refused.
* `execute_eq_error_iff`  — the same for every statement, names included.
* `refused_exactly`       — the failures of a transaction's statements and of its commit.
-/

namespace Rollbook

-- ---------------------------------------------------------------------------
-- The first of a list
-- ---------------------------------------------------------------------------

section First

variable {α β γ : Type}

/-- The first member of a list that a property holds of. -/
def IsFirst (p : α → Prop) (xs : List α) (a : α) : Prop :=
  ∃ front back, xs = front ++ a :: back ∧ p a ∧ ∀ b ∈ front, ¬p b

theorem IsFirst.mem {p : α → Prop} {xs : List α} {a : α} (h : IsFirst p xs a) : a ∈ xs := by
  obtain ⟨front, back, rfl, -⟩ := h
  simp

theorem IsFirst.holds {p : α → Prop} {xs : List α} {a : α} (h : IsFirst p xs a) : p a := by
  obtain ⟨-, -, -, ha, -⟩ := h
  exact ha

/-- Where something is, something is first. -/
theorem exists_isFirst {p : α → Prop} {xs : List α} (h : ∃ a ∈ xs, p a) : ∃ a, IsFirst p xs a := by
  induction xs with
  | nil => simp at h
  | cons a xs ih =>
    by_cases ha : p a
    · exact ⟨a, [], xs, rfl, ha, nofun⟩
    · obtain ⟨b, front, back, rfl, hb, hfront⟩ := ih (by simpa [ha] using h)
      exact ⟨b, a :: front, back, rfl, hb, List.forall_mem_cons.2 ⟨ha, hfront⟩⟩

/-- Being first depends on what the property says of the members only. -/
theorem isFirst_congr {p q : α → Prop} {xs : List α} {a : α} (h : ∀ a ∈ xs, p a ↔ q a) :
    IsFirst p xs a ↔ IsFirst q xs a := by
  refine exists_congr fun front => exists_congr fun back => and_congr_right fun hxs => ?_
  subst hxs
  exact and_congr (h a (by simp)) (forall₂_congr fun b hb => not_congr (h b (by simp [hb])))

/-- The head of a list comes first, or else the first of the tail. -/
theorem isFirst_cons {p : α → Prop} {xs : List α} {a b : α} :
    IsFirst p (a :: xs) b ↔ p a ∧ a = b ∨ ¬p a ∧ IsFirst p xs b := by
  constructor
  · rintro ⟨_ | ⟨c, front⟩, back, hxs, hb, hfront⟩
    · obtain ⟨rfl, -⟩ := List.cons.inj hxs
      exact .inl ⟨hb, rfl⟩
    · obtain ⟨rfl, rfl⟩ := List.cons.inj hxs
      obtain ⟨ha, hfront⟩ := List.forall_mem_cons.1 hfront
      exact .inr ⟨ha, front, back, rfl, hb, hfront⟩
  · rintro (⟨ha, rfl⟩ | ⟨ha, front, back, rfl, hb, hfront⟩)
    · exact ⟨[], xs, rfl, ha, nofun⟩
    · exact ⟨a :: front, back, rfl, hb, List.forall_mem_cons.2 ⟨ha, hfront⟩⟩

/-- What comes behind matters only if it has the property. -/
theorem isFirst_append {p : α → Prop} {xs ys : List α} {a : α} (h : ∀ b ∈ ys, ¬p b) :
    IsFirst p (xs ++ ys) a ↔ IsFirst p xs a := by
  induction xs with
  | nil =>
    refine iff_of_false (fun hfirst => h a hfirst.mem hfirst.holds) ?_
    exact fun hfirst => nomatch hfirst.mem
  | cons b xs ih => rw [List.cons_append, isFirst_cons, isFirst_cons, ih]

/-- The first of the images is the image of the first. -/
theorem isFirst_map_iff {p : β → Prop} {f : α → β} {xs : List α} {b : β} :
    IsFirst p (xs.map f) b ↔ ∃ a, IsFirst (fun a => p (f a)) xs a ∧ f a = b := by
  induction xs with
  | nil =>
    refine iff_of_false (fun hfirst => nomatch hfirst.mem) ?_
    rintro ⟨a, hfirst, -⟩
    exact nomatch hfirst.mem
  | cons a xs ih =>
    simp only [List.map_cons, isFirst_cons, ih, or_and_right, exists_or, and_assoc, exists_and_left]
    refine or_congr_left (and_congr_right fun _ => ?_)
    simp

/-- A search finds the first member with the property, as soon as its test decides it. -/
theorem find?_eq_some_iff_isFirst {p : α → Prop} {q : α → Bool} {xs : List α} {a : α}
    (hq : ∀ a, q a = true ↔ p a) : xs.find? q = some a ↔ IsFirst p xs a := by
  rw [List.find?_eq_some_iff_append, IsFirst, hq]
  simp only [Bool.not_eq_true', ← Bool.not_eq_true, hq]
  constructor
  · rintro ⟨ha, front, back, hxs, hfront⟩
    exact ⟨front, back, hxs, ha, hfront⟩
  · rintro ⟨front, back, hxs, ha, hfront⟩
    exact ⟨ha, front, back, hxs, hfront⟩

/-- A search with what may be there finds the first member, if there is something to search with. -/
theorem bind_find?_eq_some_iff {o : Option α} {p : α → β → Prop} {q : α → β → Bool} {g : α → β → γ}
    {xs : List β} {c : γ} (hq : ∀ a b, q a b = true ↔ p a b) :
    (o.bind fun a => (xs.find? (q a)).map (g a)) = some c ↔
      ∃ b, IsFirst (fun b => ∃ a, o = some a ∧ p a b) xs b ∧ ∃ a, o = some a ∧ g a b = c := by
  cases o with
  | none => simp
  | some a =>
    simp only [Option.bind_some, Option.map_eq_some_iff, find?_eq_some_iff_isFirst (hq a),
      Option.some.injEq, exists_eq_left']

theorem bind_find?_eq_none_iff {o : Option α} {p : α → β → Prop} {q : α → β → Bool} {g : α → β → γ}
    {xs : List β} (hq : ∀ a b, q a b = true ↔ p a b) :
    (o.bind fun a => (xs.find? (q a)).map (g a)) = none ↔
      ∀ b ∈ xs, ¬∃ a, o = some a ∧ p a b := by
  cases o with
  | none => simp
  | some a => simp [hq]

/-- What `f` finds at the first place of a list where it finds anything. A place is told by what is
in front of it, what is there and what comes behind. -/
def FirstPlace (f : List α → α → List α → Option β) (xs : List α) (b : β) : Prop :=
  ∃ front a back, xs = front ++ a :: back ∧ f front a back = some b ∧
    ∀ front' a' back', xs = front' ++ a' :: back' → front'.length < front.length →
      f front' a' back' = none

variable {f : List α → α → List α → Option β} {xs : List α} {a : α} {b : β}

theorem not_firstPlace_nil : ¬FirstPlace f [] b := by
  rintro ⟨front, a, back, hxs, -⟩
  simp at hxs

/-- The first place is the head of the list, or it is behind a head where nothing is found. -/
theorem firstPlace_cons :
    FirstPlace f (a :: xs) b ↔
      f [] a xs = some b ∨ f [] a xs = none ∧ FirstPlace (fun front => f (a :: front)) xs b := by
  constructor
  · rintro ⟨front, a', back, hxs, hfound, hfirst⟩
    cases front with
    | nil =>
      cases hxs
      exact .inl hfound
    | cons a'' front =>
      cases hxs
      refine .inr ⟨hfirst [] a _ rfl (by simp), front, a', back, rfl, hfound, ?_⟩
      intro front' b' back' hxs hlength
      exact hfirst (a :: front') b' back' (by rw [hxs, List.cons_append])
        (by simpa using hlength)
  · rintro (hfound | ⟨hnone, front, a', back, rfl, hfound, hfirst⟩)
    · exact ⟨[], a, xs, rfl, hfound, fun front' a' back' _ hlength => by simp at hlength⟩
    · refine ⟨a :: front, a', back, rfl, hfound, fun front' b' back' hxs hlength => ?_⟩
      cases front' with
      | nil =>
        cases hxs
        exact hnone
      | cons a'' front' =>
        obtain ⟨rfl, htail⟩ := List.cons.inj hxs
        exact hfirst front' b' back' htail (by simpa using hlength)

/-- What is found at the first place where something is found by way of what stands there. -/
theorem firstPlace_bind_iff {g : List α → α → List α → Option γ} {h : γ → Option β} :
    FirstPlace (fun front a back => (g front a back).bind h) xs b ↔
      ∃ front c, (∃ a back, xs = front ++ a :: back ∧ g front a back = some c) ∧ h c = some b ∧
        ∀ front' c', (∃ a back, xs = front' ++ a :: back ∧ g front' a back = some c') →
          front'.length < front.length → h c' = none := by
  constructor
  · rintro ⟨front, a, back, hxs, hfound, hfirst⟩
    obtain ⟨c, hc, hb⟩ := Option.bind_eq_some_iff.1 hfound
    refine ⟨front, c, ⟨a, back, hxs, hc⟩, hb, ?_⟩
    rintro front' c' ⟨a', back', hxs', hc'⟩ hlength
    exact Option.bind_eq_none_iff.1 (hfirst front' a' back' hxs' hlength) c' hc'
  · rintro ⟨front, c, ⟨a, back, hxs, hc⟩, hb, hfirst⟩
    refine ⟨front, a, back, hxs, Option.bind_eq_some_iff.2 ⟨c, hc, hb⟩, ?_⟩
    intro front' a' back' hxs' hlength
    rw [Option.bind_eq_none_iff]
    exact fun c' hc' => hfirst front' c' ⟨a', back', hxs', hc'⟩ hlength

/-- A search among the members that pass a test is a search among all, in which the others give
nothing. -/
theorem findSome?_filter_eq_some_iff {p : α → Bool} {g : α → Option β} :
    (xs.filter p).findSome? g = some b ↔
      FirstPlace (fun _ a _ => if p a then g a else none) xs b := by
  induction xs with
  | nil => simp [not_firstPlace_nil]
  | cons a xs ih =>
    rw [firstPlace_cons, ← ih, List.filter_cons]
    -- a member that fails the test is taken out there and gives nothing here
    cases hp : p a with
    | false => simp
    | true =>
      rw [if_pos rfl, List.findSome?_cons, if_pos rfl]
      cases g a <;> simp

end First

-- ---------------------------------------------------------------------------
-- Breaches by way of their reports
-- ---------------------------------------------------------------------------

/-- A duplicate is reported under the name of its column, or as one of the identity. -/
theorem Table.keyName_of_mem {t : Table} : ∀ c ∈ t.columns,
    t.keyName c.name = if c.name = t.identityKey then "PRIMARY" else c.name := by
  cases t <;> decide

namespace Breach

variable {t : Table} {fk : ForeignKey} {c : Column}

/-- The refusal of a row that is referred to comes back as it was sent, since no name of a foreign
key holds a quote. -/
theorem ofEngineError_referenced (h : fk ∈ t.foreignKeys) :
    Failure.ofEngineError (referenced (fk.failure t)).report = .foreignKey (fk.failure t) :=
  ofEngineError_report (b := .referenced (fk.failure t)) (ForeignKey.plain_failure fk h)

theorem ofEngineError_noReferent (h : fk ∈ t.foreignKeys) :
    Failure.ofEngineError (noReferent (fk.failure t)).report = .foreignKey (fk.failure t) :=
  ofEngineError_report (b := .noReferent (fk.failure t)) (ForeignKey.plain_failure fk h)

/-- Whatever the value is, the duplicate of a column is read back with it. -/
theorem ofEngineError_duplicate (h : c ∈ t.columns) (entry : String) :
    Failure.ofEngineError (duplicate ⟨t.keyName c.name, entry⟩).report =
      .duplicateEntry ⟨if c.name = t.identityKey then "PRIMARY" else c.name, entry⟩ := by
  rw [← Table.keyName_of_mem c h]
  exact ofEngineError_report (b := .duplicate ⟨t.keyName c.name, entry⟩) (Table.plain_keyName c h)

end Breach

-- ---------------------------------------------------------------------------
-- Changes
-- ---------------------------------------------------------------------------

/-- What a statement does at one place of a table: a row goes, a row comes, or a row takes the place
of another, beside the other rows of the table. -/
structure Change where
  others : List Row
  old    : Option Row
  new    : Option Row

namespace Change

variable (db : Database) (t : Table) (change : Change)

/-- The column must hold a value and holds none in the new row. -/
def Lacks (c : Column) : Prop :=
  ∃ row, change.new = some row ∧ c.nullable = false ∧ row.get c.name = .null

/-- Some row refers, by the foreign key of its table, to a value that goes with the old row. -/
def Strands (p : Table × ForeignKey) : Prop :=
  ∃ row, change.old = some row ∧ row.get p.2.refColumn ≠ .null ∧
    (∀ next, change.new = some next → next.get p.2.refColumn ≠ row.get p.2.refColumn) ∧
    ∃ r ∈ db.rows p.1, r.get p.2.column = row.get p.2.refColumn

/-- The column is a key, and another row holds the value of the new row in it. -/
def Repeats (c : Column) : Prop :=
  ∃ row, change.new = some row ∧ t.isKey c = true ∧ row.get c.name ≠ .null ∧
    ∃ o ∈ change.others, o.get c.name = row.get c.name

/-- The new row refers to a value that no row holds. -/
def Dangles (fk : ForeignKey) : Prop :=
  ∃ row, change.new = some row ∧ row.get fk.column ≠ .null ∧
    ∀ r ∈ db.rows fk.refTable, r.get fk.refColumn ≠ row.get fk.column

/-- The failure that a change of a table is refused with. Empty columns come first, then the
references to what goes, then the keys, then the references of what comes; of one sort, the first in
declared order counts. -/
inductive Refused : Failure → Prop
  | nullColumn {c : Column} (hcolumn : IsFirst change.Lacks t.columns c) :
    Refused (.unclassified ⟨1048, s!"Column '{c.name}' cannot be null"⟩)
  | referenced {child : Table} {fk : ForeignKey} (hholds : ∀ c ∈ t.columns, ¬change.Lacks c)
    (hreference : IsFirst (change.Strands db) (Database.referrers t) (child, fk)) :
    Refused (.foreignKey
      ⟨⟨"memory", child.name, fk.constraint, fk.column⟩, ⟨fk.refTable.name, fk.refColumn⟩⟩)
  | duplicate {c : Column} {row : Row} (hholds : ∀ c ∈ t.columns, ¬change.Lacks c)
    (hkept : ∀ p ∈ Database.referrers t, ¬change.Strands db p) (hrow : change.new = some row)
    (hkey : IsFirst (change.Repeats t) t.columns c) :
    Refused (.duplicateEntry
      ⟨if c.name = t.identityKey then "PRIMARY" else c.name, (row.get c.name).display⟩)
  | noReferent {fk : ForeignKey} (hholds : ∀ c ∈ t.columns, ¬change.Lacks c)
    (hkept : ∀ p ∈ Database.referrers t, ¬change.Strands db p)
    (hdistinct : ∀ c ∈ t.columns, ¬change.Repeats t c)
    (hreference : IsFirst (change.Dangles db) t.foreignKeys fk) :
    Refused (.foreignKey
      ⟨⟨"memory", t.name, fk.constraint, fk.column⟩, ⟨fk.refTable.name, fk.refColumn⟩⟩)

/-- What the engine finds wrong with a change. -/
def breach? : Option Breach :=
  (change.new.bind (Database.nullColumn? t))
    <|> (change.old.bind fun row => db.referenced? t row change.new)
    <|> (change.new.bind (Database.duplicate? t change.others))
    <|> (change.new.bind (db.noReferent? t))

variable {db t change} {b : Breach}

/-- A row that comes is checked as the engine checks it. -/
theorem breach?_of_new {others : List Row} {old : Option Row} (row : Row) :
    breach? db t ⟨others, old, some row⟩ = db.breach? t others old row := rfl

/-- A row that goes is checked for references to it only. -/
theorem breach?_of_gone {others : List Row} (row : Row) :
    breach? db t ⟨others, some row, none⟩ = db.referenced? t row none := by
  simp [breach?]

theorem nullColumn_iff (row : Row) (c : Column) :
    (!c.nullable && (row.get c.name).isNull) = true ↔
      c.nullable = false ∧ row.get c.name = .null := by
  rw [Bool.and_eq_true, Bool.not_eq_true', Value.isNull_iff]

theorem duplicate_iff (others : List Row) (row : Row) (c : Column) :
    (t.isKey c && !(row.get c.name).isNull
        && others.any fun o => o.get c.name = row.get c.name) = true ↔
      t.isKey c = true ∧ row.get c.name ≠ .null ∧ ∃ o ∈ others, o.get c.name = row.get c.name := by
  simp only [Bool.and_eq_true, Bool.not_eq_true', ← Bool.not_eq_true, Value.isNull_iff,
    List.any_eq_true, decide_eq_true_eq, and_assoc, ne_eq]

theorem noReferent_iff (row : Row) (fk : ForeignKey) :
    (!(row.get fk.column).isNull
        && !(db.rows fk.refTable).any fun r => r.get fk.refColumn = row.get fk.column) = true ↔
      row.get fk.column ≠ .null ∧
        ∀ r ∈ db.rows fk.refTable, r.get fk.refColumn ≠ row.get fk.column := by
  simp only [Bool.and_eq_true, Bool.not_eq_true', ← Bool.not_eq_true, Value.isNull_iff,
    List.any_eq_true, decide_eq_true_eq, not_exists, not_and, ne_eq]

/-- The test for a row that is referred to. One that keeps the value in its successor is not in
question. -/
theorem referenced_iff (row : Row) (next : Option Row) (p : Table × ForeignKey) :
    (!(row.get p.2.refColumn).isNull
        && !next.any (fun n => n.get p.2.refColumn = row.get p.2.refColumn)
        && (db.rows p.1).any fun r => r.get p.2.column = row.get p.2.refColumn) = true ↔
      row.get p.2.refColumn ≠ .null ∧
        (∀ n, next = some n → n.get p.2.refColumn ≠ row.get p.2.refColumn) ∧
        ∃ r ∈ db.rows p.1, r.get p.2.column = row.get p.2.refColumn := by
  simp only [Bool.and_eq_true, Bool.not_eq_true', ← Bool.not_eq_true, Value.isNull_iff,
    List.any_eq_true, Option.any_eq_true, decide_eq_true_eq, not_exists, not_and, and_assoc, ne_eq]

/-- **What the engine finds wrong with a change**: the first thing of the first sort
that there is. -/
theorem breach?_eq_some_iff :
    breach? db t change = some b ↔
      (∃ c, IsFirst change.Lacks t.columns c ∧
        ∃ row, change.new = some row ∧ Breach.nullColumn c.name = b) ∨
      (∀ c ∈ t.columns, ¬change.Lacks c) ∧
        ((∃ p, IsFirst (change.Strands db) (Database.referrers t) p ∧
            ∃ row, change.old = some row ∧ Breach.referenced (p.2.failure p.1) = b) ∨
          (∀ p ∈ Database.referrers t, ¬change.Strands db p) ∧
            ((∃ c, IsFirst (change.Repeats t) t.columns c ∧
                ∃ row, change.new = some row ∧
                  Breach.duplicate ⟨t.keyName c.name, (row.get c.name).display⟩ = b) ∨
              (∀ c ∈ t.columns, ¬change.Repeats t c) ∧
                ∃ fk, IsFirst (change.Dangles db) t.foreignKeys fk ∧
                  ∃ row, change.new = some row ∧ Breach.noReferent (fk.failure t) = b)) := by
  simp only [breach?, Option.orElse_eq_orElse, Option.orElse_eq_or, Option.or_eq_some_iff]
  refine or_congr ?_ (and_congr ?_ (or_congr ?_ (and_congr ?_ (or_congr ?_ (and_congr ?_ ?_)))))
  · exact bind_find?_eq_some_iff nullColumn_iff
  · exact bind_find?_eq_none_iff nullColumn_iff
  · exact bind_find?_eq_some_iff fun row => referenced_iff row change.new
  · exact bind_find?_eq_none_iff fun row => referenced_iff row change.new
  · exact bind_find?_eq_some_iff (duplicate_iff change.others)
  · exact bind_find?_eq_none_iff (duplicate_iff change.others)
  · exact bind_find?_eq_some_iff noReferent_iff

/-- **A change is refused with what its breach is read back as.** -/
theorem refused_iff {f : Failure} :
    change.Refused db t f ↔ ∃ b, breach? db t change = some b ∧ .ofEngineError b.report = f := by
  constructor
  · intro h
    cases h with
    | nullColumn hcolumn =>
      obtain ⟨row, hrow, -⟩ := hcolumn.holds
      exact ⟨_, breach?_eq_some_iff.2 (.inl ⟨_, hcolumn, row, hrow, rfl⟩), rfl⟩
    | referenced hholds hreference =>
      obtain ⟨row, hrow, -⟩ := hreference.holds
      have hfk := (Database.mem_referrers_iff.1 hreference.mem).1
      exact ⟨_, breach?_eq_some_iff.2 (.inr ⟨hholds, .inl ⟨_, hreference, row, hrow, rfl⟩⟩),
        Breach.ofEngineError_referenced hfk⟩
    | duplicate hholds hkept hrow hkey =>
      exact ⟨_, breach?_eq_some_iff.2
          (.inr ⟨hholds, .inr ⟨hkept, .inl ⟨_, hkey, _, hrow, rfl⟩⟩⟩),
        Breach.ofEngineError_duplicate hkey.mem _⟩
    | noReferent hholds hkept hdistinct hreference =>
      obtain ⟨row, hrow, -⟩ := hreference.holds
      exact ⟨_, breach?_eq_some_iff.2
          (.inr ⟨hholds, .inr ⟨hkept, .inr ⟨hdistinct, _, hreference, row, hrow, rfl⟩⟩⟩),
        Breach.ofEngineError_noReferent hreference.mem⟩
  · rintro ⟨b, hb, rfl⟩
    rcases breach?_eq_some_iff.1 hb with ⟨c, hcolumn, row, -, rfl⟩ | ⟨hholds, hb⟩
    · exact .nullColumn hcolumn
    rcases hb with ⟨⟨child, fk⟩, hreference, row, -, rfl⟩ | ⟨hkept, hb⟩
    · rw [Breach.ofEngineError_referenced (Database.mem_referrers_iff.1 hreference.mem).1]
      exact .referenced hholds hreference
    rcases hb with ⟨c, hkey, row, hrow, rfl⟩ | ⟨hdistinct, fk, hreference, row, -, rfl⟩
    · rw [Breach.ofEngineError_duplicate hkey.mem _]
      exact .duplicate hholds hkept hrow hkey
    · rw [Breach.ofEngineError_noReferent hreference.mem]
      exact .noReferent hholds hkept hdistinct hreference

end Change

-- ---------------------------------------------------------------------------
-- Statements
-- ---------------------------------------------------------------------------

/-- The first name, in the order of names, that is no column of the table. -/
def Columns.FirstUnknown (t : Table) (columns : Columns) (name : String) : Prop :=
  name ∈ columns.names ∧ t.column? name = none ∧
    ∀ other ∈ columns.names, t.column? other = none → name ≤ other

namespace Statement

/-- The name that a statement fails by because it is no column of the table, and the clause that
names it. The new values of an update come before its filter. -/
def Unknown : Statement → String → Clause → Prop
  | .insert t row, name, clause => clause = .fieldList ∧ row.FirstUnknown t name
  | .update t filter payload, name, clause =>
    clause = .fieldList ∧ payload.FirstUnknown t name ∨
      (∀ column ∈ payload.names, (t.column? column).isSome = true) ∧
        clause = .whereClause ∧ filter.FirstUnknown t name
  | .delete t filter, name, clause => clause = .whereClause ∧ filter.FirstUnknown t name

/-- The change that a statement makes behind a number of rows of its table, those in front being
changed already: a row at the end, new values in a row that meets the filter and holds others, or
the loss of a row that meets the filter. -/
def Changes (db : Database) (now : Timestamp) : Statement → List Row → Change → Prop
  | .insert t row, front, change =>
    front = db.rows t ∧ change = ⟨db.rows t, none, some (Database.complete t row now)⟩
  | .update t filter payload, front, change =>
    ∃ row back, db.rows t = front ++ row :: back ∧ row.meets filter = true ∧
      row.overlay payload ≠ row ∧
      change = ⟨front.map (Database.revise filter payload now) ++ back, some row,
        some ((row.overlay payload).insert updatedAtKey (.timestamp now))⟩
  | .delete t filter, front, change =>
    ∃ row back, db.rows t = front ++ row :: back ∧ row.meets filter = true ∧
      change = ⟨front ++ back, some row, none⟩

/-- The failure that a statement is refused with: for a name that is no column, or else for the
first change in table order that is refused. -/
inductive Refused (db : Database) (now : Timestamp) (statement : Statement) : Failure → Prop
  | unknownColumn {name : String} {clause : Clause} (hname : statement.Unknown name clause) :
    Refused db now statement (.unclassified ⟨1054, s!"Unknown column '{name}' in '{clause.words}'"⟩)
  | change {front : List Row} {change : Change} {failure : Failure} (hknown : statement.Known)
    (hchanges : statement.Changes db now front change)
    (hrefused : change.Refused db statement.table failure)
    (hfirst : ∀ front' change', statement.Changes db now front' change' →
      front'.length < front.length → ∀ f, ¬change'.Refused db statement.table f) :
    Refused db now statement failure

end Statement

namespace Database

variable {db : Database} {t : Table} {filter payload : Columns} {now : Timestamp} {b : Breach}
  {statement : Statement}

/-- The column that a clause is refused for is the least of the unknown ones, because columns are
kept in the order of their names. -/
theorem unknownColumn?_eq_some_iff {columns : Columns} {clause : Clause} :
    unknownColumn? t columns clause = some b ↔
      ∃ name, columns.FirstUnknown t name ∧ .unknownColumn name clause = b := by
  -- the first of a sorted list is the least of it, and the other way round
  have hsorted : columns.names.Pairwise (· < ·) := List.pairwise_map.2 columns.ordered
  rw [unknownColumn?, Option.map_eq_some_iff]
  refine exists_congr fun name => and_congr_left' ?_
  rw [find?_eq_some_iff_isFirst (p := fun name => t.column? name = none) (by simp)]
  constructor
  · rintro ⟨front, back, hnames, hname, hfront⟩
    rw [hnames] at hsorted
    refine ⟨by simp [hnames], hname, fun other hother hunknown => ?_⟩
    rw [hnames] at hother
    rcases List.mem_append.1 hother with hother | hother
    · exact absurd hunknown (hfront other hother)
    · rcases List.mem_cons.1 hother with rfl | hother
      · exact String.le_refl _
      · have hlt := (List.pairwise_cons.1 (List.pairwise_append.1 hsorted).2.1).1 other hother
        exact String.not_lt.1 fun hgt => String.lt_irrefl _ (String.lt_trans hlt hgt)
  · rintro ⟨hmem, hname, hleast⟩
    obtain ⟨front, back, hnames⟩ := List.append_of_mem hmem
    refine ⟨front, back, hnames, hname, fun other hother hunknown => ?_⟩
    rw [hnames] at hsorted
    have hlt := (List.pairwise_append.1 hsorted).2.2 other hother name List.mem_cons_self
    have hle := hleast other (by simp [hnames, hother]) hunknown
    exact String.not_lt.2 hle hlt

/-- **An update fails at the first row whose revision fails its checks**, beside the revisions of
the rows in front. -/
theorem updateRows_eq_error_iff {done rows : List Row} :
    db.updateRows t filter payload now done rows = .error b ↔
      FirstPlace (fun front row back =>
        ((revised? filter payload now row).map fun next => Change.mk
          (done ++ (front.map (revise filter payload now) ++ back)) (some row) (some next)).bind
            (Change.breach? db t)) rows b := by
  induction rows generalizing done with
  | nil => simp [updateRows, not_firstPlace_nil]
  | cons row rest ih =>
    -- behind the first row, the front starts with what becomes of the first
    have hfront : ∀ front back : List Row,
        done ++ ((row :: front).map (revise filter payload now) ++ back) =
          done ++ [revise filter payload now row] ++
            (front.map (revise filter payload now) ++ back) := by
      simp
    rw [updateRows, firstPlace_cons]
    simp only [hfront, ← ih, List.map_nil, List.nil_append]
    cases hrev : revised? filter payload now row with
    -- a row that is not revised is skipped, and the rest decides
    | none => simp [revise, hrev]
    | some next =>
      rw [Option.map_some, Option.bind_some, revise_of_revised? hrev, Change.breach?_of_new]
      cases hbreach : db.breach? t (done ++ rest) (some row) next with
      | some c => simp [hbreach]
      | none =>
        simp only [hbreach, reduceCtorEq, false_or, true_and]
        cases db.updateRows t filter payload now (done ++ [next]) rest <;> simp [Except.map]

/-- **A deletion fails at the first row that meets the filter and may not go.** -/
theorem findSome?_select_eq_some_iff :
    ((db.select t filter).findSome? fun row => db.referenced? t row none) = some b ↔
      FirstPlace (fun front row back =>
        (if row.meets filter then some (Change.mk (front ++ back) (some row) none) else none).bind
          (Change.breach? db t)) (db.rows t) b := by
  -- whatever stands around a row, it may go or not
  have hplace : ∀ front row back,
      (if row.meets filter then some (Change.mk (front ++ back) (some row) none) else none).bind
        (Change.breach? db t) =
          if row.meets filter then db.referenced? t row none else none := by
    intro front row back
    split
    · exact Change.breach?_of_gone row
    · rfl
  simp only [hplace]
  exact findSome?_filter_eq_some_iff

/-- What is wrong with the first change of a statement that fails its checks. -/
def FirstBreach (db : Database) (now : Timestamp) (statement : Statement) (b : Breach) : Prop :=
  ∃ front change, statement.Changes db now front change ∧
    change.breach? db statement.table = some b ∧
    ∀ front' change', statement.Changes db now front' change' → front'.length < front.length →
      change'.breach? db statement.table = none

/-- An insert has one change, so its first breach is the breach of the new row. -/
theorem firstBreach_insert {row : Columns} :
    FirstBreach db now (.insert t row) b ↔
      db.breach? t (db.rows t) none (complete t row now) = some b := by
  constructor
  · rintro ⟨front, change, ⟨rfl, rfl⟩, hbreach, -⟩
    exact hbreach
  · intro hbreach
    -- no other place is one of the insertion
    exact ⟨db.rows t, _, ⟨rfl, rfl⟩, hbreach, fun front' _ hchanges hlength =>
      absurd (hchanges.1 ▸ hlength) (Nat.lt_irrefl _)⟩

/-- The first breach of an update is where its visit of the rows ends. -/
theorem firstBreach_update :
    FirstBreach db now (.update t filter payload) b ↔
      db.updateRows t filter payload now [] (db.rows t) = .error b := by
  -- a place in the table is a change when the row there is revised
  have hchanges : ∀ front change, (Statement.update t filter payload).Changes db now front change ↔
      ∃ row back, db.rows t = front ++ row :: back ∧
        ((revised? filter payload now row).map fun next => Change.mk
          ([] ++ (front.map (revise filter payload now) ++ back)) (some row) (some next)) =
            some change := by
    intro front change
    simp only [Option.map_eq_some_iff, revised?_eq_some_iff, List.nil_append]
    constructor
    · rintro ⟨row, back, hrows, hmeets, halters, rfl⟩
      exact ⟨row, back, hrows, _, ⟨hmeets, halters, rfl⟩, rfl⟩
    · rintro ⟨row, back, hrows, _, ⟨hmeets, halters, rfl⟩, rfl⟩
      exact ⟨row, back, hrows, hmeets, halters, rfl⟩
  rw [updateRows_eq_error_iff, firstPlace_bind_iff]
  simp only [FirstBreach, hchanges, Statement.table]

/-- The first breach of a delete is that of the first row which is referred to, among those it
meets. -/
theorem firstBreach_delete :
    FirstBreach db now (.delete t filter) b ↔
      ((db.select t filter).findSome? fun row => db.referenced? t row none) = some b := by
  have hchanges : ∀ front change, (Statement.delete t filter).Changes db now front change ↔
      ∃ row back, db.rows t = front ++ row :: back ∧
        (if row.meets filter then some (Change.mk (front ++ back) (some row) none) else none) =
          some change := by
    intro front change
    simp only [Statement.Changes, Option.ite_none_right_eq_some, Option.some.injEq,
      @eq_comm _ change]
  rw [findSome?_select_eq_some_iff, firstPlace_bind_iff]
  simp only [FirstBreach, hchanges, Statement.table]

/-- The name of a statement that is no column, as the engine finds it. -/
def unknown? : Statement → Option Breach
  | .insert t row => unknownColumn? t row .fieldList
  | .update t filter payload =>
    unknownColumn? t payload .fieldList <|> unknownColumn? t filter .whereClause
  | .delete t filter => unknownColumn? t filter .whereClause

/-- The unknown column that a statement is refused for: an update looks at what it sets before what
it asks for. -/
theorem exists_unknown_iff :
    (∃ name clause, statement.Unknown name clause ∧ .unknownColumn name clause = b) ↔
      unknown? statement = some b := by
  cases statement with
  | insert t row => simp [Statement.Unknown, unknown?, unknownColumn?_eq_some_iff]
  | update t filter payload =>
    simp only [unknown?, Option.orElse_eq_orElse, Option.orElse_eq_or, Option.or_eq_some_iff,
      unknownColumn?_eq_some_iff, unknownColumn?_eq_none_iff]
    constructor
    · rintro ⟨name, clause, ⟨rfl, hname⟩ | ⟨hpayload, rfl, hname⟩, hb⟩
      · exact .inl ⟨name, hname, hb⟩
      · exact .inr ⟨hpayload, name, hname, hb⟩
    · rintro (⟨name, hname, hb⟩ | ⟨hpayload, name, hname, hb⟩)
      · exact ⟨name, .fieldList, .inl ⟨rfl, hname⟩, hb⟩
      · exact ⟨name, .whereClause, .inr ⟨hpayload, rfl, hname⟩, hb⟩
  | delete t filter => simp [Statement.Unknown, unknown?, unknownColumn?_eq_some_iff]

/-- **What the engine finds wrong with a statement**: a name that is no column, or the first change
that fails its checks. -/
theorem execute_eq_error_iff :
    db.execute now statement = .error b ↔
      (∃ name clause, statement.Unknown name clause ∧ .unknownColumn name clause = b) ∨
        statement.Known ∧ FirstBreach db now statement b := by
  rw [exists_unknown_iff]
  cases statement with
  | insert t row =>
    rw [execute, insert, firstBreach_insert, unknown?, Statement.Known,
      ← unknownColumn?_eq_none_iff .fieldList]
    cases hname : unknownColumn? t row .fieldList with
    -- with an unknown name the statement fails before any row is looked at
    | some c => simp
    | none => cases hbreach : db.breach? t (db.rows t) none (complete t row now) <;> simp [hbreach]
  | update t filter payload =>
    rw [execute, update, firstBreach_update, unknown?, Statement.Known,
      ← unknownColumn?_eq_none_iff .fieldList, ← unknownColumn?_eq_none_iff .whereClause]
    cases hpayload : unknownColumn? t payload .fieldList with
    | some c => simp
    | none =>
      cases hfilter : unknownColumn? t filter .whereClause with
      | some c => simp
      | none => cases db.updateRows t filter payload now [] (db.rows t) <;> simp [Except.map]
  | delete t filter =>
    rw [execute, delete, firstBreach_delete, unknown?, Statement.Known,
      ← unknownColumn?_eq_none_iff .whereClause]
    cases hfilter : unknownColumn? t filter .whereClause with
    | some c => simp
    | none =>
      cases hgoes : (db.select t filter).findSome? fun row => db.referenced? t row none <;>
        simp [hgoes]

end Database

/-- **A statement is refused with what its breach is read back as.** -/
theorem Statement.refused_iff {db : Database} {now : Timestamp} {statement : Statement}
    {f : Failure} :
    statement.Refused db now f ↔
      ∃ b, db.execute now statement = .error b ∧ .ofEngineError b.report = f := by
  simp only [Database.execute_eq_error_iff]
  constructor
  · intro h
    cases h with
    | unknownColumn hname => exact ⟨_, .inl ⟨_, _, hname, rfl⟩, rfl⟩
    | change hknown hchanges hrefused hfirst =>
      obtain ⟨b, hb, hf⟩ := Change.refused_iff.1 hrefused
      refine ⟨b, .inr ⟨hknown, _, _, hchanges, hb, fun front' change' hchanges' hlength => ?_⟩, hf⟩
      rw [Option.eq_none_iff_forall_ne_some]
      -- a breach of an earlier change would be a refusal of it
      exact fun c hc =>
        hfirst front' change' hchanges' hlength _ (Change.refused_iff.2 ⟨c, hc, rfl⟩)
  · rintro ⟨b, ⟨name, clause, hname, rfl⟩ | ⟨hknown, front, change, hchanges, hb, hfirst⟩, rfl⟩
    · exact .unknownColumn hname
    · refine .change hknown hchanges (Change.refused_iff.2 ⟨b, hb, rfl⟩) ?_
      intro front' change' hchanges' hlength f hrefused
      obtain ⟨c, hc, -⟩ := Change.refused_iff.1 hrefused
      rw [hfirst front' change' hchanges' hlength] at hc
      cases hc

-- ---------------------------------------------------------------------------
-- Transactions
-- ---------------------------------------------------------------------------

namespace Transaction

variable {tx : Transaction} {now : Timestamp} {f : Failure}

/-- A transaction's statement fails with just what its copy refuses it with. -/
theorem execute_error_iff {statement : Statement} :
    (execute now statement tx).1 = .error f ↔ statement.Refused tx.snapshot now f := by
  rw [Statement.refused_iff]
  rcases hexecute : tx.snapshot.execute now statement with b | ⟨db, n⟩
  · simp [execute_error hexecute]
  · simp [execute_ok hexecute]

/-- A journal fails at the first statement that is refused where those in front of it lead. -/
theorem replay_error_iff {committed : Database} {journal : List JournalEntry} :
    (∃ b, replay committed journal = .error b ∧ .ofEngineError b.report = f) ↔
      ∃ front e rest db, journal = front ++ e :: rest ∧ replay committed front = .ok db ∧
        e.statement.Refused db e.moment f := by
  induction journal generalizing committed with
  | nil => simp [replay]
  | cons e journal ih =>
    -- the journal fails at its first entry, or goes on from where that leads
    rcases hexecute : committed.execute e.moment e.statement with b | ⟨mid, n⟩
    · simp only [replay, hexecute, Except.error.injEq, exists_eq_left']
      constructor
      · intro hf
        exact ⟨[], e, journal, committed, rfl, rfl, Statement.refused_iff.2 ⟨b, hexecute, hf⟩⟩
      · rintro ⟨_ | ⟨e', front⟩, e'', rest, db, hjournal, hfront, hrefused⟩
        · cases hjournal
          cases hfront
          obtain ⟨b', hb', hf⟩ := Statement.refused_iff.1 hrefused
          rw [hexecute] at hb'
          cases hb'
          exact hf
        · -- the statement that fails cannot stand in front
          cases hjournal
          rw [replay_cons_eq_ok_iff] at hfront
          obtain ⟨mid, n, hmid, -⟩ := hfront
          rw [hexecute] at hmid
          cases hmid
    · simp only [replay, hexecute, ih]
      constructor
      · rintro ⟨front, e', rest, db, rfl, hfront, hrefused⟩
        exact ⟨e :: front, e', rest, db, rfl,
          replay_cons_eq_ok_iff.2 ⟨mid, n, hexecute, hfront⟩, hrefused⟩
      · rintro ⟨_ | ⟨e', front⟩, e'', rest, db, hjournal, hfront, hrefused⟩
        · cases hjournal
          cases hfront
          obtain ⟨b, hb, -⟩ := Statement.refused_iff.1 hrefused
          rw [hexecute] at hb
          cases hb
        · cases hjournal
          obtain ⟨mid', n', hmid, hfront⟩ := replay_cons_eq_ok_iff.1 hfront
          rw [hexecute] at hmid
          cases hmid
          exact ⟨front, e'', rest, db, rfl, hfront, hrefused⟩

/-- A commit fails with what the replay breaks, read from its report. -/
theorem commit_error_iff {committed : Database} :
    commit tx committed = .error f ↔
      ∃ b, replay committed tx.journal = .error b ∧ .ofEngineError b.report = f := by
  rw [commit]
  cases replay committed tx.journal <;> simp

/-- **Engine violations survive the way through their texts.** Whatever the rows hold and whatever
values are given, an insertion, an update that sets something and a deletion fail just with the
failure that they are refused with, although the engine tells it by a number and a text; and a
commit fails with that of the first statement of its journal that is refused where those in front
lead. -/
theorem refused_exactly (tx : Transaction) (now : Timestamp) (f : Failure) :
    (∀ t row, (insert now t row tx).1 = .error f ↔
      (Statement.insert t row).Refused tx.snapshot now f) ∧
    (∀ t filter payload, payload ≠ ∅ → ((update now t filter payload tx).1 = .error f ↔
      (Statement.update t filter payload).Refused tx.snapshot now f)) ∧
    (∀ t filter, (delete now t filter tx).1 = .error f ↔
      (Statement.delete t filter).Refused tx.snapshot now f) ∧
    ∀ committed, commit tx committed = .error f ↔
      ∃ front e rest db, tx.journal = front ++ e :: rest ∧ replay committed front = .ok db ∧
        e.statement.Refused db e.moment f := by
  refine ⟨fun t row => ?_, fun t filter payload hpayload => ?_, fun t filter => ?_,
    fun committed => ?_⟩
  · rw [← execute_error_iff]
    exact Transact.bind_pure_error_iff (g := fun _ => ())
  · -- an update that sets nothing is not issued, so it is left aside
    rw [update, if_neg (mt payload.isEmpty_iff.1 hpayload), execute_error_iff]
  · exact execute_error_iff
  · rw [commit_error_iff, replay_error_iff]

/-- A transaction with two accounts, the first under a login that holds the words of a report and
its marks. -/
def hardLogins : Transaction :=
  let account (uuid login : String) : Columns := .ofList
    [("parent_uuid", .text uuid), ("parent_id", .text login), ("parent_pw", .text "hash")]
  let first := (insert (.ofSeconds 1) .parentAuths (account "p1" "a` for key `b") (begin .empty)).2
  (insert (.ofSeconds 2) .parentAuths (account "p2" "c") first).2

/-- The same login for every account. -/
def hardLogin : Columns := .ofList [("parent_id", .text "a` for key `b")]

/-- If both accounts are to take the hard login, the first keeps its values, and the second is
refused with the login as it is; and a commit where the two accounts are already fails by the
identity of the first. -/
theorem refused_exactly_hardLogins :
    hardLogin ≠ ∅ ∧
      (Statement.update .parentAuths ∅ hardLogin).Refused hardLogins.snapshot (.ofSeconds 3)
        (.duplicateEntry ⟨"parent_id", "a` for key `b"⟩) ∧
      ∃ front e rest db, hardLogins.journal = front ++ e :: rest ∧
        replay hardLogins.snapshot front = .ok db ∧
        e.statement.Refused db e.moment (.duplicateEntry ⟨"PRIMARY", "p1"⟩) := by
  have hpayload : hardLogin ≠ ∅ := by decide
  have hupdate : (update (.ofSeconds 3) .parentAuths ∅ hardLogin hardLogins).1 =
      .error (.duplicateEntry ⟨"parent_id", "a` for key `b"⟩) := by rfl
  have hcommit : commit hardLogins hardLogins.snapshot =
      .error (.duplicateEntry ⟨"PRIMARY", "p1"⟩) := by rfl
  obtain ⟨-, hrefused, -, -⟩ := refused_exactly hardLogins (.ofSeconds 3)
    (.duplicateEntry ⟨"parent_id", "a` for key `b"⟩)
  obtain ⟨-, -, -, hreplay⟩ := refused_exactly hardLogins (.ofSeconds 3)
    (.duplicateEntry ⟨"PRIMARY", "p1"⟩)
  have hlogin := (hrefused .parentAuths ∅ hardLogin hpayload).1 hupdate
  exact ⟨hpayload, hlogin, (hreplay hardLogins.snapshot).1 hcommit⟩

end Transaction

end Rollbook
