import Rollbook.Proofs.Lookup
import Rollbook.Proofs.Taken
import Rollbook.Proofs.Verdict

/-!
# Rollbook — when a record is admitted

A creation checks the record, looks for its composite key, leaves keys and references to the engine
and reads back what has been stored. Which rows the engine compares, and in which order, is told
here of records: the uuid first, then the unique details in declared order, then the account that
the record refers to.

* `Database.Accepts`, `Database.Refuses` — when a record may be stored, and what it is refused with.
* `Database.Sound.repeats_detail_iff`    — a column that repeats is a content that another record
  has.
* `Change.refused_insert_iff`            — what the engine refuses an insertion with, told of
  records.
* `Registrar.create_stores`              — what a creation answers, and what it leaves.
* `create_run`                           — creations where operations on records alone have written.
-/

namespace Rollbook

-- ---------------------------------------------------------------------------
-- Admission
-- ---------------------------------------------------------------------------

/-- The violation of the first invalid content of the record, the uuid before the details. -/
def Record.FirstInvalid {t : Table} (record : Record t) (v : Violation) : Prop :=
  t.identity.check record.uuid = .error v ∨
    t.identity.check record.uuid = .ok () ∧
      ∃ p, IsFirst (fun p => p.1.check p.2 ≠ .ok ()) record.details.toList p ∧
        p.1.check p.2 = .error v

/-- Another record of the table has this content of a unique detail. -/
def Database.Holds (db : Database) (t : Table) (p : (m : Member) × m.Content) : Prop :=
  p.1.unique = true ∧ ∃ other ∈ db.records t, p ∈ other.details.toList

/-- The record refers to an account that is not there. -/
def Database.Lacks (db : Database) {t : Table} (record : Record t) : Prop :=
  ∃ role uuid, record.referent? = some (role, uuid) ∧
    ∀ account ∈ db.records role.accounts, account.uuid ≠ uuid

/-- The record may be stored: it is valid, no row holds its composite key, no record has its uuid or
one of its unique contents, and the account that it refers to is there. -/
structure Database.Accepts (db : Database) {t : Table} (record : Record t) : Prop where
  valid    : record.check = .ok ()
  seat     : ∀ row ∈ db.rows t, ∀ d, ¬record.ClashesWith row d
  identity : ∀ other ∈ db.records t, other.uuid ≠ record.uuid
  unique   : ∀ p ∈ record.details.toList, ¬db.Holds t p
  referent : ¬db.Lacks record

/-- What a record is refused with that may not be stored: the first that is wrong of its contents in
order, its composite key, its uuid, its unique contents in order, and its reference. -/
inductive Database.Refuses (db : Database) {t : Table} (record : Record t) : Failure → Prop
  | invalid {v : Violation} (hinvalid : record.FirstInvalid v) : Refuses db record (.validation v)
  | seat {row : Row} {d : DuplicateEntry} (hvalid : record.check = .ok ()) (hrow : row ∈ db.rows t)
    (hclash : record.ClashesWith row d) : Refuses db record (.duplicateEntry d)
  | identity {other : Record t} (hvalid : record.check = .ok ())
    (hseat : ∀ row ∈ db.rows t, ∀ d, ¬record.ClashesWith row d) (hother : other ∈ db.records t)
    (huuid : other.uuid = record.uuid) :
    Refuses db record (.duplicateEntry ⟨"PRIMARY", record.uuid⟩)
  | unique {p : (m : Member) × m.Content} (hvalid : record.check = .ok ())
    (hseat : ∀ row ∈ db.rows t, ∀ d, ¬record.ClashesWith row d)
    (hidentity : ∀ other ∈ db.records t, other.uuid ≠ record.uuid)
    (hfirst : IsFirst (db.Holds t) record.details.toList p) :
    Refuses db record (.duplicateEntry ⟨p.1.key, (p.1.toValue p.2).display⟩)
  | reference {fk : ForeignKey} (hvalid : record.check = .ok ())
    (hseat : ∀ row ∈ db.rows t, ∀ d, ¬record.ClashesWith row d)
    (hidentity : ∀ other ∈ db.records t, other.uuid ≠ record.uuid)
    (hunique : ∀ p ∈ record.details.toList, ¬db.Holds t p) (hlacks : db.Lacks record)
    (hfk : fk ∈ t.foreignKeys) :
    Refuses db record (.foreignKey
      ⟨⟨"memory", t.name, fk.constraint, fk.column⟩, ⟨fk.refTable.name, fk.refColumn⟩⟩)

variable {t : Table} {db : Database} {record : Record t} {row : Row} {f : Failure}

/-- Checks one after the other fail at the first that fails. -/
theorem forM_eq_error_iff {ε α : Type} {f : α → Except ε Unit} {xs : List α} {e : ε} :
    xs.forM f = .error e ↔ ∃ a, IsFirst (fun a => f a ≠ .ok ()) xs a ∧ f a = .error e := by
  induction xs with
  | nil =>
    refine iff_of_false nofun ?_
    rintro ⟨a, hfirst, -⟩
    exact nomatch hfirst.mem
  | cons x xs ih =>
    show (f x >>= fun _ => xs.forM f) = .error e ↔ _
    simp only [isFirst_cons]
    cases hx : f x with
    | error e' =>
      constructor
      · intro h
        cases h
        exact ⟨x, .inl ⟨nofun, rfl⟩, hx⟩
      · rintro ⟨a, ⟨-, rfl⟩ | ⟨hok, -⟩, ha⟩
        · exact hx.symm.trans ha
        · exact absurd nofun hok
    -- behind a check that passes, the first failure is that of the others
    | ok u =>
      refine ih.trans (exists_congr fun a => and_congr_left fun _ => ?_)
      simp

/-- A record is refused for the first of its fields that is not valid, the uuid before
all details. -/
theorem Record.check_eq_error_iff {v : Violation} :
    record.check = .error v ↔ record.FirstInvalid v := by
  rw [FirstInvalid, ← forM_eq_error_iff]
  show (t.identity.check record.uuid >>= fun _ => record.details.check) = .error v ↔ _
  cases t.identity.check record.uuid with
  | error v' => exact (or_iff_left fun h => nomatch h.1).symm
  | ok u => exact (or_iff_right nofun).trans (and_iff_right rfl) |>.symm

/-- **A record is accepted just when nothing is there that it could be refused with.** -/
theorem Database.accepts_iff : db.Accepts record ↔ ∀ f, ¬db.Refuses record f := by
  constructor
  · intro h f hrefuses
    cases hrefuses with
    | invalid hinvalid =>
      have hcheck := Record.check_eq_error_iff.2 hinvalid
      rw [h.valid] at hcheck
      cases hcheck
    | seat _ hrow hclash => exact h.seat _ hrow _ hclash
    | identity _ _ hother huuid => exact h.identity _ hother huuid
    | unique _ _ _ hfirst => exact h.unique _ hfirst.mem hfirst.holds
    | reference _ _ _ _ hlacks _ => exact h.referent hlacks
  · intro h
    have hvalid : record.check = .ok () := by
      cases hcheck : record.check with
      | error v => exact absurd (.invalid (Record.check_eq_error_iff.1 hcheck)) (h _)
      | ok u => rfl
    -- each condition is met because the refusal for it would need only those before it
    have hseat : ∀ row ∈ db.rows t, ∀ d, ¬record.ClashesWith row d :=
      fun row hrow d hclash => h _ (.seat hvalid hrow hclash)
    have hidentity : ∀ other ∈ db.records t, other.uuid ≠ record.uuid :=
      fun other hother huuid => h _ (.identity hvalid hseat hother huuid)
    have hunique : ∀ p ∈ record.details.toList, ¬db.Holds t p := by
      intro p hp hholds
      obtain ⟨q, hfirst⟩ := exists_isFirst ⟨p, hp, hholds⟩
      exact h _ (.unique hvalid hseat hidentity hfirst)
    refine ⟨hvalid, hseat, hidentity, hunique, fun hlacks => ?_⟩
    have ⟨_, _, hreferent, _⟩ := hlacks
    obtain ⟨fk, hall, -⟩ := Record.exists_foreignKey_of_referent? hreferent
    exact h _ (.reference hvalid hseat hidentity hunique hlacks (hall ▸ List.mem_singleton_self fk))

-- ---------------------------------------------------------------------------
-- What the engine compares
-- ---------------------------------------------------------------------------

theorem Details.map_fst_toList {ms : List Member} (d : Details ms) :
    d.toList.map Sigma.fst = ms := by
  induction ms with
  | nil => rfl
  | cons m ms ih =>
    obtain ⟨content, rest⟩ := d
    rw [toList, List.map_cons, ih]

/-- A unique detail is never missing. -/
theorem Table.required_of_unique : ∀ m ∈ t.details, m.unique = true → m.optional = false := by
  cases t <;> decide

/-- The column of a detail. -/
def Member.column (m : Member) : Column := ⟨m.key, m.target.kind, m.optional, m.unique⟩

/-- The column of the identity. -/
def Table.identityColumn (t : Table) : Column := ⟨t.identityKey, t.identity.kind, false, false⟩

/-- The columns that the engine keeps. -/
def momentColumns : List Column :=
  [⟨createdAtKey, .timestamp, false, false⟩, ⟨updatedAtKey, .timestamp, false, false⟩]

/-- The columns of a table in declared order, told by the details of a record. -/
theorem Table.columns_eq (d : Details t.details) :
    t.columns = t.identityColumn :: (d.toList.map fun p => p.1.column) ++ momentColumns := by
  have hdetails : t.details.map Member.column = d.toList.map fun p => p.1.column :=
    (congrArg (List.map Member.column) d.map_fst_toList.symm).trans List.map_map
  rw [← hdetails]
  rfl

theorem Table.not_isKey_of_moment (t : Table) : ∀ c ∈ momentColumns, t.isKey c = false := by
  cases t <;> decide

/-- Two stored rows agree in the column of a detail just when their records agree in the detail. -/
theorem Record.StoredAs.get_detail_eq_iff {other : Record t} {o : Row} (ho : other.StoredAs o)
    (h : record.StoredAs row) {p : (m : Member) × m.Content} (hp : p ∈ record.details.toList) :
    o.get p.1.key = row.get p.1.key ↔ p ∈ other.details.toList := by
  constructor
  · intro hsame
    obtain ⟨q, hq, hmember⟩ :=
      Details.exists_mem_toList (d := other.details) (Details.fst_mem_of_mem_toList hp)
    obtain ⟨m, content⟩ := p
    obtain ⟨m', content'⟩ := q
    obtain rfl : m' = m := hmember
    rw [ho.get hq, h.get hp] at hsame
    have hread := Member.ofValue_toValue (ho.nonZero _ hq)
    rw [hsame, Member.ofValue_toValue (h.nonZero _ hp)] at hread
    obtain rfl : content = content' := Except.ok.inj hread
    exact hq
  · exact fun hmem => (ho.get hmem).trans (h.get hp).symm

namespace Database.Sound

/-- The row of a record repeats the identity of another row as the record has the uuid of another
record. -/
theorem repeats_identity_iff (h : db.Sound) (hstored : record.StoredAs row) {c : Column}
    (hname : c.name = t.identityKey) :
    (Change.mk (db.rows t) none (some row)).Repeats t c ↔
      ∃ other ∈ db.records t, other.uuid = record.uuid := by
  have hsame := h.exists_row_iff (t := t)
    (P := fun o => o.get t.identityKey = row.get t.identityKey) fun o other ho => by
      rw [ho.get_identityKey, hstored.get_identityKey, Value.text.injEq]
  rw [← hsame, ← hname]
  constructor
  · rintro ⟨_, ⟨⟩, -, -, hfound⟩
    exact hfound
  · refine fun hfound => ⟨row, rfl, by simp [Table.isKey, hname], ?_, hfound⟩
    rw [hname, hstored.get_identityKey]
    exact Value.noConfusion

/-- It repeats the column of a detail as another record has the same content of a unique detail. -/
theorem repeats_detail_iff (h : db.Sound) (hstored : record.StoredAs row)
    {p : (m : Member) × m.Content} (hp : p ∈ record.details.toList) :
    (Change.mk (db.rows t) none (some row)).Repeats t p.1.column ↔ db.Holds t p := by
  have hmember := Details.fst_mem_of_mem_toList hp
  have hkey : t.isKey p.1.column = p.1.unique := by
    show (p.1.unique || decide (p.1.key = t.identityKey)) = p.1.unique
    rw [decide_eq_false (Table.identityKey_not_detail _ hmember), Bool.or_false]
  -- equal values in the rows are equal contents in the records
  have hsame := h.exists_row_iff (t := t) (P := fun o => o.get p.1.key = row.get p.1.key)
    fun o other ho => ho.get_detail_eq_iff hstored hp
  rw [Holds, ← hsame, ← hkey]
  constructor
  · rintro ⟨_, ⟨⟩, hunique, -, hfound⟩
    exact ⟨hunique, hfound⟩
  · rintro ⟨hunique, hfound⟩
    -- the value is not null, for a key must be there and the record is valid
    have hvalid := Details.check_eq_ok_iff.1 (Record.check_eq_ok_iff.1 hstored.valid).2 p hp
    have hrequired := Table.required_of_unique _ hmember (hkey ▸ hunique)
    have hadmits : p.1.Admits (row.get p.1.key) := ⟨p.2, hvalid, (hstored.get hp).symm⟩
    exact ⟨row, rfl, hunique, hadmits.ne_null hrequired, hfound⟩

/-- **The first key that a row repeats** is the identity, or else the first unique detail that
another record has. -/
theorem isFirst_repeats_iff (h : db.Sound) (hstored : record.StoredAs row) {c : Column} :
    IsFirst ((Change.mk (db.rows t) none (some row)).Repeats t) t.columns c ↔
      (∃ other ∈ db.records t, other.uuid = record.uuid) ∧
          c = t.identityColumn ∨
        (∀ other ∈ db.records t, other.uuid ≠ record.uuid) ∧
          ∃ p, IsFirst (db.Holds t) record.details.toList p ∧ p.1.column = c := by
  have hmoments : ∀ c ∈ momentColumns, ¬(Change.mk (db.rows t) none (some row)).Repeats t c := by
    rintro c hc ⟨_, ⟨⟩, hkey, -⟩
    rw [t.not_isKey_of_moment c hc] at hkey
    cases hkey
  rw [t.columns_eq record.details, isFirst_append hmoments, isFirst_cons,
    h.repeats_identity_iff hstored rfl, isFirst_map_iff, eq_comm (a := c)]
  refine or_congr Iff.rfl (and_congr (by simp) (exists_congr fun p => and_congr_left' ?_))
  exact isFirst_congr fun p hp => h.repeats_detail_iff hstored hp

/-- Without such a record, the row repeats no key. -/
theorem forall_not_repeats_iff (h : db.Sound) (hstored : record.StoredAs row) :
    (∀ c ∈ t.columns, ¬(Change.mk (db.rows t) none (some row)).Repeats t c) ↔
      (∀ other ∈ db.records t, other.uuid ≠ record.uuid) ∧
        ∀ p ∈ record.details.toList, ¬db.Holds t p := by
  constructor
  · intro hdistinct
    rw [t.columns_eq record.details] at hdistinct
    obtain ⟨hkeys, -⟩ := List.forall_mem_append.1 hdistinct
    obtain ⟨hidentity, hdetails⟩ := List.forall_mem_cons.1 hkeys
    constructor
    · exact fun other hother huuid =>
        hidentity ((h.repeats_identity_iff hstored rfl).2 ⟨other, hother, huuid⟩)
    · exact fun p hp hholds => hdetails _ (List.mem_map_of_mem hp)
        ((h.repeats_detail_iff hstored hp).2 hholds)
  · rintro ⟨hidentity, hunique⟩ c hc hrepeats
    -- some column would be the first to repeat, and it is that of the uuid or of a unique detail
    obtain ⟨c, hfirst⟩ := exists_isFirst ⟨c, hc, hrepeats⟩
    obtain ⟨⟨other, hother, huuid⟩, -⟩ | ⟨-, p, hp, -⟩ := (h.isFirst_repeats_iff hstored).1 hfirst
    · exact hidentity other hother huuid
    · exact hunique p hp.mem hp.holds

/-- A reference of the row of a record dangles as the record refers to an account that is not
there. -/
theorem dangles_iff (h : db.Sound) (hstored : record.StoredAs row) (others : List Row)
    {fk : ForeignKey} (hfk : fk ∈ t.foreignKeys) :
    (Change.mk others none (some row)).Dangles db fk ↔ db.Lacks record := by
  -- the value of the reference and the column that it refers to
  have hvalues : ∀ {role uuid}, record.referent? = some (role, uuid) →
      row.get fk.column = .text uuid ∧ ∀ r (account : Record role.accounts), account.StoredAs r →
        r.get fk.refColumn = .text account.uuid := by
    intro role uuid hreferent
    have htable := Record.refTable_of_referent? hreferent hfk
    refine ⟨(hstored.get_reference_eq_iff hfk htable).2 hreferent, fun r account hr => ?_⟩
    rw [Table.refColumn_eq fk hfk, htable, hr.get_identityKey]
  constructor
  · rintro ⟨_, ⟨⟩, hvalue, hnone⟩
    cases hreferent : record.referent? with
    | none =>
      rw [hstored.get_reference hfk, hreferent] at hvalue
      exact absurd rfl hvalue
    | some p =>
      obtain ⟨role, uuid⟩ := p
      obtain ⟨hcolumn, hother⟩ := hvalues hreferent
      refine ⟨role, uuid, hreferent, fun account haccount huuid => ?_⟩
      obtain ⟨r, hr, hread⟩ := h.exists_row haccount
      rw [Record.refTable_of_referent? hreferent hfk] at hnone
      exact hnone r hr (by rw [hother r account hread, hcolumn, huuid])
  · rintro ⟨role, uuid, hreferent, hnone⟩
    obtain ⟨hcolumn, hother⟩ := hvalues hreferent
    refine ⟨row, rfl, hcolumn ▸ nofun, fun r hr hsame => ?_⟩
    rw [Record.refTable_of_referent? hreferent hfk] at hr
    obtain ⟨account, haccount, hread⟩ := h.exists_record hr
    rw [hother r account hread, hcolumn, Value.text.injEq] at hsame
    exact hnone account haccount hsame

end Database.Sound

/-- A duplicate of the identity is reported with the uuid. -/
theorem Record.StoredAs.entry_identity (h : record.StoredAs row) :
    (⟨if t.identityColumn.name = t.identityKey then "PRIMARY" else t.identityColumn.name,
      (row.get t.identityColumn.name).display⟩ : DuplicateEntry) = ⟨"PRIMARY", record.uuid⟩ := by
  have hname : t.identityColumn.name = t.identityKey := rfl
  rw [if_pos hname, hname, h.get_identityKey, Value.display]

/-- A duplicate of a detail is reported with its content. -/
theorem Record.StoredAs.entry_detail (h : record.StoredAs row) {p : (m : Member) × m.Content}
    (hp : p ∈ record.details.toList) :
    (⟨if p.1.column.name = t.identityKey then "PRIMARY" else p.1.column.name,
      (row.get p.1.column.name).display⟩ : DuplicateEntry) =
        ⟨p.1.key, (p.1.toValue p.2).display⟩ := by
  have hname : p.1.column.name ≠ t.identityKey :=
    Table.identityKey_not_detail _ (Details.fst_mem_of_mem_toList hp)
  have hvalue : row.get p.1.column.name = p.1.toValue p.2 := h.get hp
  rw [hvalue, if_neg hname, Member.column]

/-- Storing a record adds moments, and does not change what it refers to. -/
theorem Record.referent?_stored (record : Record t) (now : Timestamp) :
    (record.stored now).referent? = record.referent? := by
  cases t <;> rfl

theorem Record.loginId?_stored (record : Record t) (now : Timestamp) :
    (record.stored now).loginId? = record.loginId? := by
  cases t <;> rfl

/-- **What the engine refuses a valid record with**, where the composite key of the
record is free. -/
theorem Change.refused_insert_iff (h : db.Sound) (hcheck : record.check = .ok ())
    (hseat : ∀ row ∈ db.rows t, ∀ d, ¬record.ClashesWith row d) (now : Timestamp) :
    (Change.mk (db.rows t) none (some (Database.complete t record.toColumns now))).Refused db t f ↔
      db.Refuses record f := by
  have hsound := Table.sound_complete hcheck now
  have hstored := hsound.storedAs (Record.ofColumns_complete hcheck now)
  have hdistinct := h.forall_not_repeats_iff hstored
  have hlacks : db.Lacks (record.stored now) ↔ db.Lacks record := by
    rw [Database.Lacks, record.referent?_stored, Database.Lacks]
  generalize Database.complete t record.toColumns now = row at *
  -- a valid row is complete, and a new one was not referred to, so two of the four checks pass
  have hholds : ∀ c ∈ t.columns, ¬(Change.mk (db.rows t) none (some row)).Lacks c := by
    rintro c hc ⟨_, ⟨⟩, hrequired, hvalue⟩
    exact Database.nullColumn?_eq_none_iff.1 hsound.nullColumn?_eq_none c hc hrequired hvalue
  have hkept : ∀ p ∈ Database.referrers t,
      ¬(Change.mk (db.rows t) none (some row)).Strands db p := by
    rintro p - ⟨_, hold, -⟩
    cases hold
  constructor
  · intro hrefused
    cases hrefused with
    | nullColumn hcolumn => exact absurd hcolumn.holds (hholds _ hcolumn.mem)
    | referenced _ hreference => exact absurd hreference.holds (hkept _ hreference.mem)
    | duplicate _ _ hrow hkey =>
      cases hrow
      obtain ⟨⟨other, hother, huuid⟩, rfl⟩ | ⟨hidentity, p, hfirst, rfl⟩ :=
        (h.isFirst_repeats_iff hstored).1 hkey
      · rw [hstored.entry_identity]
        exact .identity hcheck hseat hother huuid
      · rw [hstored.entry_detail hfirst.mem]
        exact .unique hcheck hseat hidentity hfirst
    | noReferent _ _ hkeys hreference =>
      obtain ⟨hidentity, hunique⟩ := hdistinct.1 hkeys
      have hdangles := (h.dangles_iff hstored _ hreference.mem).1 hreference.holds
      exact .reference hcheck hseat hidentity hunique (hlacks.1 hdangles) hreference.mem
  · intro hrefuses
    cases hrefuses with
    | invalid hinvalid =>
      have herror := Record.check_eq_error_iff.2 hinvalid
      rw [hcheck] at herror
      cases herror
    -- the composite key is free by assumption, so the registrar lets the record through
    | seat _ hrow hclash => exact absurd hclash (hseat _ hrow _)
    | identity _ _ hother huuid =>
      have hkey := (h.isFirst_repeats_iff hstored).2 (.inl ⟨⟨_, hother, huuid⟩, rfl⟩)
      have hrefused := Refused.duplicate hholds hkept rfl hkey
      rw [hstored.entry_identity] at hrefused
      exact hrefused
    | unique _ _ hidentity hfirst =>
      have hkey := (h.isFirst_repeats_iff hstored).2 (.inr ⟨hidentity, _, hfirst, rfl⟩)
      have hrefused := Refused.duplicate hholds hkept rfl hkey
      rw [hstored.entry_detail hfirst.mem] at hrefused
      exact hrefused
    | reference _ _ hidentity hunique hmissing hfk =>
      have ⟨_, _, hreferent, _⟩ := hmissing
      obtain ⟨own, hall, -⟩ := Record.exists_foreignKey_of_referent? hreferent
      have hdangles := (h.dangles_iff hstored (db.rows t) hfk).2 (hlacks.2 hmissing)
      obtain rfl := List.mem_singleton.1 (hall ▸ hfk)
      exact .noReferent hholds hkept (hdistinct.2 ⟨hidentity, hunique⟩)
        ⟨[], [], hall, hdangles, List.forall_mem_nil _⟩

-- ---------------------------------------------------------------------------
-- Creations
-- ---------------------------------------------------------------------------

namespace Registrar

open Transact Transaction

variable {now : Timestamp} {tx : Transaction}

/-- A row that holds the composite key stands in the way of a valid record. -/
theorem create_of_clash {d : DuplicateEntry} (hcheck : record.check = .ok ())
    (hrow : row ∈ tx.snapshot.rows t) (hclash : record.ClashesWith row d) :
    create now record tx = (.error (.duplicateEntry d), tx) := by
  obtain ⟨key, hkey, hvacant, rfl⟩ :=
    (tx.snapshot.exists_clash_iff hcheck none).1 ⟨row, hrow, nofun, hclash⟩
  rw [create, hcheck, ensure_ok_bind, hkey]
  exact bind_error (ensureVacant_error (known_compositeKey hkey) hvacant)

/-- Without such a row the record is inserted and read back. -/
theorem create_of_vacant (hcheck : record.check = .ok ())
    (hseat : ∀ row ∈ tx.snapshot.rows t, ∀ d, ¬record.ClashesWith row d) :
    create now record tx = (do
      Transaction.insert now t record.toColumns
      get t record.uuid : Transact (Record t)) tx := by
  rw [create, hcheck, ensure_ok_bind]
  cases hkey : record.compositeKey with
  | none => rfl
  | some key =>
    have hvacant : tx.snapshot.vacant t key none = true := by
      by_contra htaken
      obtain ⟨row, hrow, -, hclash⟩ := (tx.snapshot.exists_clash_iff hcheck none).2
        ⟨key, hkey, Bool.eq_false_iff.2 htaken, rfl⟩
      exact hseat row hrow _ hclash
    exact bind_ok (ensureVacant_ok (known_compositeKey hkey) hvacant)

/-- **An accepted record is stored behind the rows of its table.** -/
theorem create_of_accepts (hsound : tx.snapshot.Sound) (h : tx.snapshot.Accepts record)
    (now : Timestamp) :
    ∃ after row, create now record tx = (.ok (record.stored now), after) ∧
      (record.stored now).StoredAs row ∧
      after.snapshot = tx.snapshot.set t (tx.snapshot.rows t ++ [row]) := by
  -- whatever the engine could refuse the row with would keep the record from being accepted
  have hbreach : tx.snapshot.breach? t (tx.snapshot.rows t) none
      (Database.complete t record.toColumns now) = none := by
    refine Option.eq_none_iff_forall_ne_some.2 fun b hb => ?_
    rw [← Change.breach?_of_new] at hb
    have hrefused := Change.refused_iff.2 ⟨b, hb, rfl⟩
    exact Database.accepts_iff.1 h _
      ((Change.refused_insert_iff hsound h.valid h.seat now).1 hrefused)
  have hexecute : tx.snapshot.execute now (.insert t record.toColumns) = .ok (_, 1) :=
    Database.insert_eq_ok_iff.2 ⟨record.known_toColumns, hbreach, rfl, rfl⟩
  have hinserted : Transaction.insert now t record.toColumns tx = (.ok (), _) :=
    bind_ok (execute_ok hexecute)
  -- the checks of the registrar pass, the row is inserted, and the lookup behind it finds the row
  have hcreated := (create_of_vacant h.valid h.seat).trans
    ((bind_ok hinserted).trans (get_of_inserted h.valid hinserted))
  have hstored := (Table.sound_complete h.valid now).storedAs
    (Record.ofColumns_complete h.valid now)
  exact ⟨_, _, hcreated, hstored, rfl⟩

/-- **A record that is refused leaves the transaction as it was.** -/
theorem create_of_refuses (hsound : tx.snapshot.Sound) (h : tx.snapshot.Refuses record f) :
    create now record tx = (.error f, tx) := by
  -- behind the checks of the registrar, the engine refuses the insertion
  have hengine : record.check = .ok () →
      (∀ row ∈ tx.snapshot.rows t, ∀ d, ¬record.ClashesWith row d) →
        create now record tx = (.error f, tx) := by
    intro hcheck hseat
    obtain ⟨b, hb, rfl⟩ :=
      Change.refused_iff.1 ((Change.refused_insert_iff hsound hcheck hseat now).2 h)
    rw [Change.breach?_of_new] at hb
    have hexecute : tx.snapshot.execute now (.insert t record.toColumns) = .error b := by
      rw [Database.execute, Database.insert,
        (Database.unknownColumn?_eq_none_iff .fieldList).2 record.known_toColumns]
      simp only [hb]
    rw [create_of_vacant hcheck hseat]
    exact bind_error (bind_error (execute_error hexecute))
  cases h with
  | invalid hinvalid => rw [create, Record.check_eq_error_iff.2 hinvalid, ensure_error_bind]
  | seat hvalid hrow hclash => exact create_of_clash hvalid hrow hclash
  | identity hvalid hseat _ _ => exact hengine hvalid hseat
  | unique hvalid hseat _ _ => exact hengine hvalid hseat
  | reference hvalid hseat _ _ _ _ => exact hengine hvalid hseat

end Registrar

/-- What a transaction answers to the creation of a record, and what becomes of it. A record is
accepted or refused just as its table and the others stand. An accepted one is answered as it is
stored, both its moments being that of the creation, and its row comes behind the rows of its table;
a refused one leaves everything as it was. -/
structure Transaction.Stores (now : Timestamp) (record : Record t) (before : Transaction)
    (answer : Except Refusal Answer) (after : Transaction) : Prop where
  accepted : ∀ a, answer = .ok a ↔
    before.snapshot.Accepts record ∧ a = .record t (record.stored now)
  refused  : ∀ refusal, answer = .error refusal ↔
    ∃ f, refusal = .failure f ∧ before.snapshot.Refuses record f
  appended : before.snapshot.Accepts record → ∃ row, (record.stored now).StoredAs row ∧
    after.snapshot = before.snapshot.set t (before.snapshot.rows t ++ [row])
  kept     : ∀ f, before.snapshot.Refuses record f → after = before

/-- **A creation does just this.** -/
theorem Registrar.create_stores {tx : Transaction} (hsound : tx.snapshot.Sound) (now : Timestamp)
    (record : Record t) :
    tx.Stores now record
      (((create now record tx).1.map (Answer.record t)).mapError Refusal.failure)
      (create now record tx).2 := by
  by_cases haccepts : tx.snapshot.Accepts record
  · obtain ⟨after, row, hcreate, hstored, hafter⟩ := create_of_accepts hsound haccepts now
    have hnone := Database.accepts_iff.1 haccepts
    rw [hcreate]
    refine ⟨fun a => ⟨?_, ?_⟩, fun refusal => ⟨nofun, ?_⟩, fun _ => ⟨row, hstored, hafter⟩,
      fun f hrefuses => absurd hrefuses (hnone f)⟩
    · rintro ⟨⟩
      exact ⟨haccepts, rfl⟩
    · rintro ⟨-, rfl⟩
      rfl
    · rintro ⟨f, -, hrefuses⟩
      exact absurd hrefuses (hnone f)
  · obtain ⟨f, hrefuses⟩ : ∃ f, tx.snapshot.Refuses record f := by
      simpa [Database.accepts_iff] using haccepts
    have hcreate : ∀ {g}, tx.snapshot.Refuses record g →
        create now record tx = (.error g, tx) := create_of_refuses hsound
    rw [hcreate hrefuses]
    refine ⟨fun a => ⟨nofun, fun h => absurd h.1 haccepts⟩, fun refusal => ⟨?_, ?_⟩,
      fun h => absurd h haccepts, fun _ _ => rfl⟩
    · rintro ⟨⟩
      exact ⟨f, rfl, hrefuses⟩
    · -- a record that may be refused with two failures would be refused with both, and is with one
      rintro ⟨g, rfl, hother⟩
      have hsame := (hcreate hrefuses).symm.trans (hcreate hother)
      cases hsame
      rfl

-- ---------------------------------------------------------------------------
-- Whole runs
-- ---------------------------------------------------------------------------

/-- The login id of a valid account is valid. -/
theorem Record.check_loginId {role : Role} {account : Record role.accounts} {id : String}
    (hcheck : account.check = .ok ()) (hid : account.loginId? = some id) :
    (Attribute.text (.loginId role)).check id = .ok () := by
  have hvalid := Details.check_eq_ok_iff.1 (check_eq_ok_iff.1 hcheck).2
  cases role <;>
  · obtain ⟨uuid, ⟨own, rest⟩, created, updated⟩ := account
    cases hid
    exact hvalid _ (.head _)

namespace Session

variable {steps : List (Timestamp × Step)} {tx : String} {opened : OpenTransaction}

/-- **A creation, from the checks to the lookups.** Where all writing goes through operations on
records, an open transaction stores a record just when it is accepted, and else tells the first
thing that is wrong with it. What has been stored is what a following lookup by its uuid finds, and
one by its login id if it is an account. -/
theorem create_run (hwrites : RecordWrites steps) (hfind : (new.run steps).find? tx = some opened)
    (haccess : opened.access = .records) (now : Timestamp) (record : Record t) :
    ∃ after, ((new.run steps).step now (.operate tx (.create t record))).1.find? tx =
        some { opened with transaction := after } ∧
      opened.transaction.Stores now record ((new.run steps).reply now tx (.create t record)) after ∧
      (opened.transaction.snapshot.Accepts record → ∀ later,
        let next := ((new.run steps).step now (.operate tx (.create t record))).1
        next.reply later tx (.get t record.uuid) = .ok (.record t (record.stored now)) ∧
          ∀ role, t = role.accounts → ∃ id, record.loginId? = some id ∧
            next.reply later tx (.login role id) = .ok (.record t (record.stored now))) := by
  have hsound := (throughout_sound hwrites).snapshot tx opened hfind
  have hrun : (Operation.create t record).run now =
    Registrar.create now record >>= fun stored => pure (Answer.record t stored) := rfl
  obtain ⟨hanswer, hopen⟩ := operate_of_open hfind haccess hrun
  have hstores := Registrar.create_stores hsound now record
  rw [← hanswer] at hstores
  refine ⟨_, hopen, hstores, fun haccepts later => ?_⟩
  -- the lookups go on from a run that is longer by the creation
  have hnext := recordWrites_concat hwrites now tx (.create t record)
  have hlonger : new.run (steps ++ [(now, .operate tx (.create t record))]) =
    ((new.run steps).step now (.operate tx (.create t record))).1 := run_concat _ _ _
  rw [← hlonger] at hopen ⊢
  obtain ⟨row, hstored, hrows⟩ := hstores.appended haccepts
  have hrow : row ∈ (Registrar.create now record opened.transaction).2.snapshot.rows t := by
    rw [hrows, Database.rows_set_self]
    simp
  constructor
  · have hget := get_answers hnext hopen haccess later hstored.check_uuid
    exact (hget.found _).2 ⟨row, hrow, hstored.decodes, rfl⟩
  · rintro role rfl
    obtain ⟨id, hid, -⟩ := hstored.get_loginId
    have hlogin := login_answers hnext hopen haccess later
      (Record.check_loginId hstored.valid hid)
    exact ⟨id, (record.loginId?_stored now).symm.trans hid,
      (hlogin.found _).2 ⟨row, hrow, hstored.decodes, hid⟩⟩

/-- A student is linked to the one parent. -/
def linkedStudent : List (Timestamp × Step) :=
  [(.ofSeconds 1, .begin .records "a"),
    (.ofSeconds 2, .operate "a" (.create .parentAuths
      ⟨"parent-000000000001", ("lee1", "hash", ()), none, none⟩)),
    (.ofSeconds 3, .operate "a" (.create .studentAuths
      ⟨"student-000000000001", ("choi", "hash", some "parent-000000000001", ()), none, none⟩))]

/-- A second student of this parent. -/
def secondStudent : Record .studentAuths :=
  ⟨"student-000000000002", ("choi2", "hash", some "parent-000000000001", ()), none, none⟩

/-- A student with the login id of the first, whose parent is not there. -/
def unlinkedStudent : Record .studentAuths :=
  ⟨"student-000000000003", ("choi", "hash", some "parent-000000000002", ()), none, none⟩

/-- The second student is stored and found by the login id; the third is refused for the login id
before the parent is looked for. -/
theorem create_run_linkedStudent :
    ((new.run linkedStudent).step (.ofSeconds 4)
      (.operate "a" (.create .studentAuths secondStudent))).1.reply (.ofSeconds 5) "a"
        (.login .student "choi2") =
        .ok (.record .studentAuths (secondStudent.stored (.ofSeconds 4))) ∧
      (new.run linkedStudent).reply (.ofSeconds 4) "a" (.create .studentAuths unlinkedStudent) =
        .error (.failure (.duplicateEntry ⟨"student_id", "choi"⟩)) := by
  have hwrites : RecordWrites linkedStudent := by simp [RecordWrites, linkedStudent]
  have hopen : ((new.run linkedStudent).find? "a").map (fun opened => (opened.access,
      opened.transaction.snapshot.records .studentAuths)) =
      some (.records, [⟨"student-000000000001",
        ("choi", "hash", some "parent-000000000001", ()),
          some (.ofSeconds 3), some (.ofSeconds 3)⟩]) := by rfl
  obtain ⟨opened, hfind, hheld⟩ := Option.map_eq_some_iff.1 hopen
  obtain ⟨haccess, hstudents⟩ := Prod.mk.inj hheld
  constructor
  · have hanswer : (new.run linkedStudent).reply (.ofSeconds 4) "a"
        (.create .studentAuths secondStudent) =
          .ok (.record .studentAuths (secondStudent.stored (.ofSeconds 4))) := by rfl
    obtain ⟨after, -, hstores, hlookups⟩ :=
      create_run hwrites hfind haccess (.ofSeconds 4) secondStudent
    obtain ⟨haccepts, -⟩ := (hstores.accepted _).1 hanswer
    obtain ⟨id, hid, hlogin⟩ := (hlookups haccepts (.ofSeconds 5)).2 .student rfl
    cases hid
    exact hlogin
  · obtain ⟨after, -, hstores, -⟩ :=
      create_run hwrites hfind haccess (.ofSeconds 4) unlinkedStudent
    have hcheck : unlinkedStudent.check = .ok () := by rfl
    have hidentity : ∀ other ∈ opened.transaction.snapshot.records .studentAuths,
        other.uuid ≠ unlinkedStudent.uuid := by simp [hstudents, unlinkedStudent]
    have hlogin : opened.transaction.snapshot.Holds .studentAuths
        ⟨.distinct "student_id" (.text (.loginId .student)), "choi"⟩ :=
      ⟨rfl, _, hstudents ▸ List.mem_singleton_self _, .head _⟩
    exact (hstores.refused _).2 ⟨_, rfl, .unique hcheck (fun _ _ _ => id) hidentity
      ⟨[], _, rfl, hlogin, List.forall_mem_nil _⟩⟩

end Session

end Rollbook
