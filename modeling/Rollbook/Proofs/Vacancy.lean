import Rollbook.Proofs.Codec
import Rollbook.Proofs.Course
import Rollbook.Proofs.Seat

/-!
# Rollbook — what the check for a free seat is worth

Before a profile is created, or moved to another seat, the registrar looks for rows that hold the
seat already. The check reads typed records, the rule is about rows; the two agree because the
composite columns of every row that the registrar wrote hold what a small number is stored as
(`keeps_typed`). On its own copy a transaction then keeps full seats apart
(`SeatsApart.execute`).
-/

namespace Rollbook

-- ---------------------------------------------------------------------------
-- Small numbers in composite columns
-- ---------------------------------------------------------------------------

/-- The values that a number attribute is stored as: nothing, or a number from 1 to 255. -/
def Value.Small (v : Value) : Prop := ∃ c : UInt8, v = if c = 0 then .null else .int c.toNat

theorem Value.small_null : Value.Small .null := ⟨0, rfl⟩

/-- A number of a record is small, as it comes from eight bits. -/
theorem Attribute.small_toValue {a : Attribute} (ha : a.kind = .int) (content : a.Content) :
    (a.toValue content).Small := by
  cases a with
  | text a => cases ha
  | number a => exact ⟨content, rfl⟩

theorem Member.small_toValue {m : Member} (hm : m.target.kind = .int) (content : m.Content) :
    (m.toValue content).Small := by
  obtain ⟨label, target, optional, unique⟩ := m
  cases optional with
  | false => exact Attribute.small_toValue hm content
  | true =>
    cases content with
    | none => exact Value.small_null
    | some content => exact Attribute.small_toValue hm content

/-- A small number is read as a content that is stored as the number again. -/
theorem Member.toValue_ofValue {m : Member} (hm : m.target.kind = .int) {v : Value}
    (hv : v.Small) {content : m.Content} (h : m.ofValue v = .ok content) :
    m.toValue content = v := by
  obtain ⟨label, target, optional, unique⟩ := m
  obtain ⟨c, rfl⟩ := hv
  cases target with
  | text a => cases hm
  | number a =>
    cases optional with
    | false =>
      have hread : (Attribute.number a).ofValue ((Attribute.number a).toValue c) = .ok content := h
      rw [Attribute.ofValue_toValue] at hread
      cases hread
      rfl
    | true =>
      by_cases hc : c = 0
      · subst hc
        cases h
        rfl
      · have hread : (Attribute.number a).ofValue? ((Attribute.number a).toValue c) =
            .ok content := h
        rw [Attribute.ofValue?_toValue (by simpa [Attribute.isZero] using hc)] at hread
        cases hread
        rfl

variable {t : Table}

namespace Record

/-- On a composite column, the columns of a record are those of its details. -/
theorem get_toColumns (record : Record t) {name : String} (h : name ∈ t.compositeColumns) :
    record.toColumns.get name = record.details.toColumns.get name := by
  have hne : name ≠ t.identityKey := fun heq => Table.identityKey_not_composite (heq ▸ h)
  rw [toColumns, Columns.get, Columns.get?_insert_of_ne _ _ hne]
  rfl

/-- The composite columns of a record are null or small, so they are told apart by the texts of a
key. -/
theorem small_toColumns (record : Record t) :
    ∀ name ∈ t.compositeColumns, (record.toColumns.get name).Small := by
  intro name hname
  rw [record.get_toColumns hname, Columns.get]
  cases hvalue : record.details.toColumns.get? name with
  | none => exact Value.small_null
  | some value =>
    obtain ⟨m, hm, content, rfl, rfl⟩ := Details.exists_of_get? hvalue
    exact Member.small_toValue (Table.isNumber_of_composite m hm hname) content

/-- The record that a row is read as holds the seat of the row. -/
theorem get_toColumns_of_ofColumns {row : Columns} {record : Record t}
    (h : ofColumns t row = .ok record)
    (hsmall : ∀ name ∈ t.compositeColumns, (row.get name).Small) :
    ∀ name ∈ t.compositeColumns, record.toColumns.get name = row.get name := by
  intro name hname
  obtain ⟨m, hm, rfl⟩ := Table.exists_detail_of_composite name hname
  obtain ⟨-, hdetails, -⟩ := ofColumns_eq_ok_iff.1 h
  rw [record.get_toColumns hname]
  refine Details.get_toColumns_of_ofColumns Table.details_keys_nodup hdetails hm ?_
  intro content hcontent
  exact Member.toValue_ofValue (Table.isNumber_of_composite m hm hname) (hsmall m.key hname)
    hcontent

/-- A record with a full seat has a composite key, which asks for just this seat. -/
theorem exists_compositeKey {record : Record t} (hcomposite : t.compositeColumns ≠ [])
    (hfull : t.Full (t.seat record.toColumns)) :
    ∃ key, record.compositeKey = some key ∧
      ∀ name ∈ t.compositeColumns, key.filter.get? name = some (record.toColumns.get name) := by
  have hmember : ∀ p ∈ record.details.toList, record.toColumns.get p.1.key = p.1.toValue p.2 :=
    fun _ => get_toColumns_of_mem
  -- a full seat has no null among its columns
  have hvalue : ∀ name ∈ t.compositeColumns, record.toColumns.get name ≠ .null := by
    intro name hname
    rw [← Table.seat_of_mem hname]
    exact hfull name hname
  obtain ⟨uuid, details, created, updated⟩ := record
  rcases Table.composite_cases hcomposite with rfl | rfl
  · obtain ⟨grade, schoolClass, number, rest⟩ := details
    have hgrade := hmember ⟨_, grade⟩ (.head _)
    have hclass := hmember ⟨_, schoolClass⟩ (.tail _ (.head _))
    have hnumber := hmember ⟨_, number⟩ (.tail _ (.tail _ (.head _)))
    refine ⟨seat grade schoolClass number, rfl, ?_⟩
    intro name hname
    show (Columns.ofList [_, _, _]).get? name = _
    rw [Columns.get?_ofList]
    · simp only [Table.compositeColumns, List.mem_cons, List.not_mem_nil, or_false] at hname
      rcases hname with rfl | rfl | rfl
      · exact congrArg some hgrade.symm
      · exact congrArg some hclass.symm
      · exact congrArg some hnumber.symm
    · show List.Nodup ["grade", "class", "student_number"]
      decide
  · obtain ⟨grade, schoolClass, rest⟩ := details
    have hgrade := hmember ⟨_, grade⟩ (.head _)
    have hclass := hmember ⟨_, schoolClass⟩ (.tail _ (.head _))
    -- without a grade or a class, the seat would not be full
    cases grade with
    | none => exact absurd hgrade (hvalue NumberAttribute.grade.key (by decide))
    | some grade =>
      cases schoolClass with
      | none => exact absurd hclass (hvalue NumberAttribute.schoolClass.key (by decide))
      | some schoolClass =>
        refine ⟨homeroom grade schoolClass, rfl, ?_⟩
        intro name hname
        show (Columns.ofList [_, _]).get? name = _
        rw [Columns.get?_ofList]
        · simp only [Table.compositeColumns, List.mem_cons, List.not_mem_nil, or_false] at hname
          rcases hname with rfl | rfl
          · exact congrArg some hgrade.symm
          · exact congrArg some hclass.symm
        · show List.Nodup ["grade", "class"]
          decide

/-- The rows that a composite key looks for are those that hold the seat of its record. -/
theorem meets_compositeKey {record : Record t} {key : CompositeKey} {row : Row}
    (hkey : record.compositeKey = some key)
    (hfilter : ∀ name ∈ t.compositeColumns,
      key.filter.get? name = some (record.toColumns.get name)) :
    row.meets key.filter = true ↔ t.seat row = t.seat record.toColumns := by
  rw [Columns.meets_iff, Table.seat_eq_iff]
  constructor
  · exact fun h name hname => h name _ (hfilter name hname)
  · intro h name value hvalue
    -- a key asks for composite columns and for nothing else
    have hname : name ∈ t.compositeColumns :=
      (names_compositeKey hkey name).1 ((Columns.mem_names_iff _).2 ⟨value, hvalue⟩)
    rw [hfilter name hname, Option.some.injEq] at hvalue
    rw [h name hname, hvalue]

end Record

namespace Database

/-- Every composite column holds what a small number is stored as. -/
def Typed (db : Database) : Prop :=
  ∀ t, ∀ row ∈ db.rows t, ∀ name ∈ t.compositeColumns, (row.get name).Small

theorem typed_empty : Typed empty := fun _ _ hrow => by cases hrow

/-- A revision leaves small what it does not set, and sets nothing but small numbers. -/
theorem small_getD_payload {revision : Revision t} {row : Columns} {name : String}
    (hname : name ∈ t.compositeColumns) (hrow : (row.get name).Small) :
    ((revision.payload.get? name).getD (row.get name)).Small := by
  cases hvalue : revision.payload.get? name with
  | none => exact hrow
  | some value =>
    obtain ⟨m, hm, content, rfl, rfl⟩ := Changes.exists_of_get? hvalue
    exact Attribute.small_toValue (Table.isNumber_of_composite m hm hname) content

/-- Statements of the registrar keep the composite columns typed. -/
theorem keeps_typed : Keeps Typed Statement.ByRecord := by
  refine keeps_rows ?_ ?_
  · rintro t columns now ⟨record, rfl⟩ name hname
    rw [get_complete (t.known_compositeColumns name hname)
      (Table.not_isTimestamp_composite name hname)]
    exact record.small_toColumns name hname
  · rintro t filter payload now row revised ⟨uuid, revision, rfl, rfl⟩ hrow hrev name hname
    obtain ⟨-, -, rfl⟩ := revised?_eq_some_iff.1 hrev
    rw [Columns.get, Columns.get?_insert_of_ne _ _ (Table.composite_ne_updatedAt name hname),
      ← Columns.get, Columns.get_overlay]
    exact small_getD_payload hname (hrow name hname)

variable {db next : Database} {now : Timestamp} {n : Nat}

/-- A seat that passed the check belongs to nobody but its owner. -/
theorem owner_of_vacant {record : Record t} {key : CompositeKey} {owner : Option Value}
    {id : Value} (hkey : record.compositeKey = some key)
    (hfilter : ∀ name ∈ t.compositeColumns,
      key.filter.get? name = some (record.toColumns.get name))
    (hvacant : db.vacant t key owner = true)
    (hseat : db.seat? t id = some (t.seat record.toColumns)) : owner = some id := by
  obtain ⟨row, hrow, rfl, hsame⟩ := exists_of_seat? hseat
  have hmeets : row.meets key.filter = true := (Record.meets_compositeKey hkey hfilter).2 hsame
  rw [vacant, List.all_eq_true] at hvacant
  have howner := hvacant row (List.mem_filter.2 ⟨hrow, hmeets⟩)
  rw [Option.any_eq_true] at howner
  obtain ⟨id, hid, hsameId⟩ := howner
  rw [hid, of_decide_eq_true hsameId]

/-- A state with the seats of one in which they are apart has them apart as well. -/
theorem SeatsApart.of_unmoved (h : db.SeatsApart)
    (hsame : ∀ t id, t.compositeColumns ≠ [] → next.seat? t id = db.seat? t id) :
    next.SeatsApart := by
  intro t hcomposite id id' seat hid hid' hfull
  rw [hsame t id hcomposite] at hid
  rw [hsame t id' hcomposite] at hid'
  exact h t hcomposite id id' seat hid hid' hfull

/-- Full seats stay apart if one of them moves to where no other is. -/
theorem SeatsApart.of_vacant {t₀ : Table} {id₀ : Value} (h : db.SeatsApart)
    (hothers : ∀ t id, t.compositeColumns ≠ [] → ¬(t₀ = t ∧ id₀ = id) →
      next.seat? t id = db.seat? t id)
    (hvacant : t₀.compositeColumns ≠ [] → ∀ id seat, t₀.Full seat →
      next.seat? t₀ id₀ = some seat → db.seat? t₀ id = some seat → id₀ = id) :
    next.SeatsApart := by
  intro t hcomposite id id' seat hid hid' hfull
  -- at most one of the two rows is the one that moved
  by_cases hone : t₀ = t ∧ id₀ = id
  · obtain ⟨rfl, rfl⟩ := hone
    by_contra hne
    rw [hothers t₀ id' hcomposite fun hboth => hne hboth.2] at hid'
    exact hne (hvacant hcomposite id' seat hfull hid hid')
  · rw [hothers t id hcomposite hone] at hid
    by_cases hone' : t₀ = t ∧ id₀ = id'
    · obtain ⟨rfl, rfl⟩ := hone'
      exact (hvacant hcomposite id seat hfull hid' hid).symm
    · rw [hothers t id' hcomposite hone'] at hid'
      exact h t hcomposite id id' seat hid hid' hfull

/-- The seat that a revision moves its record to, as the check computes it. -/
theorem exists_merged_of_movable {uuid : String} {revision : Revision t} {old : Seat}
    (htyped : db.Typed) (hmovable : db.movable t uuid revision.payload = true)
    (hseat : db.seat? t (t.identity.toValue uuid) = some old) :
    ∃ merged : Record t, t.seat merged.toColumns = t.moved revision.payload old ∧
      merged.compositeKey.all
        (fun key => db.vacant t key (some (t.identity.toValue uuid))) = true := by
  -- the row that the check reads is the one that has the seat
  have hfound : ((db.rows t).find? fun row => row.get t.identityKey = t.identity.toValue uuid) =
      (db.select t (t.identityFilter uuid)).head? := by
    rw [select, List.head?_filter]
    congr 1
    funext row
    rw [Bool.eq_iff_iff, decide_eq_true_eq, Table.meets_identityFilter]
  rw [seat?, hfound] at hseat
  rw [movable] at hmovable
  cases hrows : db.select t (t.identityFilter uuid) with
  | nil =>
    rw [hrows] at hseat
    cases hseat
  | cons row rest =>
    rw [hrows] at hseat hmovable
    cases hseat
    have hrow : row ∈ db.rows t := by
      have hmem : row ∈ db.select t (t.identityFilter uuid) := hrows ▸ List.mem_cons_self
      exact (List.mem_filter.1 hmem).1
    have hsmall := htyped t row hrow
    cases hcurrent : Record.ofColumns t row with
    | error e => simp [hcurrent] at hmovable
    | ok current =>
      -- the row holds small numbers, which survive being read
      have hread := Record.get_toColumns_of_ofColumns hcurrent hsmall
      have hvalue : ∀ name ∈ t.compositeColumns,
          (current.toColumns.overlay revision.payload).get name =
            (revision.payload.get? name).getD (row.get name) := by
        intro name hname
        rw [Columns.get_overlay, hread name hname]
      cases hmerged : Record.ofColumns t (current.toColumns.overlay revision.payload) with
      | error e => simp [hcurrent, hmerged] at hmovable
      | ok merged =>
        have hsmallMerged : ∀ name ∈ t.compositeColumns,
            ((current.toColumns.overlay revision.payload).get name).Small := by
          intro name hname
          rw [hvalue name hname]
          exact small_getD_payload hname (hsmall name hname)
        have hreadMerged := Record.get_toColumns_of_ofColumns hmerged hsmallMerged
        refine ⟨merged, ?_, by simpa [hcurrent, hmerged] using hmovable⟩
        -- read as small numbers, the merged columns come back unchanged
        funext name
        by_cases hname : name ∈ t.compositeColumns
        · rw [Table.seat_of_mem hname, hreadMerged name hname, hvalue name hname, Table.moved,
            if_pos hname, Table.seat_of_mem hname]
        · rw [Table.seat, if_neg hname, Table.moved, if_neg hname]

/-- **The check of an operation keeps full seats apart on the copy that it reads.** -/
theorem SeatsApart.execute {operation : Operation} {statement : Statement} (h : db.SeatsApart)
    (htyped : db.Typed) (hissued : operation.issued? db = some statement)
    (hexecute : db.execute now statement = .ok (next, n)) : next.SeatsApart := by
  have hrecord := Operation.byRecord_of_issued? hissued
  -- all rows but the one that the statement writes stay seated
  have hothers : ∀ t id, t.compositeColumns ≠ [] → ¬statement.Writes t id →
      next.seat? t id = db.seat? t id := fun t id hcomposite hwrites =>
    seat?_execute_of_not_writes hrecord hexecute hcomposite hwrites
  cases operation with
  | create t record =>
    simp only [Operation.issued?, Option.ite_none_right_eq_some, Option.some.injEq] at hissued
    obtain ⟨⟨-, hvacant⟩, rfl⟩ := hissued
    have hmove : ∀ t' id, t'.compositeColumns ≠ [] →
        ¬(t = t' ∧ record.toColumns.get t.identityKey = id) →
          next.seat? t' id = db.seat? t' id := by
      intro t' id hcomposite hother
      refine hothers t' id hcomposite ?_
      rintro ⟨rfl, hid⟩
      exact hother ⟨rfl, hid⟩
    refine h.of_vacant hmove fun hcomposite id seat hfull hnew hold => ?_
    -- the seat of a new record was asked for without an owner
    rw [seat?_execute hrecord hexecute hcomposite, Statement.move, if_pos ⟨rfl, rfl⟩] at hnew
    cases hnew
    obtain ⟨key, hkey, hfilter⟩ := Record.exists_compositeKey hcomposite hfull
    rw [hkey, Option.all_some] at hvacant
    cases owner_of_vacant hkey hfilter hvacant hold
  | modify t uuid revision =>
    simp only [Operation.issued?, Option.ite_none_right_eq_some, Option.some.injEq] at hissued
    obtain ⟨⟨-, -, -, -, hmovable⟩, rfl⟩ := hissued
    by_cases htouches : t.touchesComposite revision.payload = true
    · have hmove : ∀ t' id, t'.compositeColumns ≠ [] →
          ¬(t = t' ∧ t.identity.toValue uuid = id) → next.seat? t' id = db.seat? t' id := by
        intro t' id hcomposite hother
        refine hothers t' id hcomposite ?_
        rintro ⟨rfl, hid, -⟩
        rw [t.get?_identityFilter, Option.some.injEq] at hid
        exact hother ⟨rfl, hid⟩
      refine h.of_vacant hmove fun hcomposite id seat hfull hnew hold => ?_
      rw [seat?_execute hrecord hexecute hcomposite, Statement.move,
        if_pos ⟨rfl, t.get?_identityFilter uuid⟩] at hnew
      -- the seat was asked for with the row itself as its owner
      obtain ⟨old, hseat, rfl⟩ := Option.map_eq_some_iff.1 hnew
      obtain ⟨merged, hmerged, hvacant⟩ :=
        exists_merged_of_movable htyped (hmovable htouches) hseat
      rw [← hmerged] at hfull hold
      obtain ⟨key, hkey, hfilter⟩ := Record.exists_compositeKey hcomposite hfull
      rw [hkey, Option.all_some] at hvacant
      exact Option.some.inj (owner_of_vacant hkey hfilter hvacant hold)
    · -- a revision of other columns leaves every seat where it is
      exact h.of_unmoved fun t' id hcomposite =>
        hothers t' id hcomposite fun hwrites => htouches (hwrites.1 ▸ hwrites.2.2)
  | delete role uuid =>
    simp only [Operation.issued?, Option.ite_none_right_eq_some, Option.some.injEq] at hissued
    obtain ⟨-, rfl⟩ := hissued
    exact h.of_unmoved fun t id hcomposite => hothers t id hcomposite fun hwrites => hwrites
  | _ => cases hissued

end Database

end Rollbook
