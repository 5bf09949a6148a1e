import Rollbook.Proofs.Report

/-!
# Rollbook — the texts that report a duplicate

A text reports a duplicate in one of two forms, between backticks or between apostrophes. The entry
may hold anything, even the words of the report and its marks, and so a text may be cut into entry
and key in several ways; but the key holds no mark, and only one cut leaves such a key.

* `read?_eq_some_iff` — reading takes the texts of a report whose key holds no mark, and no others.
* `ofError?_grammar`  — which errors are read as a duplicate, and as which one; on the texts between
  backticks, reading and reporting undo each other.
-/

namespace Rollbook.DuplicateEntry

-- ---------------------------------------------------------------------------
-- Entry and key
-- ---------------------------------------------------------------------------

/-- What is read from a text is what the text was made of, and the key holds no mark. -/
theorem render_of_read? {mark : Char} {message entry key : List Char}
    (h : read? mark message = some (entry, key)) : message = render mark entry key ∧ mark ∉ key := by
  rw [read?] at h
  rw [render_eq]
  generalize "Duplicate entry ".toList = opening at h ⊢
  generalize " for key ".toList = words at h ⊢
  simp only [Option.bind_eq_bind, Option.bind_eq_some_iff, Text.after?_eq_some_iff,
    Text.before?_eq_some_iff, Prod.exists, Text.breakLast?_eq_some_iff] at h
  obtain ⟨_, rfl, _, rfl, _, _, ⟨rfl, hkey⟩, _, rfl, hpair⟩ := h
  cases hpair
  exact ⟨by simp, hkey⟩

/-- **Reading a report is exact.** -/
theorem read?_eq_some_iff {mark : Char} {message entry key : List Char} :
    read? mark message = some (entry, key) ↔ message = render mark entry key ∧ mark ∉ key := by
  constructor
  · exact render_of_read?
  · rintro ⟨htext, hkey⟩
    rw [htext, read?_render hkey]

/-- A report between backticks. -/
theorem render_backtick (entry key : String) :
    render '\x60' entry.toList key.toList =
      ("Duplicate entry `" ++ entry ++ "` for key `" ++ key ++ "`").toList := by
  rw [render_eq]
  simp

/-- A report between apostrophes. -/
theorem render_apostrophe (entry key : String) :
    render '\x27' entry.toList key.toList =
      ("Duplicate entry '" ++ entry ++ "' for key '" ++ key ++ "'").toList := by
  rw [render_eq]
  simp

theorem report_eq (d : DuplicateEntry) :
    d.report = ⟨1062, "Duplicate entry `" ++ d.entry ++ "` for key `" ++ d.key ++ "`"⟩ := by
  rw [report, render_backtick, String.ofList_toList, number]

-- ---------------------------------------------------------------------------
-- Qualified keys
-- ---------------------------------------------------------------------------

/-- The key is what a qualified key holds behind its last point, or all of it if it has none. -/
def Unqualifies (qualified key : String) : Prop :=
  '.' ∉ key.toList ∧ (qualified = key ∨ ∃ front, qualified = front ++ "." ++ key)

/-- Taking the qualifier off a key leaves what stands behind its last point, or the whole if there
is none. -/
theorem unqualified_eq_iff {qualified key : String} :
    String.ofList (unqualified qualified.toList) = key ↔ Unqualifies qualified key := by
  rw [unqualified, Unqualifies]
  cases hbreak : Text.breakLast? '.' qualified.toList with
  -- without a point the key is the whole, and with one it is what the last point leaves
  | none =>
    have hpoint : '.' ∉ qualified.toList := Text.breakLast?_eq_none_iff.1 hbreak
    rw [Option.map_none, Option.getD_none, String.ofList_toList]
    constructor
    · rintro rfl
      exact ⟨hpoint, .inl rfl⟩
    · rintro ⟨-, hkey | ⟨front, rfl⟩⟩
      · exact hkey
      · exact absurd (by simp) hpoint
  | some p =>
    obtain ⟨front, back⟩ := p
    obtain ⟨hsplit, hback⟩ := Text.breakLast?_eq_some_iff.1 hbreak
    rw [Option.map_some, Option.getD_some]
    constructor
    · rintro rfl
      refine ⟨by simpa using hback, .inr ⟨String.ofList front, ?_⟩⟩
      rw [← String.toList_inj, hsplit]
      simp
    · rintro ⟨hpoint, rfl | ⟨front', rfl⟩⟩
      · exact absurd (hsplit ▸ by simp) hpoint
      · -- the last point is the one in front of the key
        have hlast : Text.breakLast? '.' (front' ++ "." ++ key).toList =
            some (front'.toList, key.toList) :=
          Text.breakLast?_eq_some_iff.2 ⟨by simp, hpoint⟩
        rw [hbreak] at hlast
        cases hlast
        exact String.ofList_toList

-- ---------------------------------------------------------------------------
-- Errors
-- ---------------------------------------------------------------------------

/-- A message with backticks is read as the entry and the key of the only form that gives it: the
key holds no backtick, the entry may. -/
theorem read?_backtick_iff {message entry key : String} :
    read? '\x60' message.toList = some (entry.toList, key.toList) ↔
      message = "Duplicate entry `" ++ entry ++ "` for key `" ++ key ++ "`" ∧
        '\x60' ∉ key.toList := by
  rw [read?_eq_some_iff, render_backtick, String.toList_inj]

theorem read?_apostrophe_iff {message entry key : String} :
    read? '\x27' message.toList = some (entry.toList, key.toList) ↔
      message = "Duplicate entry '" ++ entry ++ "' for key '" ++ key ++ "'" ∧
        '\x27' ∉ key.toList := by
  rw [read?_eq_some_iff, render_apostrophe, String.toList_inj]

/-- A text that is read between one mark is not read between another, for it has only one behind its
first words. -/
theorem read?_eq_none_of_ne {mark mark' : Char} {message : List Char}
    {p : List Char × List Char} (h : read? mark message = some p) (hne : mark' ≠ mark) :
    read? mark' message = none := by
  rw [Option.eq_none_iff_forall_ne_some]
  intro q hq
  have hmark := (render_of_read? h).1
  have hmark' := (render_of_read? hq).1
  rw [hmark, render_eq, render_eq] at hmark'
  generalize "Duplicate entry ".toList = opening at hmark'
  simp only [List.append_assoc, List.append_cancel_left_eq, List.cons_append,
    List.cons.injEq] at hmark'
  exact hne hmark'.1.symm

/-- The two forms are tried one after the other. No message has both, so the order does
not matter. -/
theorem ofError?_eq_some_iff {e : EngineError} {key entry : String} :
    ofError? e = some ⟨key, entry⟩ ↔ e.number = number ∧
      (read? '\x60' e.message.toList = some (entry.toList, key.toList) ∨
        ∃ qualified : String,
          read? '\x27' e.message.toList = some (entry.toList, qualified.toList) ∧
            String.ofList (unqualified qualified.toList) = key) := by
  rw [ofError?]
  by_cases hnumber : e.number = number
  · rw [if_pos hnumber, and_iff_right hnumber]
    cases hread : read? '\x60' e.message.toList with
    | some p =>
      obtain ⟨cs, ks⟩ := p
      -- what has been read in the one form is not of the other
      have hother : read? '\x27' e.message.toList = none := read?_eq_none_of_ne hread (by decide)
      simp only [hread, hother, reduceCtorEq, false_and, exists_false, or_false, Option.some.injEq,
        mk.injEq, Prod.mk.injEq]
      rw [and_comm, ← String.toList_inj, ← String.toList_inj, String.toList_ofList,
        String.toList_ofList]
    | none =>
      simp only [hread, reduceCtorEq, false_or, Option.map_eq_some_iff, mk.injEq, Prod.exists]
      constructor
      · rintro ⟨cs, ks, hcut, hkey, rfl⟩
        exact ⟨String.ofList ks, by simpa using hcut, by simpa using hkey⟩
      · rintro ⟨qualified, hcut, hkey⟩
        exact ⟨entry.toList, qualified.toList, hcut, hkey, String.ofList_toList⟩
  · rw [if_neg hnumber]
    simp [hnumber]

/-- **The texts of duplicates.** An error is read as a duplicate if and only if it has the number of
duplicates and a text of one of the two forms: the key between backticks as it is, or between
apostrophes with the name of its table in front. So a duplicate is read back from its report if its
key holds no backtick, whatever its entry holds; and whatever is read from a text between backticks
is reported by the same error again. -/
theorem ofError?_grammar (e : EngineError) (key entry : String) :
    (ofError? e = some ⟨key, entry⟩ ↔ e.number = 1062 ∧
      (e.message = "Duplicate entry `" ++ entry ++ "` for key `" ++ key ++ "`" ∧
          '\x60' ∉ key.toList ∨
        ∃ qualified : String,
          e.message = "Duplicate entry '" ++ entry ++ "' for key '" ++ qualified ++ "'" ∧
            '\x27' ∉ qualified.toList ∧ Unqualifies qualified key)) ∧
    ('\x60' ∉ key.toList → ofError? (report ⟨key, entry⟩) = some ⟨key, entry⟩) ∧
    (ofError? e = some ⟨key, entry⟩ → (∃ rest, e.message = "Duplicate entry `" ++ rest) →
      report ⟨key, entry⟩ = e) := by
  have hiff : ofError? e = some ⟨key, entry⟩ ↔ e.number = 1062 ∧
      (e.message = "Duplicate entry `" ++ entry ++ "` for key `" ++ key ++ "`" ∧
          '\x60' ∉ key.toList ∨
        ∃ qualified : String,
          e.message = "Duplicate entry '" ++ entry ++ "' for key '" ++ qualified ++ "'" ∧
            '\x27' ∉ qualified.toList ∧ Unqualifies qualified key) := by
    simp only [ofError?_eq_some_iff, number, read?_backtick_iff, read?_apostrophe_iff,
      unqualified_eq_iff, and_assoc]
  refine ⟨hiff, fun hkey => ofError?_report hkey, fun hread ⟨rest, hrest⟩ => ?_⟩
  obtain ⟨hnumber, ⟨htext, -⟩ | ⟨qualified, htext, -⟩⟩ := hiff.1 hread
  · rw [report_eq, ← htext, ← hnumber]
  · -- the text starts with a backtick behind its first words, not with an apostrophe
    rw [hrest, ← String.toList_inj] at htext
    simp at htext

/-- Two entries that hold the words of their report with the marks around them: one cut only leaves
a key without a mark. -/
theorem ofError?_grammar_hardEntries :
    let plain : EngineError := ⟨1062, "Duplicate entry `a` for key `b` for key `student_id`"⟩
    let native : EngineError :=
      ⟨1062, "Duplicate entry 'it's' for key 'b' for key 'student_auths.student_id'"⟩
    '\x60' ∉ "student_id".toList ∧
      ofError? (report ⟨"student_id", "a` for key `b"⟩) = some ⟨"student_id", "a` for key `b"⟩ ∧
      ofError? plain = some ⟨"student_id", "a` for key `b"⟩ ∧
      (∃ rest, plain.message = "Duplicate entry `" ++ rest) ∧
      report ⟨"student_id", "a` for key `b"⟩ = plain ∧
      ofError? native = some ⟨"student_id", "it's' for key 'b"⟩ := by
  intro plain native
  have hkey : '\x60' ∉ "student_id".toList := by decide
  have hmark : ∃ rest, plain.message = "Duplicate entry `" ++ rest :=
    ⟨"a` for key `b` for key `student_id`", by rfl⟩
  have hpoint : Unqualifies "student_auths.student_id" "student_id" :=
    ⟨by decide, .inr ⟨"student_auths", by rfl⟩⟩
  obtain ⟨hplain, hreport, hback⟩ := ofError?_grammar plain "student_id" "a` for key `b"
  obtain ⟨hnative, -⟩ := ofError?_grammar native "student_id" "it's' for key 'b"
  -- the only cut with a plain key behind it is the last one
  have hread := hplain.2 ⟨rfl, .inl ⟨by rfl, hkey⟩⟩
  exact ⟨hkey, hreport hkey, hread, hmark, hback hread hmark,
    hnative.2 ⟨rfl, .inr ⟨"student_auths.student_id", by rfl, by decide, hpoint⟩⟩⟩

end Rollbook.DuplicateEntry
