import Mathlib.Data.List.Basic
import Rollbook.Failure
import Rollbook.Store.Breach

/-!
# Rollbook — breaches by way of their reports

The engine reports a breach as a number and a text, and a failure is read back from the two. Nothing
is lost on the way as long as no name in the text holds the quotation mark that sets it off; the
entry of a duplicate may hold anything, since the key behind it has the last two marks.

* `DuplicateEntry.ofError?_report` — a duplicate is read back.
* `ForeignKeyFailure.ofError?_reportChild`, `ofError?_reportParent` — so is a broken reference.
* `Breach.ofEngineError_report` — the failure that the report of a breach is read as.
-/

namespace Rollbook

namespace DuplicateEntry

/-- The text of a report, with its words as they stand. -/
theorem render_eq (mark : Char) (entry key : List Char) :
    render mark entry key = "Duplicate entry ".toList ++ mark :: entry ++
      mark :: " for key ".toList ++ mark :: key ++ [mark] := rfl

/-- Entry and key are read back from between quotation marks if the key holds none. -/
theorem read?_render {mark : Char} {entry key : List Char} (h : mark ∉ key) :
    read? mark (render mark entry key) = some (entry, key) := by
  rw [render_eq, read?]
  generalize "Duplicate entry ".toList = opening
  generalize " for key ".toList = words
  have hlead : Text.after? (opening ++ [mark])
      (opening ++ mark :: entry ++ mark :: words ++ mark :: key ++ [mark]) =
        some (entry ++ mark :: words ++ mark :: key ++ [mark]) :=
    Text.after?_eq_some_iff.2 (by simp)
  have htail : Text.before? [mark] (entry ++ mark :: words ++ mark :: key ++ [mark]) =
      some (entry ++ mark :: words ++ mark :: key) :=
    Text.before?_eq_some_iff.2 rfl
  have hbreak : Text.breakLast? mark (entry ++ mark :: words ++ mark :: key) =
      some (entry ++ mark :: words, key) :=
    Text.breakLast?_eq_some_iff.2 ⟨rfl, h⟩
  have hentry : Text.before? (mark :: words) (entry ++ mark :: words) = some entry :=
    Text.before?_eq_some_iff.2 rfl
  simp only [hlead, htail, hbreak, hentry, Option.bind_eq_bind, Option.bind_some, pure]

/-- A duplicate is read back from its report, whatever its entry holds. -/
theorem ofError?_report {d : DuplicateEntry} (h : '\x60' ∉ d.key.toList) :
    ofError? d.report = some d := by
  simp only [ofError?, report, String.toList_ofList, read?_render h, if_pos]
  simp

end DuplicateEntry

namespace ForeignKeyFailure

/-- The tokens that a report sets off, in its order. -/
def tokens (f : ForeignKeyFailure) : List String :=
  [f.referrer.database, f.referrer.table, f.referrer.constraint, f.referrer.column,
    f.referent.table, f.referent.column]

/-- No token holds the mark that sets the tokens off. -/
def Plain (f : ForeignKeyFailure) : Prop := ∀ token ∈ f.tokens, '\x60' ∉ token.toList

instance (f : ForeignKeyFailure) : Decidable f.Plain :=
  inferInstanceAs (Decidable (∀ token ∈ f.tokens, '\x60' ∉ token.toList))

/-- The report in pieces: its marks stand between the tokens and the words around them. -/
theorem toList_render (opening : String) (f : ForeignKeyFailure) :
    (f.render opening).toList = ['\x60'].intercalate
      [opening.toList ++ ": a foreign key constraint fails (".toList,
        f.referrer.database.toList, ".".toList, f.referrer.table.toList,
        ", CONSTRAINT ".toList, f.referrer.constraint.toList,
        " FOREIGN KEY (".toList, f.referrer.column.toList,
        ") REFERENCES ".toList, f.referent.table.toList,
        " (".toList, f.referent.column.toList, "))".toList] := by
  simp [render, List.intercalate]

/-- The tokens of a report are read back if none of them holds the mark. -/
theorem ofPieces?_render {opening : String} {f : ForeignKeyFailure} (h : f.Plain)
    (hopening : '\x60' ∉ opening.toList) :
    ofPieces? ((f.render opening).toList.splitOnP (· = '\x60')) = some f := by
  -- the marks of the text are those that set its tokens off
  show ofPieces? ((f.render opening).toList.splitOn '\x60') = some f
  rw [toList_render, List.splitOn_intercalate]
  · simp [ofPieces?]
  · simp only [Plain, tokens, List.forall_mem_cons] at h
    obtain ⟨hdatabase, htable, hconstraint, hcolumn, hrefTable, hrefColumn, -⟩ := h
    simp only [List.forall_mem_cons, List.mem_append, not_or]
    exact ⟨⟨hopening, by decide⟩, hdatabase, by decide, htable, by decide, hconstraint, by decide,
      hcolumn, by decide, hrefTable, by decide, hrefColumn, by decide, by simp⟩
  · simp

/-- A failure with plain names comes back from the report of a child. -/
theorem ofError?_reportChild {f : ForeignKeyFailure} (h : f.Plain) :
    ofError? f.reportChild = some f := by
  rw [ofError?, if_pos (.inr rfl)]
  exact ofPieces?_render h (by decide)

/-- A failure with plain names comes back from the report of a parent, which has a number of its own
and the same text. -/
theorem ofError?_reportParent {f : ForeignKeyFailure} (h : f.Plain) :
    ofError? f.reportParent = some f := by
  rw [ofError?, if_pos (.inl rfl)]
  exact ofPieces?_render h (by decide)

end ForeignKeyFailure

namespace Breach

/-- No name that the report of the breach sets off holds the mark that it is set off by. -/
def Plain : Breach → Prop
  | unknownColumn _ _ => True
  | nullColumn _ => True
  | referenced f => f.Plain
  | duplicate d => '\x60' ∉ d.key.toList
  | noReferent f => f.Plain

/-- The failure that the breach stands for. -/
def failure : Breach → Failure
  | referenced f => .foreignKey f
  | duplicate d => .duplicateEntry d
  | noReferent f => .foreignKey f
  | b => .unclassified b.report

/-- **A breach is read back from its report.** -/
theorem ofEngineError_report {b : Breach} (h : b.Plain) :
    Failure.ofEngineError b.report = b.failure := by
  cases b with
  | unknownColumn name clause => rfl
  | nullColumn name => rfl
  | referenced f =>
    have hother : DuplicateEntry.ofError? (referenced f).report = none := rfl
    have hread : ForeignKeyFailure.ofError? (referenced f).report = some f :=
      ForeignKeyFailure.ofError?_reportParent h
    simp only [Failure.ofEngineError, hother, hread, failure]
  | duplicate d =>
    have hread : DuplicateEntry.ofError? (duplicate d).report = some d :=
      DuplicateEntry.ofError?_report h
    simp only [Failure.ofEngineError, hread, failure]
  | noReferent f =>
    have hother : DuplicateEntry.ofError? (noReferent f).report = none := rfl
    have hread : ForeignKeyFailure.ofError? (noReferent f).report = some f :=
      ForeignKeyFailure.ofError?_reportChild h
    simp only [Failure.ofEngineError, hother, hread, failure]

end Breach

end Rollbook
