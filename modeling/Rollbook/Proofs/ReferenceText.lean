import Mathlib.Data.List.Count
import Rollbook.Proofs.Report

/-!
# Rollbook — the texts that report a broken reference

All that is read from the report of a broken reference is what its backticks set off: they pair up
from the left, the text within a pair is a token, and the tokens must be six. The words around the
tokens do not matter, and neither does a backtick behind the last pair.

* `Text.getElem?_quoted`      — the pairs of marks, by the number of marks in front of them.
* `ofError?_eq_some_iff`      — reading an error is reading the tokens of its text.
* `ofError?_positions`        — which errors are read as a broken reference, and as which one; both
  kinds of report are read back, and all other errors stay as they are.
-/

namespace Rollbook

namespace Text

-- ---------------------------------------------------------------------------
-- Text between marks
-- ---------------------------------------------------------------------------

variable {mark : Char} {cs piece : List Char} {n : Nat}

/-- The piece stands between two marks that follow each other, with `n` marks in front of them. -/
def Between (mark : Char) (n : Nat) (cs piece : List Char) : Prop :=
  ∃ front back, cs = front ++ mark :: piece ++ mark :: back ∧ front.count mark = n ∧ mark ∉ piece

/-- The pieces within pairs of marks, from the left. Outside a pair, a mark opens the next one;
inside, `piece` is what has been read since the mark that opened it. -/
def scan (mark : Char) : (piece : Option (List Char)) → List Char → List (List Char)
  | _, [] => []
  | none, c :: cs => scan mark (if c = mark then some [] else none) cs
  | some piece, c :: cs =>
    if c = mark then piece :: scan mark none cs else scan mark (some (piece ++ [c])) cs

/-- The pieces that the marks of a text set off, in order. -/
def quoted (mark : Char) (cs : List Char) : List (List Char) := scan mark none cs

/-- A text is plain, or it goes on behind its first mark. -/
theorem marked_induction (mark : Char) {motive : List Char → Prop}
    (plain : ∀ cs, mark ∉ cs → motive cs)
    (behind : ∀ front rest, mark ∉ front → motive rest → motive (front ++ mark :: rest))
    (cs : List Char) : motive cs := by
  by_cases hmark : mark ∈ cs
  · obtain ⟨front, rest, rfl, hfront⟩ := List.eq_append_cons_of_mem hmark
    exact behind front rest hfront (marked_induction mark plain behind rest)
  · exact plain cs hmark
termination_by cs.length
decreasing_by subst_vars; simp; omega

theorem splitOn_behind {front : List Char} (hfront : mark ∉ front) (rest : List Char) :
    (front ++ mark :: rest).splitOn mark = front :: rest.splitOn mark := by
  rw [List.splitOn_append_cons_self, List.splitOn_eq_singleton hfront, List.singleton_append]

theorem count_behind {front : List Char} (hfront : mark ∉ front) (rest : List Char) :
    (front ++ mark :: rest).count mark = rest.count mark + 1 := by
  rw [List.count_append, List.count_cons_self, List.count_eq_zero.2 hfront, Nat.zero_add]

/-- The marks of a text cut it into one piece more than there are marks. -/
theorem length_splitOn (mark : Char) (cs : List Char) :
    (cs.splitOn mark).length = cs.count mark + 1 := by
  induction cs using marked_induction mark with
  | plain cs hmark => rw [List.splitOn_eq_singleton hmark, List.count_eq_zero.2 hmark]; rfl
  | behind front rest hfront ih =>
    rw [splitOn_behind hfront, List.length_cons, ih, count_behind hfront]

/-- What stands between two marks is one of the pieces that the marks cut the text into. -/
theorem between_iff :
    Between mark n cs piece ↔ n + 2 ≤ cs.count mark ∧ (cs.splitOn mark)[n + 1]? = some piece := by
  constructor
  · rintro ⟨front, back, rfl, rfl, hpiece⟩
    have hlength := length_splitOn mark front
    rw [List.append_assoc, List.cons_append, List.splitOn_append_cons_self,
      splitOn_behind hpiece, List.count_append, List.count_cons_self, count_behind hpiece]
    refine ⟨by omega, ?_⟩
    rw [List.getElem?_append_right (by omega), hlength, Nat.sub_self, List.getElem?_cons_zero]
  · rintro ⟨hcount, hpiece⟩
    induction cs using marked_induction mark generalizing n with
    | plain cs hmark =>
      rw [List.count_eq_zero.2 hmark] at hcount
      omega
    -- the induction takes off the text up to the first mark, with the mark
    | behind front rest hfront ih =>
      rw [count_behind hfront] at hcount
      rw [splitOn_behind hfront, List.getElem?_cons_succ] at hpiece
      cases n with
      | zero =>
        -- the piece goes from the first mark to the second
        obtain ⟨piece', back, rfl, hpiece'⟩ :=
          List.eq_append_cons_of_mem (List.count_pos_iff.1 (by omega : 0 < rest.count mark))
        rw [splitOn_behind hpiece', List.getElem?_cons_zero, Option.some.injEq] at hpiece
        subst hpiece
        exact ⟨front, back, by simp, List.count_eq_zero.2 hfront, hpiece'⟩
      | succ n =>
        obtain ⟨front', back, rfl, hcount', hplain⟩ := ih (by omega) hpiece
        refine ⟨front ++ mark :: front', back, by simp, ?_, hplain⟩
        rw [count_behind hfront, hcount']

theorem scan_plain (h : mark ∉ cs) (opened : Option (List Char)) : scan mark opened cs = [] := by
  induction cs generalizing opened with
  | nil => rfl
  | cons c cs ih =>
    rw [List.mem_cons, not_or] at h
    cases opened with
    | none => rw [scan, if_neg (Ne.symm h.1), ih h.2]
    | some piece => rw [scan, if_neg (Ne.symm h.1), ih h.2]

theorem scan_none_behind {front : List Char} (hfront : mark ∉ front) (rest : List Char) :
    scan mark none (front ++ mark :: rest) = scan mark (some []) rest := by
  induction front with
  | nil => rw [List.nil_append, scan, if_pos rfl]
  | cons c front ih =>
    rw [List.mem_cons, not_or] at hfront
    rw [List.cons_append, scan, if_neg (Ne.symm hfront.1), ih hfront.2]

theorem scan_some_behind {front : List Char} (hfront : mark ∉ front) (piece rest : List Char) :
    scan mark (some piece) (front ++ mark :: rest) = (piece ++ front) :: scan mark none rest := by
  induction front generalizing piece with
  | nil => rw [List.nil_append, scan, if_pos rfl, List.append_nil]
  | cons c front ih =>
    rw [List.mem_cons, not_or] at hfront
    rw [List.cons_append, scan, if_neg (Ne.symm hfront.1), ih hfront.2, List.append_assoc,
      List.singleton_append]

/-- Outside a pair, the scan takes every second piece of the text behind the first; inside, every
second piece with the first. It takes none that the text ends in. -/
theorem getElem?_scan (mark : Char) (cs : List Char) :
    (∀ i, (scan mark none cs)[i]? =
      if 2 * i + 2 ≤ cs.count mark then (cs.splitOn mark)[2 * i + 1]? else none) ∧
    ∀ i, (scan mark (some []) cs)[i]? =
      if 2 * i + 1 ≤ cs.count mark then (cs.splitOn mark)[2 * i]? else none := by
  induction cs using marked_induction mark with
  | plain cs hmark =>
    rw [scan_plain hmark, scan_plain hmark, List.count_eq_zero.2 hmark]
    exact ⟨fun i => by simp, fun i => by simp⟩
  | behind front rest hfront ih =>
    -- behind the mark, outside and inside change places
    obtain ⟨houtside, hinside⟩ := ih
    rw [scan_none_behind hfront, scan_some_behind hfront, splitOn_behind hfront,
      count_behind hfront, List.nil_append]
    refine ⟨fun i => ?_, fun i => ?_⟩
    · rw [hinside, List.getElem?_cons_succ]
      exact if_congr (by omega) rfl rfl
    · cases i with
      | zero => simp
      | succ i =>
        rw [List.getElem?_cons_succ, houtside]
        exact if_congr (by omega) rfl rfl

/-- The pieces that the marks of a text set off are those behind an even number of marks. -/
theorem getElem?_quoted {i : Nat} :
    (quoted mark cs)[i]? = some piece ↔ Between mark (2 * i) cs piece := by
  rw [quoted, (getElem?_scan mark cs).1, between_iff, Option.ite_none_right_eq_some]

/-- Every two marks set off a piece. -/
theorem length_quoted (mark : Char) (cs : List Char) :
    (quoted mark cs).length = cs.count mark / 2 := by
  have hnone : ∀ i, (quoted mark cs)[i]? = none ↔ cs.count mark / 2 ≤ i := by
    intro i
    have hlength := length_splitOn mark cs
    rw [quoted, (getElem?_scan mark cs).1]
    split
    · rw [List.getElem?_eq_none_iff]
      omega
    · simp only [true_iff]
      omega
  apply Nat.le_antisymm
  · exact List.getElem?_eq_none_iff.1 ((hnone _).2 (Nat.le_refl _))
  · exact (hnone _).1 (List.getElem?_eq_none_iff.2 (Nat.le_refl _))

end Text

namespace ForeignKeyFailure

-- ---------------------------------------------------------------------------
-- Tokens
-- ---------------------------------------------------------------------------

/-- Of thirteen or fourteen pieces, every second one is a token. -/
theorem ofPieces?_eq_some_iff {pieces : List (List Char)} {f : ForeignKeyFailure} :
    ofPieces? pieces = some f ↔ (pieces.length = 13 ∨ pieces.length = 14) ∧
      ∀ i token, f.tokens[i]? = some token → pieces[2 * i + 1]? = some token.toList := by
  constructor
  · intro h
    rw [ofPieces?.eq_def] at h
    split at h
    · next hrest =>
      split at h
      · next rest hfew =>
        cases h
        refine ⟨by simp only [List.length_cons]; omega, fun i token htoken => ?_⟩
        rcases i with _ | _ | _ | _ | _ | _ | i <;> simp [tokens] at htoken <;> simp [← htoken]
      · cases h
    · cases h
  · rintro ⟨hlength, htokens⟩
    -- the pieces are at least thirteen, so the first twelve can be named
    iterate 13
      rcases pieces with _ | ⟨_, pieces⟩
      · simp at hlength
    have hdatabase := htokens 0 _ rfl
    have htable := htokens 1 _ rfl
    have hconstraint := htokens 2 _ rfl
    have hcolumn := htokens 3 _ rfl
    have hrefTable := htokens 4 _ rfl
    have hrefColumn := htokens 5 _ rfl
    simp only [List.length_cons] at hlength
    simp at hdatabase htable hconstraint hcolumn hrefTable hrefColumn
    rw [ofPieces?, if_pos (by omega)]
    simp [*]

-- ---------------------------------------------------------------------------
-- Errors
-- ---------------------------------------------------------------------------

variable {e : EngineError} {f : ForeignKeyFailure}

theorem length_tokens (f : ForeignKeyFailure) : f.tokens.length = 6 := rfl

/-- **Reading an error is reading the tokens of its text.** -/
theorem ofError?_eq_some_iff :
    ofError? e = some f ↔ (e.number = 1451 ∨ e.number = 1452) ∧
      (e.message.toList.count '\x60' = 12 ∨ e.message.toList.count '\x60' = 13) ∧
      ∀ i token, f.tokens[i]? = some token →
        Text.Between '\x60' (2 * i) e.message.toList token.toList := by
  have hlength := Text.length_splitOn '\x60' e.message.toList
  have hpieces : ofPieces? (e.message.toList.splitOn '\x60') = some f ↔
      (e.message.toList.count '\x60' = 12 ∨ e.message.toList.count '\x60' = 13) ∧
        ∀ i token, f.tokens[i]? = some token →
          Text.Between '\x60' (2 * i) e.message.toList token.toList := by
    rw [ofPieces?_eq_some_iff, hlength]
    refine (and_congr_left' (by omega)).trans (and_congr_right fun hcount => ?_)
    refine forall₂_congr fun i token => imp_congr_right fun htoken => ?_
    -- behind the first mark of a pair there is the second
    have hi := (List.getElem?_eq_some_iff.1 htoken).1
    rw [length_tokens] at hi
    rw [Text.between_iff]
    exact (and_iff_right (by omega)).symm
  rw [ofError?]
  split
  · next hnumber => exact hpieces.trans (and_iff_right hnumber).symm
  · next hnumber => exact iff_of_false (by simp) fun h => hnumber h.1

/-- The tokens of a text with six pairs of marks make up a failure. -/
theorem exists_tokens {cs : List Char} (h : cs.count '\x60' = 12 ∨ cs.count '\x60' = 13) :
    ∃ f : ForeignKeyFailure, ∀ i token, f.tokens[i]? = some token →
      Text.Between '\x60' (2 * i) cs token.toList := by
  have hlength : (Text.quoted '\x60' cs).length = 6 := by
    rw [Text.length_quoted]
    omega
  let word (i : Nat) : String := String.ofList ((Text.quoted '\x60' cs).getD i [])
  let f : ForeignKeyFailure := ⟨⟨word 0, word 1, word 2, word 3⟩, ⟨word 4, word 5⟩⟩
  have htokens : f.tokens = (List.range 6).map word := rfl
  refine ⟨f, fun i token htoken => Text.getElem?_quoted.1 ?_⟩
  rw [htokens, List.getElem?_map, Option.map_eq_some_iff] at htoken
  obtain ⟨j, hj, rfl⟩ := htoken
  -- the index of a token is below six, where the text has a quoted piece
  obtain ⟨hi, hij⟩ := List.getElem?_eq_some_iff.1 hj
  rw [List.length_range] at hi
  rw [List.getElem_range] at hij
  subst hij
  rw [String.toList_ofList, List.getD_eq_getElem?_getD,
    List.getElem?_eq_getElem (hlength.symm ▸ hi), Option.getD_some]

/-- **The texts of broken references.** An error is read as a broken reference if and only if it has
one of their two numbers and twelve or thirteen backticks in its text, and then the tokens of the
failure are, in order, what stands between the first backtick and the second, the third and the
fourth, and so on. So a failure whose tokens hold no backtick is read back from both of its reports.
An error about references that has not six tokens, and an error of any number but the three, stays
as it is. -/
theorem ofError?_positions (e : EngineError) :
    ((∃ f, ofError? e = some f) ↔ (e.number = 1451 ∨ e.number = 1452) ∧
      (e.message.toList.count '\x60' = 12 ∨ e.message.toList.count '\x60' = 13)) ∧
    (∀ f, ofError? e = some f → ∀ i token,
      [f.referrer.database, f.referrer.table, f.referrer.constraint, f.referrer.column,
        f.referent.table, f.referent.column][i]? = some token →
        Text.Between '\x60' (2 * i) e.message.toList token.toList) ∧
    (∀ f : ForeignKeyFailure, f.Plain →
      ofError? f.reportChild = some f ∧ ofError? f.reportParent = some f) ∧
    ((e.number = 1451 ∨ e.number = 1452) ∧ (Text.quoted '\x60' e.message.toList).length ≠ 6 ∨
        e.number ≠ 1062 ∧ e.number ≠ 1451 ∧ e.number ≠ 1452 →
      Failure.ofEngineError e = .unclassified e) := by
  have hiff : (∃ f, ofError? e = some f) ↔ (e.number = 1451 ∨ e.number = 1452) ∧
      (e.message.toList.count '\x60' = 12 ∨ e.message.toList.count '\x60' = 13) := by
    constructor
    · rintro ⟨f, hread⟩
      obtain ⟨hnumber, hcount, -⟩ := ofError?_eq_some_iff.1 hread
      exact ⟨hnumber, hcount⟩
    · rintro ⟨hnumber, hcount⟩
      obtain ⟨f, htokens⟩ := exists_tokens hcount
      exact ⟨f, ofError?_eq_some_iff.2 ⟨hnumber, hcount, htokens⟩⟩
  refine ⟨hiff, fun f hread => (ofError?_eq_some_iff.1 hread).2.2,
    fun f hplain => ⟨ofError?_reportChild hplain, ofError?_reportParent hplain⟩, fun hother => ?_⟩
  -- it is no duplicate, for its number is another, and no reference, for its tokens are not six
  have hduplicate : DuplicateEntry.ofError? e = none := by
    refine if_neg fun hnumber => ?_
    rw [show DuplicateEntry.number = 1062 from rfl] at hnumber
    rcases hother with ⟨hreference, -⟩ | ⟨hne, -⟩
    · rw [hnumber] at hreference
      exact absurd hreference (by decide)
    · exact hne hnumber
  have hreference : ofError? e = none := by
    rw [Option.eq_none_iff_forall_ne_some]
    intro f hread
    obtain ⟨hnumber, hcount⟩ := hiff.1 ⟨f, hread⟩
    rcases hother with ⟨-, hsix⟩ | ⟨-, hparent, hchild⟩
    · rw [Text.length_quoted] at hsix
      omega
    · exact hnumber.elim hparent hchild
  rw [Failure.ofEngineError, hduplicate, hreference]

/-- Six tokens, of which two are empty and four stand side by side, with a backtick behind them; a
failure of empty tokens; and a text of five tokens. -/
theorem ofError?_positions_strayMark :
    let stray : EngineError := ⟨1451, "``.``\n`a``b``c``d`, `"⟩
    let nameless : ForeignKeyFailure := ⟨⟨"", "", "", ""⟩, ⟨"", ""⟩⟩
    let five : EngineError := ⟨1452, "`a``b``c``d``e`"⟩
    (∃ f, ofError? stray = some f ∧
        Text.Between '\x60' 10 stray.message.toList f.referent.column.toList) ∧
      nameless.Plain ∧ ofError? nameless.reportParent = some nameless ∧
      (Text.quoted '\x60' five.message.toList).length ≠ 6 ∧
      Failure.ofEngineError five = .unclassified five := by
  intro stray nameless five
  obtain ⟨hread, htokens, hreports, -⟩ := ofError?_positions stray
  obtain ⟨-, -, -, hother⟩ := ofError?_positions five
  obtain ⟨f, hf⟩ := hread.2 ⟨.inl rfl, .inr (by decide)⟩
  have hplain : nameless.Plain := by decide
  have hfive : (Text.quoted '\x60' five.message.toList).length ≠ 6 := by decide
  exact ⟨⟨f, hf, htokens f hf 5 _ rfl⟩, hplain, (hreports nameless hplain).2, hfive,
    hother (.inl ⟨.inr rfl, hfive⟩)⟩

end ForeignKeyFailure

end Rollbook
