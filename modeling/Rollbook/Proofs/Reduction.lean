import Rollbook.Proofs.ReferenceText

/-!
# Rollbook — reduced failures

Who is told of a broken reference is told the reduced failure, which names the reference and nothing
of the schema around it. What is left out leaves empty tokens behind, so a reduced failure has
reports of its own, and these are read as the failure again: to reduce twice is to reduce once, also
by way of a text. Two errors come to the same reduced failure just when they agree on the three
tokens that are kept, whatever their numbers and the words around the tokens.

* `quoted_of_ofError?`      — the tokens of a failure are what its error sets off.
* `ofError?_reports`        — a reduced failure is read from both of its reports.
* `reduced_eq_iff`          — equal as reduced, equal in the kept tokens.
* `reducedOfError_normal`   — the reduced failure as a normal form of errors.
-/

namespace Rollbook.ForeignKeyFailure

variable {e e' : EngineError} {f f' : ForeignKeyFailure}

-- ---------------------------------------------------------------------------
-- Tokens of a text and of a failure
-- ---------------------------------------------------------------------------

/-- The tokens of a failure are the pieces that the text of its error sets off. -/
theorem quoted_of_ofError? (h : ofError? e = some f) :
    Text.quoted '\x60' e.message.toList = f.tokens.map String.toList := by
  obtain ⟨-, hcount, htokens⟩ := ofError?_eq_some_iff.1 h
  refine List.ext_getElem? fun i => ?_
  rw [List.getElem?_map]
  cases htoken : f.tokens[i]? with
  | some token => exact Text.getElem?_quoted.2 (htokens i token htoken)
  | none =>
    rw [List.getElem?_eq_none_iff, length_tokens] at htoken
    rw [Option.map_none, List.getElem?_eq_none_iff, Text.length_quoted]
    omega

/-- No token that has been read holds the mark that set it off. -/
theorem plain_of_ofError? (h : ofError? e = some f) : f.Plain := by
  obtain ⟨-, -, htokens⟩ := ofError?_eq_some_iff.1 h
  intro token hmem
  obtain ⟨i, hi⟩ := List.getElem?_of_mem hmem
  obtain ⟨front, back, -, -, hplain⟩ := htokens i token hi
  exact hplain

-- ---------------------------------------------------------------------------
-- Reduced failures
-- ---------------------------------------------------------------------------

/-- A reduced failure keeps the last three tokens, and its others are empty. -/
theorem tokens_reduced (f : ForeignKeyFailure) :
    f.reduced.tokens = ["", "", ""] ++ f.tokens.drop 3 := rfl

/-- Reducing twice is reducing once. -/
theorem reduced_reduced (f : ForeignKeyFailure) : f.reduced.reduced = f.reduced := rfl

/-- What is reduced is as plain as it was. -/
theorem Plain.reduced (h : f.Plain) : f.reduced.Plain := by
  intro token hmem
  rw [tokens_reduced, List.mem_append] at hmem
  rcases hmem with hempty | hkept
  · have htoken : token = "" := by simpa using hempty
    rw [htoken]
    exact List.not_mem_nil
  · exact h token (List.mem_of_mem_drop hkept)

/-- **Reduced failures are equal when the kept tokens are.** -/
theorem reduced_eq_iff :
    f.reduced = f'.reduced ↔ ∀ i ∈ [3, 4, 5], f.tokens[i]? = f'.tokens[i]? := by
  obtain ⟨⟨database, table, constraint, column⟩, ⟨refTable, refColumn⟩⟩ := f
  obtain ⟨⟨database', table', constraint', column'⟩, ⟨refTable', refColumn'⟩⟩ := f'
  simp [reduced, tokens]

-- ---------------------------------------------------------------------------
-- Reduced errors
-- ---------------------------------------------------------------------------

theorem reducedOfError_of_some (h : ofError? e = some f) : reducedOfError e = .ok f.reduced := by
  rw [reducedOfError, h]

theorem reducedOfError_of_none (h : ofError? e = none) : reducedOfError e = .error e := by
  rw [reducedOfError, h]

/-- The reports of a failure that has been read and reduced are read as the failure itself. -/
theorem ofError?_reports (h : ofError? e = some f) :
    ∀ report ∈ [f.reduced.reportChild, f.reduced.reportParent],
      ofError? report = some f.reduced := by
  have hplain := (plain_of_ofError? h).reduced
  rw [List.forall_mem_cons, List.forall_mem_singleton]
  exact ⟨ofError?_reportChild hplain, ofError?_reportParent hplain⟩

/-- Errors that are read come to the same reduced failure if their texts set off the same fourth,
fifth and sixth piece. -/
theorem reducedOfError_eq_iff (h : ofError? e = some f) (h' : ofError? e' = some f') :
    reducedOfError e = reducedOfError e' ↔ ∀ i ∈ [3, 4, 5],
      (Text.quoted '\x60' e.message.toList)[i]? = (Text.quoted '\x60' e'.message.toList)[i]? := by
  rw [reducedOfError_of_some h, reducedOfError_of_some h', Except.ok.injEq, reduced_eq_iff,
    quoted_of_ofError? h, quoted_of_ofError? h']
  have hinjective : Function.Injective String.toList := fun _ _ => String.toList_injective
  refine forall₂_congr fun i _ => ?_
  rw [List.getElem?_map, List.getElem?_map]
  exact (Option.map_injective hinjective).eq_iff.symm

/-- **The reduced failure is a normal form.** An error that is not read as a broken reference stays
as it is. Any other comes to a failure without database, table and constraint, and this failure is
read from both of its own reports and reduced from them to itself. Two errors that are read as
broken references come to the same failure if and only if the fourth, the fifth and the sixth token
of their texts are the same. -/
theorem reducedOfError_normal (e : EngineError) :
    (ofError? e = none → reducedOfError e = .error e) ∧
    ((ofError? e).isSome = true → ∃ r, reducedOfError e = .ok r ∧
      r.referrer.database = "" ∧ r.referrer.table = "" ∧ r.referrer.constraint = "" ∧
      ∀ report ∈ [r.reportChild, r.reportParent],
        ofError? report = some r ∧ reducedOfError report = .ok r) ∧
    ∀ e' : EngineError, (ofError? e).isSome = true → (ofError? e').isSome = true →
      (reducedOfError e = reducedOfError e' ↔ ∀ i ∈ [3, 4, 5],
        (Text.quoted '\x60' e.message.toList)[i]? =
          (Text.quoted '\x60' e'.message.toList)[i]?) := by
  refine ⟨reducedOfError_of_none, fun hread => ?_, fun e' hread hread' => ?_⟩
  · obtain ⟨f, hf⟩ := Option.isSome_iff_exists.1 hread
    refine ⟨f.reduced, reducedOfError_of_some hf, rfl, rfl, rfl, fun report hreport => ?_⟩
    -- the reduced failure is read from its reports as it is, and is reduced already
    have hagain := ofError?_reports hf report hreport
    exact ⟨hagain, (reducedOfError_of_some hagain).trans (by rw [reduced_reduced])⟩
  · obtain ⟨f, hf⟩ := Option.isSome_iff_exists.1 hread
    obtain ⟨f', hf'⟩ := Option.isSome_iff_exists.1 hread'
    exact reducedOfError_eq_iff hf hf'

/-- The report of a student who is linked to a parent that is not there. -/
def unknownParent : EngineError :=
  ⟨1452, "(`campus`.`student_auths`, `fk`) (`parent_uuid`) `parent_auths` (`parent_uuid`)"⟩

/-- A text of another kind about the same reference, with nothing but its tokens and a mark. -/
def keptParent : EngineError :=
  ⟨1451, "```````parent_uuid``parent_auths``parent_uuid` `"⟩

/-- Both come to the same failure; an error about a student who is not there comes to another one,
and a duplicate stays as it is. -/
theorem reducedOfError_normal_unknownParent :
    let unknownStudent : EngineError :=
      ⟨1452, "```````student_uuid``student_auths``student_uuid`"⟩
    let duplicate : EngineError := ⟨1062, "```````a``b``c`"⟩
    reducedOfError unknownParent = reducedOfError keptParent ∧
      reducedOfError unknownParent ≠ reducedOfError unknownStudent ∧
      (∃ r, reducedOfError unknownParent = .ok r ∧ reducedOfError r.reportParent = .ok r) ∧
      reducedOfError duplicate = .error duplicate := by
  intro unknownStudent duplicate
  obtain ⟨-, hfixed, hequal⟩ := reducedOfError_normal unknownParent
  obtain ⟨hkept, -⟩ := reducedOfError_normal duplicate
  have hread : (ofError? unknownParent).isSome = true := by decide
  refine ⟨(hequal keptParent hread (by decide)).2 (by decide), ?_, ?_, hkept (by decide)⟩
  · exact fun hsame => absurd ((hequal unknownStudent hread (by decide)).1 hsame) (by decide)
  · obtain ⟨r, hr, -, -, -, hreports⟩ := hfixed hread
    exact ⟨r, hr, (hreports r.reportParent (by simp)).2⟩

end Rollbook.ForeignKeyFailure
