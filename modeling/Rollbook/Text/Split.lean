/-!
# Rollbook — pieces of text

Taking a list of characters apart: what follows a given lead, what stands before a given tail, the
two sides of the last occurrence of a character, and the front that fills a number of bytes. The
first three are pinned down by the one way in which their answer makes up the list again.
-/

namespace Rollbook.Text

/-- What follows `lead`, if the list starts with it. -/
def after? : (lead : List Char) → List Char → Option (List Char)
  | [], cs => some cs
  | _ :: _, [] => none
  | l :: lead, c :: cs => if l = c then after? lead cs else none

/-- What stands before `tail`, if the list ends with it. -/
def before? (tail cs : List Char) : Option (List Char) :=
  (after? tail.reverse cs.reverse).map List.reverse

/-- The two sides of the last occurrence of a character. -/
def breakLast? (c : Char) : List Char → Option (List Char × List Char)
  | [] => none
  | d :: rest =>
    match breakLast? c rest with
    | some (front, back) => some (d :: front, back)
    | none => if d = c then some ([], rest) else none

/-- The characters in the first `n` bytes, unless those end inside a character. -/
def takeBytes? : (n : Nat) → List Char → Option (List Char)
  | 0, _ => some []
  | _ + 1, [] => none
  | n + 1, c :: rest =>
    if c.utf8Size ≤ n + 1 then (takeBytes? (n + 1 - c.utf8Size) rest).map (c :: ·) else none

/-- What stands after a lead is known with the lead: a text has it in one way or not at all. -/
theorem after?_eq_some_iff {lead cs rest : List Char} :
    after? lead cs = some rest ↔ cs = lead ++ rest := by
  induction lead generalizing cs with
  | nil => simp [after?, eq_comm]
  | cons l lead ih =>
    cases cs with
    | nil => simp [after?]
    | cons c cs =>
      by_cases h : l = c
      · subst h; simp [after?, ih]
      · have h' : ¬c = l := fun hc => h hc.symm
        simp [after?, h, h']

/-- What stands in front of a tail is known with the tail. -/
theorem before?_eq_some_iff {tail cs front : List Char} :
    before? tail cs = some front ↔ cs = front ++ tail := by
  simp only [before?, Option.map_eq_some_iff, after?_eq_some_iff]
  constructor
  · -- the text is read backwards, and so is its tail
    rintro ⟨rest, h, rfl⟩
    simpa using congrArg List.reverse h
  · rintro rfl
    exact ⟨front.reverse, by simp, by simp⟩

/-- Only a text without the character cannot be broken at it. -/
theorem breakLast?_eq_none_iff {c : Char} {cs : List Char} :
    breakLast? c cs = none ↔ c ∉ cs := by
  induction cs with
  | nil => simp [breakLast?]
  | cons d rest ih =>
    simp only [breakLast?]
    cases h : breakLast? c rest with
    | none =>
      have hrest := ih.1 h
      by_cases hd : d = c
      · simp [hd]
      · have hd' : ¬c = d := fun hc => hd hc.symm
        simp [hd, hd', hrest]
    | some p =>
      have hrest : c ∈ rest := by
        rcases Decidable.em (c ∈ rest) with hm | hm
        · exact hm
        · rw [ih.2 hm] at h; cases h
      simp [hrest]

/-- The break is at the last occurrence: the character does not stand behind it, and this alone
determines both parts. -/
theorem breakLast?_eq_some_iff {c : Char} {cs front back : List Char} :
    breakLast? c cs = some (front, back) ↔ cs = front ++ c :: back ∧ c ∉ back := by
  induction cs generalizing front back with
  | nil => simp [breakLast?]
  | cons d rest ih =>
    simp only [breakLast?]
    cases h : breakLast? c rest with
    -- the character can only be the first one
    | none =>
      have hrest : c ∉ rest := breakLast?_eq_none_iff.1 h
      by_cases hd : d = c
      · subst hd
        cases front with
        | nil =>
          simp only [if_true, Option.some.injEq, Prod.mk.injEq, true_and, List.nil_append,
            List.cons.injEq]
          exact ⟨fun hb => ⟨hb, hb ▸ hrest⟩, fun hb => hb.1⟩
        | cons f front =>
          simp only [if_true, Option.some.injEq, Prod.mk.injEq, List.cons_append, List.cons.injEq]
          refine ⟨fun hb => absurd hb.1 (by simp), fun hb => ?_⟩
          exact absurd (hb.1.2 ▸ (by simp : d ∈ front ++ d :: back)) hrest
      · simp only [if_neg hd]
        refine ⟨fun hb => absurd hb (by simp), fun hb => ?_⟩
        cases front with
        | nil => exact absurd (List.cons.inj hb.1).1 hd
        | cons f front =>
          have := (List.cons.inj hb.1).2
          exact absurd (this ▸ (by simp : c ∈ front ++ c :: back)) hrest
    -- the last occurrence is further back, whatever the first character is
    | some p =>
      obtain ⟨f, b⟩ := p
      have hp := ih.1 h
      simp only [Option.some.injEq, Prod.mk.injEq]
      constructor
      · rintro ⟨rfl, rfl⟩
        exact ⟨by rw [hp.1]; rfl, hp.2⟩
      · rintro ⟨hcs, hback⟩
        cases front with
        | nil =>
          have hrest := (List.cons.inj hcs).2
          exact absurd (by rw [← hrest, hp.1]; simp) hback
        | cons g front =>
          have ⟨hg, hrest⟩ := List.cons.inj hcs
          have hsome := ih.2 ⟨hrest, hback⟩
          rw [h] at hsome
          have heq := Prod.mk.inj (Option.some.inj hsome)
          exact ⟨by rw [hg, heq.1], heq.2⟩

end Rollbook.Text
