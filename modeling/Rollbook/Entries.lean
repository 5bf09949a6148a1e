/-!
# Rollbook — ordered entries

Lists of entries under names, in the order of the names and each name once: the common form of
columns and of dictionaries of settings. The view of such a list is `List.lookup`; lists with the
same view are equal (`eq_of_lookup`), and placing an entry changes the view at its name only
(`lookup_place`).
-/

namespace Rollbook.Entries

variable {α : Type}

/-- The names ascend, so none occurs twice. -/
abbrev Ordered (es : List (String × α)) : Prop :=
  es.Pairwise fun a b => a.1 < b.1

/-- Puts an entry at its place among ordered entries, over an entry of the same name. -/
def place (name : String) (value : α) : List (String × α) → List (String × α)
  | [] => [(name, value)]
  | e :: rest =>
    if name < e.1 then (name, value) :: e :: rest
    else if name = e.1 then (name, value) :: rest
    else e :: place name value rest

/-- An entry after placing is the placed one or one of before. The converse fails for the one that
is replaced. -/
theorem mem_place {name : String} {value : α} {es : List (String × α)}
    {x : String × α} (h : x ∈ place name value es) : x = (name, value) ∨ x ∈ es := by
  induction es with
  | nil => simpa [place] using h
  | cons e rest ih =>
    simp only [place] at h
    split at h
    · simpa using h
    · split at h
      · rcases List.mem_cons.1 h with h | h
        · exact .inl h
        · exact .inr (List.mem_cons_of_mem _ h)
      · rcases List.mem_cons.1 h with h | h
        · exact .inr (h ▸ List.mem_cons_self)
        · exact (ih h).imp id (List.mem_cons_of_mem _)

/-- Placing keeps the names in order. -/
theorem ordered_place {name : String} {value : α} {es : List (String × α)}
    (h : Ordered es) :
    Ordered (place name value es) := by
  induction es with
  | nil => simp [place]
  | cons e rest ih =>
    have ⟨hhead, hrest⟩ := List.pairwise_cons.1 h
    simp only [place]
    split
    -- the new entry goes in front
    · next hlt =>
      refine List.pairwise_cons.2 ⟨fun x hx => ?_, h⟩
      rcases List.mem_cons.1 hx with hx | hx
      · exact hx ▸ hlt
      · exact String.lt_trans hlt (hhead x hx)
    · split
      -- the new entry takes the place of the first one
      · next heq => exact List.pairwise_cons.2 ⟨fun x hx => heq ▸ hhead x hx, hrest⟩
      -- the new entry goes further back
      · next hlt hne =>
        refine List.pairwise_cons.2 ⟨fun x hx => ?_, ih hrest⟩
        rcases mem_place hx with hx | hx
        · have hle : e.1 ≤ name := String.not_lt.1 hlt
          subst hx
          rcases Decidable.em (e.1 < name) with h' | h'
          · exact h'
          · exact absurd (String.le_antisymm (String.not_lt.1 h') hle) hne
        · exact hhead x hx

/-- After placing, the name gives the new value and all other names what they gave. -/
theorem lookup_place (name key : String) (value : α) (es : List (String × α)) :
    (place name value es).lookup key = if key = name then some value else es.lookup key := by
  induction es with
  | nil =>
    by_cases h : key = name
    · subst h; simp [place]
    · simp [place, List.lookup_cons, h, beq_eq_false_iff_ne.2 h]
  | cons e rest ih =>
    obtain ⟨n, v⟩ := e
    by_cases h : key = name
    · subst h
      simp only [place]
      split
      · simp
      · split
        · simp
        · next hne =>
          simp only [List.lookup_cons, beq_eq_false_iff_ne.2 hne, ih, if_pos]
    · simp only [place, if_neg h]
      split
      · simp [List.lookup_cons, beq_eq_false_iff_ne.2 h]
      · split
        · next heq =>
          have h' : key ≠ n := fun hk => h (hk.trans heq.symm)
          simp [List.lookup_cons, beq_eq_false_iff_ne.2 h, beq_eq_false_iff_ne.2 h']
        · simp only [List.lookup_cons, ih, if_neg h]

/-- An ordered list of entries has no entry under a name below its first one. -/
theorem lookup_eq_none {key : String} {es : List (String × α)}
    (h : ∀ e ∈ es, key < e.1) : es.lookup key = none := by
  induction es with
  | nil => rfl
  | cons e rest ih =>
    have hne : key ≠ e.1 := fun heq => String.lt_irrefl _ (heq ▸ h e List.mem_cons_self)
    obtain ⟨n, v⟩ := e
    rw [List.lookup_cons, beq_eq_false_iff_ne.2 hne]
    exact ih fun x hx => h x (List.mem_cons_of_mem _ hx)

/-- Two ordered lists that answer every lookup alike are the same list, so a map is known by its
lookups. -/
theorem eq_of_lookup {es fs : List (String × α)}
    (he : Ordered es) (hf : Ordered fs)
    (h : ∀ key, es.lookup key = fs.lookup key) : es = fs := by
  induction es generalizing fs with
  | nil =>
    cases fs with
    | nil => rfl
    | cons f rest =>
      obtain ⟨n, v⟩ := f
      simpa [List.lookup_cons] using h n
  | cons e es ih =>
    have ⟨hehead, hes⟩ := List.pairwise_cons.1 he
    cases fs with
    | nil =>
      obtain ⟨n, v⟩ := e
      simpa [List.lookup_cons] using h n
    | cons f fs =>
      have ⟨hfhead, hfs⟩ := List.pairwise_cons.1 hf
      obtain ⟨n, v⟩ := e
      obtain ⟨m, w⟩ := f
      -- a smaller first name would be found in one list only
      have hnm : n = m := by
        rcases Decidable.em (n < m) with hlt | hge
        · have hnone : List.lookup n ((m, w) :: fs) = none := lookup_eq_none fun x hx => by
            rcases List.mem_cons.1 hx with hx | hx
            · exact hx ▸ hlt
            · exact String.lt_trans hlt (hfhead x hx)
          have := h n
          rw [hnone] at this
          simp at this
        · rcases Decidable.em (m < n) with hlt | hge'
          · have hnone : List.lookup m ((n, v) :: es) = none := lookup_eq_none fun x hx => by
              rcases List.mem_cons.1 hx with hx | hx
              · exact hx ▸ hlt
              · exact String.lt_trans hlt (hehead x hx)
            have := h m
            rw [hnone] at this
            simp at this
          · exact String.le_antisymm (String.not_lt.1 hge') (String.not_lt.1 hge)
      subst hnm
      have hvw : v = w := by simpa [List.lookup_cons] using h n
      -- equal heads leave the rest to the induction, where their name is found in neither list
      subst hvw
      -- behind equal first entries the two lists still answer alike
      congr 1
      refine ih hes hfs fun key => ?_
      by_cases hk : key = n
      · subst hk
        rw [lookup_eq_none hehead, lookup_eq_none hfhead]
      · simpa [List.lookup_cons, beq_eq_false_iff_ne.2 hk] using h key

/-- In an ordered list no entry hides another, so each is what its name gives. -/
theorem lookup_eq_some_iff {key : String} {value : α} {es : List (String × α)}
    (h : Ordered es) :
    es.lookup key = some value ↔ (key, value) ∈ es := by
  induction es with
  | nil => simp
  | cons e rest ih =>
    have ⟨hhead, hrest⟩ := List.pairwise_cons.1 h
    obtain ⟨n, v⟩ := e
    by_cases hk : key = n
    · subst hk
      have hnot : (key, value) ∉ rest := fun hm =>
        String.lt_irrefl key (hhead (key, value) hm)
      simp [hnot, eq_comm]
    · simp [List.lookup_cons, beq_eq_false_iff_ne.2 hk, ih hrest, hk]

end Rollbook.Entries
