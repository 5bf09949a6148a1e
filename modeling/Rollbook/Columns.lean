import Rollbook.Entries
import Rollbook.Value

/-!
# Rollbook — columns

A finite map from column names to values, kept in the order of the names: a stored row, a filter,
or the changes of an update. A column that is absent reads as nothing. The view of a map is
`get?`; two maps with the same view are equal (`ext`), and each operation is given by what it does
to the view (`get?_insert`, `get?_overlay`).
-/

namespace Rollbook

/-- Values by column name, in the order of the names, each name once. -/
structure Columns where
  entries : List (String × Value)
  ordered : Entries.Ordered entries
deriving DecidableEq

namespace Columns

/-- No column at all. -/
def empty : Columns := ⟨[], .nil⟩

instance : EmptyCollection Columns := ⟨empty⟩

instance : Inhabited Columns := ⟨empty⟩

/-- The names of the columns, in order. -/
def names (c : Columns) : List String := c.entries.map (·.1)

/-- The value of a column, if the column is present. -/
def get? (c : Columns) (name : String) : Option Value := c.entries.lookup name

/-- The value of a column, where an absent column reads as nothing. -/
def get (c : Columns) (name : String) : Value := (c.get? name).getD .null

def isEmpty (c : Columns) : Bool := c.entries.isEmpty

/-! ## Insertion -/

/-- The map with one column set. -/
def insert (c : Columns) (name : String) (value : Value) : Columns :=
  ⟨Entries.place name value c.entries, Entries.ordered_place c.ordered⟩

/-- The map built by setting the given columns one after the other. -/
def ofList (es : List (String × Value)) : Columns :=
  es.foldl (fun c e => c.insert e.1 e.2) ∅

/-- The map with every column of `changes` set to its value there. -/
def overlay (c changes : Columns) : Columns :=
  changes.entries.foldl (fun row e => row.insert e.1 e.2) c

/-- Whether a row agrees with every column of a filter. -/
def meets (row filter : Columns) : Bool :=
  filter.entries.all fun e => row.get e.1 = e.2

/-! ## The view -/

@[simp] theorem get?_empty (name : String) : (∅ : Columns).get? name = none := rfl

@[simp] theorem names_empty : (∅ : Columns).names = [] := rfl

/-- Setting a column changes that column only. -/
theorem get?_insert (c : Columns) (name key : String) (value : Value) :
    (c.insert name value).get? key = if key = name then some value else c.get? key :=
  Entries.lookup_place name key value c.entries

@[simp] theorem get?_insert_self (c : Columns) (name : String) (value : Value) :
    (c.insert name value).get? name = some value := by
  rw [get?_insert, if_pos rfl]

theorem get?_insert_of_ne (c : Columns) {name key : String} (value : Value) (h : key ≠ name) :
    (c.insert name value).get? key = c.get? key := by
  rw [get?_insert, if_neg h]

/-- Maps that answer alike are equal. -/
@[ext] theorem ext {a b : Columns} (h : ∀ name, a.get? name = b.get? name) : a = b := by
  obtain ⟨es, he⟩ := a
  obtain ⟨fs, hf⟩ := b
  have := Entries.eq_of_lookup he hf h
  subst this
  rfl

/-- The entries of a map are its view. -/
theorem get?_eq_some_iff (c : Columns) {name : String} {value : Value} :
    c.get? name = some value ↔ (name, value) ∈ c.entries :=
  Entries.lookup_eq_some_iff c.ordered

/-- A name is listed when the map has its column. -/
theorem mem_names_iff (c : Columns) {name : String} :
    name ∈ c.names ↔ ∃ value, c.get? name = some value := by
  simp only [names, List.mem_map, get?_eq_some_iff]
  constructor
  · rintro ⟨⟨n, v⟩, h, rfl⟩
    exact ⟨v, h⟩
  · rintro ⟨v, h⟩
    exact ⟨(name, v), h, rfl⟩

/-- A column that is there is found with the value that reading it gives. -/
theorem get?_of_mem_names {c : Columns} {name : String} (h : name ∈ c.names) :
    c.get? name = some (c.get name) := by
  obtain ⟨value, hvalue⟩ := c.mem_names_iff.1 h
  rw [get, hvalue]
  rfl

/-- A column that is not there is not found, while reading it gives null. -/
theorem get?_of_not_mem_names {c : Columns} {name : String} (h : name ∉ c.names) :
    c.get? name = none := by
  cases hvalue : c.get? name with
  | none => rfl
  | some value => exact absurd (c.mem_names_iff.2 ⟨value, hvalue⟩) h

/-- A map is empty when it has no column. -/
theorem isEmpty_iff (c : Columns) : c.isEmpty = true ↔ c = ∅ := by
  constructor
  · intro h
    obtain ⟨es, hs⟩ := c
    obtain rfl : es = [] := by simpa [isEmpty] using h
    rfl
  · rintro rfl
    rfl

/-- Setting columns of distinct names one after the other: each of them answers with its value, and
every other column as before. -/
theorem get?_foldl_insert (c : Columns) {es : List (String × Value)} (h : (es.map (·.1)).Nodup)
    (name : String) :
    (es.foldl (fun c e => c.insert e.1 e.2) c).get? name = (es.lookup name).or (c.get? name) := by
  induction es generalizing c with
  | nil => simp
  | cons e rest ih =>
    obtain ⟨n, v⟩ := e
    obtain ⟨hhead, hrest⟩ := List.nodup_cons.1 h
    rw [List.foldl_cons, ih _ hrest, get?_insert]
    by_cases hk : name = n
    -- no later column sets the name again
    · subst hk
      have hnone : rest.lookup name = none := by
        rw [List.lookup_eq_none_iff]
        intro p hp
        rw [bne_iff_ne]
        intro heq
        exact hhead (List.mem_map.2 ⟨p, hp, heq.symm⟩)
      rw [hnone]
      simp
    · simp [List.lookup_cons, beq_eq_false_iff_ne.2 hk, hk]

/-- A map built from columns of distinct names answers with each of them. -/
theorem get?_ofList {es : List (String × Value)} (h : (es.map (·.1)).Nodup) (name : String) :
    (ofList es).get? name = es.lookup name := by
  rw [ofList, get?_foldl_insert _ h]
  simp

theorem names_nodup (c : Columns) : c.names.Nodup := by
  rw [names, List.Nodup, List.pairwise_map]
  refine c.ordered.imp ?_
  intro a b hlt heq
  exact String.lt_irrefl _ (heq ▸ hlt)

/-- An overlay answers with the change where there is one, and with the row elsewhere. -/
theorem get?_overlay (c changes : Columns) (name : String) :
    (c.overlay changes).get? name = (changes.get? name).or (c.get? name) :=
  get?_foldl_insert c changes.names_nodup name

theorem get_overlay (c changes : Columns) (name : String) :
    (c.overlay changes).get name = (changes.get? name).getD (c.get name) := by
  rw [get, get?_overlay]
  cases changes.get? name <;> rfl

theorem mem_names_insert (c : Columns) {name key : String} {value : Value} :
    key ∈ (c.insert name value).names ↔ key = name ∨ key ∈ c.names := by
  simp only [mem_names_iff, get?_insert]
  by_cases hk : key = name
  · simp [hk]
  · simp [hk]

theorem mem_names_singleton {name key : String} {value : Value} :
    key ∈ ((∅ : Columns).insert name value).names ↔ key = name := by
  simp [mem_names_insert]

theorem mem_names_overlay (c changes : Columns) {name : String} :
    name ∈ (c.overlay changes).names ↔ name ∈ changes.names ∨ name ∈ c.names := by
  simp only [mem_names_iff, get?_overlay]
  cases changes.get? name <;> simp

/-- Columns made from a list have the names of the list, also where the list repeats one. -/
theorem mem_names_ofList {es : List (String × Value)} {name : String} :
    name ∈ (ofList es).names ↔ name ∈ es.map (·.1) := by
  -- the columns are filled one by one, so what has been filled before is carried along
  have hgrow : ∀ c : Columns, name ∈ (es.foldl (fun c e => c.insert e.1 e.2) c).names ↔
      name ∈ es.map (·.1) ∨ name ∈ c.names := by
    induction es with
    | nil => simp
    | cons e rest ih =>
      intro c
      rw [List.foldl_cons, ih, mem_names_insert, List.map_cons, List.mem_cons]
      constructor
      · rintro (h | h | h)
        · exact .inl (.inr h)
        · exact .inl (.inl h)
        · exact .inr h
      · rintro ((h | h) | h)
        · exact .inr (.inl h)
        · exact .inl h
        · exact .inr (.inr h)
  rw [ofList, hgrow]
  exact or_iff_left (by simp)

/-- A row meets a filter when every column of the filter reads the same in the row. -/
theorem meets_iff (row filter : Columns) :
    row.meets filter = true ↔
      ∀ name value, filter.get? name = some value → row.get name = value := by
  simp only [meets, List.all_eq_true, decide_eq_true_eq]
  constructor
  · intro h name value hv
    exact h (name, value) ((get?_eq_some_iff filter).1 hv)
  · intro h e he
    exact h e.1 e.2 ((get?_eq_some_iff filter).2 he)

end Columns

/-- A stored row. -/
abbrev Row := Columns

end Rollbook
