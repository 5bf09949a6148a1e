import Mathlib.Data.List.Forall2
import Rollbook.Proofs.OrderedTree
import Rollbook.Settings

/-!
# Rollbook — the layout of sections

A section is read entry by entry into a record that starts from its defaults, and each entry may
fail in a way of its own. Which values are read where is told apart from that, by a layout: the keys
of a section and what each may hold. A section given as a list has the values of its first keys, and
from there on it is read as the dictionary that it stands for (`asSection_eq_ok_iff`). So one lemma
says of every section when it is read and what its record holds then, from a few facts about each
key alone (`Slot`).

* `Layout.given?`, `Layout.Fits` — the value that a tree has at a path, and when a tree can be read.
* `Filled`                       — what reading entries one by one comes to.
* `Slot`, `Layout.ReadBy`        — what is to be known of a key, and what follows of a section.
* `readBy_section`               — a section whose keys are slots is read as its layout says.
-/

namespace Rollbook

-- ---------------------------------------------------------------------------
-- Lookups by key
-- ---------------------------------------------------------------------------

section Lookups

variable {α : Type} {xs : List (String × α)} {key : String} {value : α}

/-- What a name gives is an entry of that name. The converse needs the entry to be the first one. -/
theorem mem_of_lookup (h : xs.lookup key = some value) : (key, value) ∈ xs := by
  obtain ⟨front, back, rfl, -⟩ := List.lookup_eq_some_iff.1 h
  exact List.mem_append_right _ List.mem_cons_self

theorem lookup_eq_none_iff : xs.lookup key = none ↔ key ∉ xs.map Prod.fst := by
  rw [List.lookup_eq_none_iff, List.mem_map]
  constructor
  · rintro h ⟨x, hx, rfl⟩
    exact bne_iff_ne.1 (h x hx) rfl
  · exact fun h x hx => bne_iff_ne.2 fun heq => h ⟨x, hx, heq.symm⟩

/-- Keys that do not come twice are found where they stand. -/
theorem lookup_of_mem (hnodup : (xs.map Prod.fst).Nodup)
    {x : String × α} (hx : x ∈ xs) : xs.lookup x.1 = some x.2 := by
  induction xs with
  | nil => cases hx
  | cons y rest ih =>
    obtain ⟨hhead, hrest⟩ := List.nodup_cons.1 hnodup
    rw [List.lookup_cons]
    rcases List.mem_cons.1 hx with rfl | hx
    · rw [beq_self_eq_true]
    · have hmem : x.1 ∈ rest.map Prod.fst := List.mem_map_of_mem hx
      have hne : x.1 ≠ y.1 := fun heq => hhead (heq ▸ hmem)
      rw [beq_eq_false_iff_ne.2 hne]
      exact ih hrest hx

/-- The lists differ in the value of one entry only, the first one under its key. -/
def Replaces (key : String) (value : α) (xs ys : List (String × α)) : Prop :=
  ∃ front old back, xs = front ++ (key, old) :: back ∧ ys = front ++ (key, value) :: back ∧
    front.lookup key = none

/-- A replaced entry changes what its own name gives, and no other. -/
theorem Replaces.lookup {ys : List (String × α)} (h : Replaces key value xs ys) (other : String) :
    ys.lookup other = if other = key then some value else xs.lookup other := by
  obtain ⟨front, old, back, rfl, rfl, hfront⟩ := h
  rw [List.lookup_append, List.lookup_append, List.lookup_cons, List.lookup_cons]
  by_cases hkey : other = key
  · rw [if_pos hkey, hkey, hfront, beq_self_eq_true]
    rfl
  · rw [if_neg hkey, beq_eq_false_iff_ne.2 hkey]

end Lookups

-- ---------------------------------------------------------------------------
-- Layouts
-- ---------------------------------------------------------------------------

/-- What may stand at a place of the settings: a text, a number below a bound, or a section, whose
keys come in an order and have each a layout of its own. -/
inductive Layout where
  | text
  | number (size : Nat)
  | keyed (slots : List (String × Layout))

/-- The entries of a section. The items of a list go to the first keys. -/
def Tree.entries? (keys : List String) : Tree → Option (List (String × Tree))
  | .dict es => some es
  | .list items => some (keys.zip items)
  | _ => none

namespace Layout

/-- The layout at a path of keys. -/
def at? : Layout → List String → Option Layout
  | layout, [] => some layout
  | .keyed slots, key :: rest => (slots.lookup key).bind fun layout => layout.at? rest
  | _, _ :: _ => none

/-- What is read at this place is a value and not a section. -/
def IsValue : Layout → Prop
  | .keyed _ => False
  | _ => True

/-- There is a setting at the path. -/
def HasValue (layout : Layout) (path : List String) : Prop :=
  ∃ leaf, layout.at? path = some leaf ∧ leaf.IsValue

/-- The value that a tree has at a path of keys, in sections given as dictionaries or as lists. -/
def given? : Layout → Tree → List String → Option Tree
  | _, tree, [] => some tree
  | .keyed slots, tree, key :: rest =>
    (slots.lookup key).bind fun layout =>
      ((tree.entries? (slots.map Prod.fst)).bind (·.lookup key)).bind fun value =>
        layout.given? value rest
  | _, _, _ :: _ => none

/-- The tree can be read: each section is a dictionary or a list and has no key but its own, and
each value is of its type and in its range. -/
inductive Fits : Layout → Tree → Prop
  | text (s : String) : Fits .text (.text s)
  | number {size : Nat} {n : Int} (hsign : 0 ≤ n) (hsize : n < size) : Fits (.number size) (.int n)
  | keyed {slots : List (String × Layout)} {tree : Tree} {es : List (String × Tree)}
    (hentries : tree.entries? (slots.map Prod.fst) = some es)
    (hknown : ∀ e ∈ es, e.1 ∈ slots.map Prod.fst)
    (hvalues : ∀ e ∈ es, ∀ layout, slots.lookup e.1 = some layout → Fits layout e.2) :
    Fits (.keyed slots) tree

variable {layout : Layout} {slots : List (String × Layout)} {t v : Tree} {key : String}
  {path : List String} {size : Nat}

/-- At the end of the path stands a value. -/
theorem hasValue_nil (h : layout.HasValue []) : layout.IsValue := by
  obtain ⟨leaf, hleaf, hvalue⟩ := h
  obtain rfl := Option.some.inj hleaf
  exact hvalue

/-- A path to a value leads through sections, each with the next key among its slots. -/
theorem hasValue_cons (h : layout.HasValue (key :: path)) :
    ∃ slots next, layout = .keyed slots ∧ slots.lookup key = some next ∧ next.HasValue path := by
  obtain ⟨leaf, hleaf, hvalue⟩ := h
  cases layout with
  | keyed slots =>
    obtain ⟨next, hnext, hleaf⟩ := Option.bind_eq_some_iff.1 hleaf
    exact ⟨slots, next, rfl, hnext, leaf, hleaf, hvalue⟩
  | _ => cases hleaf

/-- In a section, what a tree gives under a path is what its entry of the first key gives under the
rest. The entries are those of a mapping, or of a list by position. -/
theorem given?_keyed {next : Layout} (h : slots.lookup key = some next) (t : Tree)
    (path : List String) :
    (keyed slots).given? t (key :: path) =
      ((t.entries? (slots.map Prod.fst)).bind (·.lookup key)).bind fun value =>
        next.given? value path := by
  rw [given?, h]
  rfl

theorem fits_text_iff : Fits .text t ↔ ∃ s, t = .text s := by
  constructor
  · intro h
    cases h with
    | text s => exact ⟨s, rfl⟩
  · rintro ⟨s, rfl⟩
    exact .text s

/-- Only integers fit a number, from zero up to below its size; a text with digits in
it does not. -/
theorem fits_number_iff : Fits (.number size) t ↔ ∃ n : Int, t = .int n ∧ 0 ≤ n ∧ n < size := by
  constructor
  · intro h
    cases h with
    | number hsign hsize => exact ⟨_, rfl, hsign, hsize⟩
  · rintro ⟨n, rfl, hsign, hsize⟩
    exact .number hsign hsize

/-- A tree fits a section when it has entries, all of known keys, and each fits what the section has
under its key. -/
theorem fits_keyed_iff : Fits (.keyed slots) t ↔
    ∃ es, t.entries? (slots.map Prod.fst) = some es ∧
      (∀ e ∈ es, e.1 ∈ slots.map Prod.fst) ∧
      ∀ e ∈ es, ∀ layout, slots.lookup e.1 = some layout → Fits layout e.2 := by
  constructor
  · intro h
    cases h with
    | keyed hentries hknown hvalues => exact ⟨_, hentries, hknown, hvalues⟩
  · rintro ⟨es, hentries, hknown, hvalues⟩
    exact .keyed hentries hknown hvalues

end Layout

-- ---------------------------------------------------------------------------
-- Reading a section entry by entry
-- ---------------------------------------------------------------------------

section Reading

variable {σ : Type} {slots : List (String × (Tree → σ → Except LoadError σ))}
  {es : List (String × Tree)} {s s' : σ} {t : Tree}

/-- The entries, read one after the other, lead from one record to another. -/
inductive Filled (slots : List (String × (Tree → σ → Except LoadError σ))) :
    σ → List (String × Tree) → σ → Prop
  | nil (s : σ) : Filled slots s [] s
  | cons {name : String} {value : Tree} {rest : List (String × Tree)} {s s₁ s' : σ}
    {put : Tree → σ → Except LoadError σ} (hslot : slots.lookup name = some put)
    (hput : put value s = .ok s₁) (hrest : Filled slots s₁ rest s') :
    Filled slots s ((name, value) :: rest) s'

/-- No entries leave the settings as they are. -/
theorem filled_nil_iff : Filled slots s [] s' ↔ s = s' := by
  constructor
  · intro h
    cases h
    rfl
  · rintro rfl
    exact .nil s

/-- Entries are put in their slots one by one, the first of them first, and each key must have a
slot. -/
theorem filled_cons_iff {name : String} {value : Tree} {rest : List (String × Tree)} :
    Filled slots s ((name, value) :: rest) s' ↔
      ∃ put s₁, slots.lookup name = some put ∧ put value s = .ok s₁ ∧ Filled slots s₁ rest s' := by
  constructor
  · intro h
    cases h with
    | cons hslot hput hrest => exact ⟨_, _, hslot, hput, hrest⟩
  · rintro ⟨put, s₁, hslot, hput, hrest⟩
    exact .cons hslot hput hrest

theorem mapError_eq_ok_iff {ε ε' α : Type} {f : ε → ε'} {x : Except ε α} {a : α} :
    x.mapError f = .ok a ↔ x = .ok a := by
  cases x <;> simp [Except.mapError]

/-- The entries of a dictionary are read by their keys. -/
theorem asSection_dict_eq_ok_iff :
    Tree.asSection .ignored slots s (.dict es) = .ok s' ↔ Filled slots s es s' := by
  induction es generalizing s with
  | nil =>
    rw [filled_nil_iff]
    exact ⟨Except.ok.inj, congrArg Except.ok⟩
  | cons e rest ih =>
    obtain ⟨name, value⟩ := e
    unfold Tree.asSection at ih ⊢
    dsimp only at ih ⊢
    rw [List.foldlM_cons, bind_eq_ok_iff, filled_cons_iff]
    cases hslot : slots.lookup name with
    -- a key without a slot fails the section
    | none =>
      constructor
      · rintro ⟨s₁, hput, -⟩
        cases hput
      · rintro ⟨put, s₁, hnone, -⟩
        cases hnone
    | some put =>
      constructor
      · rintro ⟨s₁, hput, hrest⟩
        exact ⟨put, s₁, rfl, mapError_eq_ok_iff.1 hput, ih.1 hrest⟩
      · rintro ⟨_, s₁, heq, hput, hrest⟩
        obtain rfl := Option.some.inj heq
        exact ⟨s₁, mapError_eq_ok_iff.2 hput, ih.2 hrest⟩

/-- The items of a list are read by their place, which comes to the keys of these places. -/
theorem foldlM_list_eq_ok_iff {front : List (String × (Tree → σ → Except LoadError σ))}
    (hfront : ∀ slot ∈ front, slots.lookup slot.1 = some slot.2) (items : List Tree) (n : Nat) :
    ((front.zip items).zipIdx n).foldlM
      (fun s e => (e.1.1.2 e.1.2 s).mapError (LoadError.under (toString e.2))) s = .ok s' ↔
        Filled slots s ((front.map Prod.fst).zip items) s' := by
  induction front generalizing items n s with
  | nil =>
    rw [List.map_nil, List.zip_nil_left, List.zip_nil_left, filled_nil_iff]
    exact ⟨Except.ok.inj, congrArg Except.ok⟩
  | cons slot front ih =>
    obtain ⟨name, put⟩ := slot
    obtain ⟨hslot, hfront⟩ := List.forall_mem_cons.1 hfront
    cases items with
    | nil =>
      rw [List.zip_nil_right, List.zip_nil_right, filled_nil_iff]
      exact ⟨Except.ok.inj, congrArg Except.ok⟩
    | cons item items =>
      rw [List.map_cons, List.zip_cons_cons, List.zip_cons_cons, List.zipIdx_cons,
        List.foldlM_cons, bind_eq_ok_iff, filled_cons_iff]
      constructor
      · rintro ⟨s₁, hput, hrest⟩
        exact ⟨put, s₁, hslot, mapError_eq_ok_iff.1 hput, (ih hfront items _).1 hrest⟩
      · rintro ⟨_, s₁, heq, hput, hrest⟩
        obtain rfl := Option.some.inj (hslot.symm.trans heq)
        exact ⟨s₁, mapError_eq_ok_iff.2 hput, (ih hfront items _).2 hrest⟩

/-- **A section is read by its entries,** whether it is a dictionary or a list. -/
theorem asSection_eq_ok_iff (hnodup : (slots.map Prod.fst).Nodup) :
    t.asSection .ignored slots s = .ok s' ↔
      ∃ es, t.entries? (slots.map Prod.fst) = some es ∧ Filled slots s es s' := by
  cases t with
  | dict es =>
    rw [asSection_dict_eq_ok_iff]
    constructor
    · exact fun h => ⟨es, rfl, h⟩
    · rintro ⟨_, heq, h⟩
      exact Option.some.inj heq ▸ h
  | list items =>
    have hlist := @foldlM_list_eq_ok_iff σ slots s s' slots (fun _ => lookup_of_mem hnodup) items 0
    rw [Tree.asSection, if_neg (fun h => Surplus.noConfusion h.1), hlist]
    constructor
    · exact fun h => ⟨_, rfl, h⟩
    · rintro ⟨_, heq, h⟩
      exact Option.some.inj heq ▸ h
  | _ =>
    constructor
    · intro h
      cases h
    · rintro ⟨es, hes, -⟩
      cases hes

end Reading

-- ---------------------------------------------------------------------------
-- Sections that follow a layout
-- ---------------------------------------------------------------------------

/-- Reading follows the layout: it answers on the trees that fit, and what it answers has at every
path the value that the tree has there, or else the value of `base`. -/
structure Layout.ReadBy {α : Type} (layout : Layout) (read : Tree → Except LoadError α)
    (toTree : α → Tree) (base : Tree) : Prop where
  accepts : ∀ t, (∃ a, read t = .ok a) ↔ layout.Fits t
  at_path : ∀ {t a}, t.Ordered → read t = .ok a → ∀ {path}, layout.HasValue path →
    (toTree a).at? path = (layout.given? t path).or (base.at? path)

/-- Reading the value of a key follows the layout of the key, and leaves all other keys alone. -/
structure Slot {σ : Type} (toTree : σ → Tree) (base : Tree) (key : String) (layout : Layout)
    (put : Tree → σ → Except LoadError σ) : Prop where
  accepts : ∀ v s, (∃ s', put v s = .ok s') ↔ layout.Fits v
  own : ∀ {v s s'}, v.Ordered → put v s = .ok s' → ∀ {path}, layout.HasValue path →
    (toTree s').at? (key :: path) = (layout.given? v path).or (base.at? (key :: path))
  others : ∀ {v s s'}, put v s = .ok s' → ∀ {other}, other ≠ key → ∀ path,
    (toTree s').at? (other :: path) = (toTree s).at? (other :: path)

section Sections

variable {σ : Type} {slots : List (String × (Tree → σ → Except LoadError σ))}
  {layouts : List (String × Layout)} {toTree : σ → Tree} {base : Tree}
  {es : List (String × Tree)} {s s' : σ} {key : String} {layout : Layout} {path : List String}

/-- The keys of a section are slots, in the order of the layout. -/
abbrev Slots (toTree : σ → Tree) (base : Tree)
    (slots : List (String × (Tree → σ → Except LoadError σ)))
    (layouts : List (String × Layout)) : Prop :=
  List.Forall₂ (fun slot l => slot.1 = l.1 ∧ Slot toTree base slot.1 l.2 slot.2) slots layouts

/-- The slots have the keys of the layout, in its order. -/
theorem Slots.keys_eq (h : Slots toTree base slots layouts) :
    slots.map Prod.fst = layouts.map Prod.fst := by
  induction h with
  | nil => rfl
  | cons hhead _ ih => rw [List.map_cons, List.map_cons, hhead.1, ih]

/-- A key is none of the section, or it is a slot. -/
theorem Slots.lookup_cases (h : Slots toTree base slots layouts) (key : String) :
    slots.lookup key = none ∧ key ∉ layouts.map Prod.fst ∨
      ∃ put layout, slots.lookup key = some put ∧ layouts.lookup key = some layout ∧
        Slot toTree base key layout put := by
  induction h with
  | nil => exact .inl ⟨rfl, List.not_mem_nil⟩
  | @cons slot l slots layouts hhead _ ih =>
    obtain ⟨hname, hslot⟩ := hhead
    rw [List.lookup_cons, List.lookup_cons, ← hname, List.map_cons, List.mem_cons, not_or,
      ← hname]
    by_cases hkey : key = slot.1
    · rw [hkey, beq_self_eq_true]
      exact .inr ⟨slot.2, l.2, rfl, rfl, hslot⟩
    · rw [beq_eq_false_iff_ne.2 hkey]
      exact ih.imp (fun hnone => ⟨hnone.1, hkey, hnone.2⟩) id

/-- Each key of the layout has a slot that reads what the layout has there. -/
theorem Slots.exists_slot (h : Slots toTree base slots layouts)
    (hlayout : layouts.lookup key = some layout) :
    ∃ put, slots.lookup key = some put ∧ Slot toTree base key layout put := by
  rcases h.lookup_cases key with ⟨-, hmissing⟩ | ⟨put, layout', hput, hlayout', hslot⟩
  · cases (lookup_eq_none_iff.2 hmissing).symm.trans hlayout
  · obtain rfl := Option.some.inj (hlayout.symm.trans hlayout')
    exact ⟨put, hput, hslot⟩

/-- Entries can be read when each is under a key of the section and fits there. -/
theorem Slots.exists_filled_iff (h : Slots toTree base slots layouts) (s : σ) :
    (∃ s', Filled slots s es s') ↔ (∀ e ∈ es, e.1 ∈ layouts.map Prod.fst) ∧
      ∀ e ∈ es, ∀ layout, layouts.lookup e.1 = some layout → layout.Fits e.2 := by
  induction es generalizing s with
  | nil => exact ⟨fun _ => ⟨nofun, nofun⟩, fun _ => ⟨s, .nil s⟩⟩
  | cons e rest ih =>
    obtain ⟨name, value⟩ := e
    rw [List.forall_mem_cons, List.forall_mem_cons]
    constructor
    · rintro ⟨s', hfilled⟩
      obtain ⟨put, s₁, hput, hvalue, hrest⟩ := filled_cons_iff.1 hfilled
      obtain ⟨hknown, hfits⟩ := (ih s₁).1 ⟨s', hrest⟩
      -- the slot that took the entry is the one of the layout
      rcases h.lookup_cases name with ⟨hnone, -⟩ | ⟨put', layout, hput', hlayout, hslot⟩
      · cases hnone.symm.trans hput
      · obtain rfl := Option.some.inj (hput.symm.trans hput')
        refine ⟨⟨?_, hknown⟩, fun layout' hlayout' => ?_, hfits⟩
        · exact List.mem_map_of_mem (mem_of_lookup hlayout)
        · obtain rfl := Option.some.inj (hlayout.symm.trans hlayout')
          exact (hslot.accepts value s).1 ⟨s₁, hvalue⟩
    · rintro ⟨⟨hmem, hknown⟩, hfit, hfits⟩
      rcases h.lookup_cases name with ⟨-, hmissing⟩ | ⟨put, layout, hput, hlayout, hslot⟩
      · exact absurd hmem hmissing
      · obtain ⟨s₁, hvalue⟩ := (hslot.accepts value s).2 (hfit layout hlayout)
        obtain ⟨s', hrest⟩ := (ih s₁).2 ⟨hknown, hfits⟩
        exact ⟨s', filled_cons_iff.2 ⟨put, s₁, hput, hvalue, hrest⟩⟩

/-- A key without an entry keeps its value. -/
theorem Slots.at?_of_missing (h : Slots toTree base slots layouts) (hfilled : Filled slots s es s')
    (hmissing : es.lookup key = none) (path : List String) :
    (toTree s').at? (key :: path) = (toTree s).at? (key :: path) := by
  induction hfilled with
  | nil => rfl
  | @cons name value rest s s₁ s' put hput hvalue _ ih =>
    rw [List.lookup_cons] at hmissing
    split at hmissing
    · cases hmissing
    · next hname =>
      rcases h.lookup_cases name with ⟨hnone, -⟩ | ⟨put', layout, hput', -, hslot⟩
      · cases hnone.symm.trans hput
      · obtain rfl := Option.some.inj (hput.symm.trans hput')
        -- the entry was put in another slot, which leaves this key
        rw [ih hmissing]
        exact hslot.others hvalue (beq_eq_false_iff_ne.1 hname) path

/-- A key with one entry has the value of the entry. -/
theorem Slots.at?_of_entry (h : Slots toTree base slots layouts) (hfilled : Filled slots s es s')
    (hnodup : (es.map Prod.fst).Nodup) (hordered : ∀ e ∈ es, e.2.Ordered)
    (hlayout : layouts.lookup key = some layout) (hpath : layout.HasValue path) {v : Tree}
    (hentry : es.lookup key = some v) :
    (toTree s').at? (key :: path) = (layout.given? v path).or (base.at? (key :: path)) := by
  induction hfilled with
  | nil => cases hentry
  | @cons name value rest s s₁ s' put hput hvalue hrest ih =>
    obtain ⟨hhead, hnodup⟩ := List.nodup_cons.1 hnodup
    obtain ⟨hvalueOrdered, hordered⟩ := List.forall_mem_cons.1 hordered
    rw [List.lookup_cons] at hentry
    split at hentry
    · next hname =>
      -- no later entry is under the same key
      obtain rfl := eq_of_beq hname
      obtain rfl := Option.some.inj hentry
      obtain ⟨put', hput', hslot⟩ := h.exists_slot hlayout
      obtain rfl := Option.some.inj (hput.symm.trans hput')
      rw [h.at?_of_missing hrest (lookup_eq_none_iff.2 hhead)]
      exact hslot.own hvalueOrdered hvalue hpath
    · exact ih hnodup hordered hentry

/-- The entries of an ordered tree have every key once. -/
theorem ordered_entries? {keys : List String} {t : Tree} (ht : t.Ordered) (hkeys : keys.Nodup)
    (hes : t.entries? keys = some es) :
    (es.map Prod.fst).Nodup ∧ ∀ e ∈ es, e.2.Ordered := by
  cases t with
  | dict es' =>
    obtain rfl := Option.some.inj hes
    refine ⟨List.pairwise_map.2 (ht.keys.imp fun hlt heq => ?_), fun e he => ht.of_mem he⟩
    exact String.lt_irrefl _ (heq ▸ hlt)
  | list items =>
    obtain rfl := Option.some.inj hes
    refine ⟨?_, fun e he => ht.of_mem_list (List.of_mem_zip he).2⟩
    -- the items of a list stand for the first keys, as many as there are items
    rw [List.zip_eq_zip_take_min, List.map_fst_zip]
    · exact hkeys.sublist (List.take_sublist _ _)
    · rw [List.length_take, List.length_take]
      omega
  | _ => cases hes

/-- **A section whose keys are slots is read as its layout says.** -/
theorem readBy_section (hkeys : (layouts.map Prod.fst).Nodup) {defaults : σ}
    (h : Slots toTree (toTree defaults) slots layouts) :
    (Layout.keyed layouts).ReadBy (Tree.asSection .ignored slots defaults) toTree
      (toTree defaults) := by
  have hnodup : (slots.map Prod.fst).Nodup := h.keys_eq ▸ hkeys
  constructor
  · intro t
    rw [Layout.fits_keyed_iff]
    constructor
    · rintro ⟨s', hread⟩
      obtain ⟨es, hes, hfilled⟩ := (asSection_eq_ok_iff hnodup).1 hread
      exact ⟨es, h.keys_eq ▸ hes, (h.exists_filled_iff defaults).1 ⟨s', hfilled⟩⟩
    · rintro ⟨es, hes, hfits⟩
      obtain ⟨s', hfilled⟩ := (h.exists_filled_iff defaults).2 hfits
      exact ⟨s', (asSection_eq_ok_iff hnodup).2 ⟨es, h.keys_eq.symm ▸ hes, hfilled⟩⟩
  · intro t s' ht hread path hpath
    obtain ⟨es, hes, hfilled⟩ := (asSection_eq_ok_iff hnodup).1 hread
    rw [h.keys_eq] at hes
    obtain ⟨hentries, hordered⟩ := ordered_entries? ht hkeys hes
    cases path with
    | nil => exact absurd (Layout.hasValue_nil hpath) id
    | cons key path =>
      obtain ⟨_, next, heq, hnext, hpath⟩ := Layout.hasValue_cons hpath
      obtain rfl := Layout.keyed.inj heq
      rw [Layout.given?_keyed hnext, hes, Option.bind_some]
      -- a key without an entry keeps its default, and one with an entry has the value of the entry
      cases hentry : es.lookup key with
      | none => exact h.at?_of_missing hfilled hentry path
      | some v => exact h.at?_of_entry hfilled hentries hordered hnext hpath hentry

end Sections

-- ---------------------------------------------------------------------------
-- Slots
-- ---------------------------------------------------------------------------

section Values

variable {σ α : Type} {entries : σ → List (String × Tree)} {defaults : σ} {key : String}

/-- A text setting is read from a text, as it is. -/
theorem asText_eq_ok_iff {t : Tree} {s : String} : t.asText = .ok s ↔ t = .text s := by
  cases t with
  | text s' => exact ⟨fun h => congrArg Tree.text (Except.ok.inj h),
      fun h => congrArg Except.ok (Tree.text.inj h)⟩
  | _ => exact ⟨nofun, nofun⟩

/-- A number is read from an integer, as it is, if it is not too large. -/
theorem asNat_eq_ok_iff {size : Nat} {t : Tree} {n : Nat} :
    t.asNat size = .ok n ↔ t = .int n ∧ n < size := by
  cases t with
  | int m =>
    show (if 0 ≤ m ∧ m < size then Except.ok m.toNat else Except.error _) = Except.ok n ↔ _
    rw [Tree.int.injEq]
    by_cases hrange : 0 ≤ m ∧ m < size
    · rw [if_pos hrange, Except.ok.injEq]
      omega
    · rw [if_neg hrange]
      refine ⟨nofun, fun h => absurd ?_ hrange⟩
      omega
  | _ => exact ⟨nofun, fun h => nomatch h.1⟩

/-- Texts are read as the layout has them. No path leads further into a text. -/
theorem readBy_text (base : Tree) : Layout.text.ReadBy Tree.asText .text base := by
  constructor
  · intro t
    rw [Layout.fits_text_iff]
    exact exists_congr fun s => asText_eq_ok_iff
  · intro t s _ hread path hpath
    obtain rfl := asText_eq_ok_iff.1 hread
    cases path with
    | nil => rfl
    | cons key path =>
      obtain ⟨slots, _, heq, -⟩ := Layout.hasValue_cons hpath
      cases heq

/-- A number that is below the size of a type of words is the value of a word. -/
theorem readBy_number {size : Nat} {ofNat : Nat → α} {toNat : α → Nat}
    (hword : ∀ {n}, n < size → toNat (ofNat n) = n) (base : Tree) :
    (Layout.number size).ReadBy (fun t => (t.asNat size).map ofNat) (fun x => .int (toNat x))
      base := by
  constructor
  · intro t
    rw [Layout.fits_number_iff]
    constructor
    · rintro ⟨x, hread⟩
      obtain ⟨n, hn, -⟩ := map_eq_ok_iff.1 hread
      obtain ⟨rfl, hsize⟩ := asNat_eq_ok_iff.1 hn
      exact ⟨n, rfl, by omega, by omega⟩
    · rintro ⟨m, rfl, hsign, hsize⟩
      obtain ⟨n, rfl⟩ := Int.eq_ofNat_of_zero_le hsign
      exact ⟨ofNat n, map_eq_ok_iff.2 ⟨n, asNat_eq_ok_iff.2 ⟨rfl, by omega⟩, rfl⟩⟩
  · -- only the empty path leads to a number
    intro t x _ hread path hpath
    obtain ⟨n, hn, rfl⟩ := map_eq_ok_iff.1 hread
    obtain ⟨rfl, hsize⟩ := asNat_eq_ok_iff.1 hn
    cases path with
    | nil =>
      show some (Tree.int (toNat (ofNat n))) = some (Tree.int n)
      rw [hword hsize]
    | cons key path =>
      obtain ⟨slots, _, heq, -⟩ := Layout.hasValue_cons hpath
      cases heq

/-- A part that is read as its layout says makes a slot, if what has been read is found under the
key and nothing else is changed. -/
theorem slot_of_readBy {layout : Layout} {read : Tree → Except LoadError α} {view : α → Tree}
    {initial : Tree} (set : α → σ → σ) (h : layout.ReadBy read view initial)
    (hinitial : (entries defaults).lookup key = some initial)
    (hset : ∀ x s, Replaces key (view x) (entries s) (entries (set x s))) :
    Slot (fun s => .dict (entries s)) (.dict (entries defaults)) key layout
      fun v s => (read v).map fun x => set x s := by
  constructor
  · intro v s
    rw [← h.accepts v]
    constructor
    · rintro ⟨s', hput⟩
      obtain ⟨x, hread, -⟩ := map_eq_ok_iff.1 hput
      exact ⟨x, hread⟩
    · rintro ⟨x, hread⟩
      exact ⟨set x s, map_eq_ok_iff.2 ⟨x, hread, rfl⟩⟩
  · intro v s s' hv hput path hpath
    obtain ⟨x, hread, rfl⟩ := map_eq_ok_iff.1 hput
    show ((entries (set x s)).lookup key).bind (·.at? path) =
      (layout.given? v path).or (((entries defaults).lookup key).bind (·.at? path))
    rw [(hset x s).lookup, if_pos rfl, hinitial]
    exact h.at_path hv hread hpath
  · intro v s s' hput other hother path
    obtain ⟨x, -, rfl⟩ := map_eq_ok_iff.1 hput
    show ((entries (set x s)).lookup other).bind (·.at? path) =
      ((entries s).lookup other).bind (·.at? path)
    -- every other key is found where it was
    rw [(hset x s).lookup, if_neg hother]

/-- A text makes a slot. -/
theorem slot_text (set : String → σ → σ) (hinitial : ((entries defaults).lookup key).isSome)
    (hset : ∀ x s, Replaces key (.text x) (entries s) (entries (set x s))) :
    Slot (fun s => .dict (entries s)) (.dict (entries defaults)) key .text
      fun v s => v.asText.map fun x => set x s := by
  obtain ⟨initial, hinitial⟩ := Option.isSome_iff_exists.1 hinitial
  exact slot_of_readBy set (readBy_text initial) hinitial hset

/-- A word makes a slot. -/
theorem slot_word (set : α → σ → σ) {size : Nat} {ofNat : Nat → α} {toNat : α → Nat}
    (hword : ∀ {n}, n < size → toNat (ofNat n) = n)
    (hinitial : ((entries defaults).lookup key).isSome)
    (hset : ∀ x s, Replaces key (.int (toNat x)) (entries s) (entries (set x s))) :
    Slot (fun s => .dict (entries s)) (.dict (entries defaults)) key (.number size)
      fun v s => (v.asNat size).map fun n => set (ofNat n) s := by
  obtain ⟨initial, hinitial⟩ := Option.isSome_iff_exists.1 hinitial
  have hput : (fun (v : Tree) s => ((v.asNat size).map ofNat).map fun x => set x s) =
      fun v s => (v.asNat size).map fun n => set (ofNat n) s := by
    funext v s
    cases v.asNat size <;> rfl
  rw [← hput]
  exact slot_of_readBy set (readBy_number hword initial) hinitial hset

end Values

end Rollbook
