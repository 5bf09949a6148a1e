import Mathlib.Data.Option.Basic
import Rollbook.Proofs.Results
import Rollbook.Settings.Environment
import Rollbook.Settings.File

/-!
# Rollbook — ordered trees

A dictionary is a list of entries, and nothing in its type keeps a key from coming twice. What reads
a section takes the last entry under a key and what looks a key up takes the first, so both say the
same only of a dictionary that has every key once. All dictionaries that a layer of settings can
hold are so, at every depth: the readers of files and of variables place each entry by its key, and
so does the merge of layers.

* `Tree.Ordered`                — every dictionary has its keys in order.
* `Tree.Ordered.merge`          — merged layers stay ordered.
* `FileLayer.ordered_ofContent` — what a file holds is ordered.
* `Environment.ordered_settings?` — what the variables denote is ordered.
* `Tree.lookup_mergeEntries`    — the view of merged dictionaries, key by key.
-/

namespace Rollbook

namespace Tree

/-- The entries of every dictionary in the tree are in the order of their keys. -/
inductive Ordered : Tree → Prop
  | null : Ordered .null
  | bool (b : Bool) : Ordered (.bool b)
  | int (n : Int) : Ordered (.int n)
  | float (literal : String) : Ordered (.float literal)
  | text (s : String) : Ordered (.text s)
  | list {items : List Tree} (h : ∀ t ∈ items, Ordered t) : Ordered (.list items)
  | dict {es : List (String × Tree)} (hkeys : Entries.Ordered es)
    (hvalues : ∀ e ∈ es, Ordered e.2) : Ordered (.dict es)

variable {es fs : List (String × Tree)} {t e f : Tree} {key : String}

/-- The names of a mapping with ordered keys are themselves in order. -/
theorem Ordered.keys (h : (Tree.dict es).Ordered) : Entries.Ordered es := by
  cases h with
  | dict hkeys _ => exact hkeys

/-- What stands under a key of a mapping with ordered keys has ordered keys too, at any depth. -/
theorem Ordered.of_mem (h : (Tree.dict es).Ordered) {x : String × Tree} (hx : x ∈ es) :
    x.2.Ordered := by
  cases h with
  | dict _ hvalues => exact hvalues x hx

theorem Ordered.of_mem_list {items : List Tree} (h : (Tree.list items).Ordered) (ht : t ∈ items) :
    t.Ordered := by
  cases h with
  | list hitems => exact hitems t ht

/-- The tree that the layers are laid on, before the first of them. -/
theorem ordered_empty : (Tree.dict []).Ordered :=
  .dict List.Pairwise.nil fun _ hx => absurd hx List.not_mem_nil

-- ---------------------------------------------------------------------------
-- Building dictionaries
-- ---------------------------------------------------------------------------

/-- Placing a tree under a key keeps the keys in order, whether the key was there or not. -/
theorem Ordered.place (h : (Tree.dict es).Ordered) (ht : t.Ordered) :
    (Tree.dict (Entries.place key t es)).Ordered := by
  refine .dict (Entries.ordered_place h.keys) fun x hx => ?_
  rcases Entries.mem_place hx with hx | hx
  · exact hx ▸ ht
  · exact h.of_mem hx

/-- A mapping that is read entry by entry has ordered keys, in whatever order its keys were written
and however often each of them was. -/
theorem ordered_ofEntries (h : ∀ x ∈ es, x.2.Ordered) : (ofEntries es).Ordered := by
  -- the entries are placed one after another, so the accumulator is what the induction carries
  suffices hfold : ∀ acc, (Tree.dict acc).Ordered →
      (Tree.dict (es.foldl (fun acc x => Entries.place x.1 x.2 acc) acc)).Ordered from
    hfold [] ordered_empty
  induction es with
  | nil => exact fun acc hacc => hacc
  | cons x rest ih =>
    intro acc hacc
    exact ih (fun y hy => h y (List.mem_cons_of_mem _ hy)) _
      (hacc.place (h x List.mem_cons_self))

/-- The mapping that a dotted path makes of a value, one key to a level. -/
theorem ordered_nest (path : List String) (h : t.Ordered) : (nest path t).Ordered := by
  induction path with
  | nil => exact h
  | cons key rest ih =>
    refine .dict (List.pairwise_singleton _ _) fun x hx => ?_
    rw [List.mem_singleton.1 hx]
    exact ih

-- ---------------------------------------------------------------------------
-- Merging
-- ---------------------------------------------------------------------------

/-- One value over another, where either may be missing. -/
def stacked : (lower upper : Option Tree) → Option Tree
  | some lower, some upper => some (lower.merge upper)
  | lower, upper => upper.or lower

@[simp] theorem stacked_none_left (upper : Option Tree) : stacked none upper = upper := by
  cases upper <;> rfl

@[simp] theorem stacked_none_right (lower : Option Tree) : stacked lower none = lower := by
  cases lower <;> rfl

/-- A merged dictionary starts from the value that the first key has in both. -/
theorem mergeEntries_cons (key : String) (value : Tree) (rest : List (String × Tree)) :
    ∃ merged, stacked (fs.lookup key) (some value) = some merged ∧
      mergeEntries fs ((key, value) :: rest) =
        mergeEntries (Entries.place key merged fs) rest := by
  cases hold : fs.lookup key with
  | none => exact ⟨value, rfl, by rw [mergeEntries, hold]⟩
  | some old => exact ⟨old.merge value, rfl, by rw [mergeEntries, hold]⟩

/-- **Dictionaries are merged key by key.** -/
theorem lookup_mergeEntries (hes : Entries.Ordered es) (key : String) :
    (mergeEntries fs es).lookup key = stacked (fs.lookup key) (es.lookup key) := by
  induction es generalizing fs with
  | nil =>
    unfold mergeEntries
    rw [List.lookup_nil, stacked_none_right]
  | cons x rest ih =>
    obtain ⟨hhead, hrest⟩ := List.pairwise_cons.1 hes
    obtain ⟨name, value⟩ := x
    obtain ⟨merged, hmerged, hcons⟩ := @mergeEntries_cons fs name value rest
    rw [hcons, ih hrest, Entries.lookup_place, List.lookup_cons]
    by_cases hkey : key = name
    · -- the key does not come again, so its entry stays as it has been placed
      subst hkey
      rw [if_pos rfl, Entries.lookup_eq_none hhead, stacked_none_right, beq_self_eq_true]
      exact hmerged.symm
    · rw [if_neg hkey, beq_eq_false_iff_ne.2 hkey]

/-- Only mappings are merged: anything else above replaces what is below as a whole. -/
theorem merge_of_not_dict (h : ∀ es, e ≠ .dict es) : f.merge e = e := by
  cases e with
  | dict es => exact absurd rfl (h es)
  | _ => rfl

/-- One mapping laid over another, given that the values above have ordered keys and keep them when
they are laid over something themselves. -/
theorem ordered_mergeEntries (hfs : (Tree.dict fs).Ordered)
    (hes : ∀ x ∈ es, x.2.Ordered ∧ ∀ f : Tree, f.Ordered → (f.merge x.2).Ordered) :
    (Tree.dict (mergeEntries fs es)).Ordered := by
  induction es generalizing fs with
  | nil =>
    unfold mergeEntries
    exact hfs
  | cons x rest ih =>
    obtain ⟨name, value⟩ := x
    obtain ⟨hvalue, hmerge⟩ := hes (name, value) List.mem_cons_self
    obtain ⟨merged, hmerged, hcons⟩ := @mergeEntries_cons fs name value rest
    rw [hcons]
    refine ih (hfs.place ?_) fun y hy => hes y (List.mem_cons_of_mem _ hy)
    -- a new key brings its own value, and an old one the merge with what it had
    cases hold : fs.lookup name with
    | none =>
      rw [hold, stacked_none_left] at hmerged
      exact Option.some.inj hmerged ▸ hvalue
    | some old =>
      rw [hold] at hmerged
      have hmem := (Entries.lookup_eq_some_iff hfs.keys).1 hold
      exact Option.some.inj hmerged ▸ hmerge old (hfs.of_mem hmem)

/-- Laying one tree over another keeps the keys in order. The induction is on the upper tree, since
the merge descends only where both have a mapping. -/
theorem Ordered.merge (hf : f.Ordered) (he : e.Ordered) : (f.merge e).Ordered := by
  induction he generalizing f with
  | @dict es hkeys hvalues ih =>
    cases f with
    | dict fs =>
      show (Tree.dict (mergeEntries fs es)).Ordered
      exact ordered_mergeEntries hf fun x hx => ⟨hvalues x hx, fun f hf => ih x hx hf⟩
    | _ => exact .dict hkeys hvalues
  | list h => exact .list h
  | null => exact .null
  | bool b => exact .bool b
  | int n => exact .int n
  | float literal => exact .float literal
  | text s => exact .text s

/-- Nothing is below an empty dictionary. -/
theorem empty_merge (h : t.Ordered) : (Tree.dict []).merge t = t := by
  cases t with
  | dict es =>
    show Tree.dict (mergeEntries [] es) = Tree.dict es
    have hmerged := ordered_mergeEntries ordered_empty
      fun x (hx : x ∈ es) => ⟨h.of_mem hx, fun f hf => hf.merge (h.of_mem hx)⟩
    refine congrArg Tree.dict (Entries.eq_of_lookup hmerged.keys h.keys fun key => ?_)
    rw [lookup_mergeEntries h.keys, List.lookup_nil, stacked_none_left]
  | _ => rfl

end Tree

-- ---------------------------------------------------------------------------
-- Values of variables
-- ---------------------------------------------------------------------------

namespace Inline

/-- What the readers give is ordered as long as values nest no deeper than `fuel`. -/
structure ReadsOrdered (fuel : Nat) : Prop where
  value : ∀ cs, Gives (fun p => p.1.Ordered) (readValue fuel cs)
  items : ∀ cs, Gives (fun p => ∀ t ∈ p.1, t.Ordered) (readItems fuel cs)
  entries : ∀ cs, Gives (fun p => ∀ x ∈ p.1, x.2.Ordered) (readEntries fuel cs)

variable {fuel : Nat}

theorem ordered_scalar (cs : List Char) : (scalar cs).Ordered := by
  unfold scalar
  split
  · exact .float _
  · split
    · exact .int _
    · exact .text _

/-- One level deeper, a value has ordered keys: a mapping is built entry by entry, and all else
holds values of the level below or none at all. -/
theorem ReadsOrdered.succ_value (h : ReadsOrdered fuel) (cs : List Char) :
    Gives (fun p => p.1.Ordered) (readValue (fuel + 1) cs) := by
  -- every branch ends by skipping the gap behind the value, which leaves the value as it is
  have hgap : ∀ r : Except Fault (Tree × List Char), Gives (fun p => p.1.Ordered) r →
      Gives (fun p => p.1.Ordered) (r >>= fun p => pure (p.1, skipGap p.2)) :=
    fun r hr => hr.bind fun p hp => .ok hp
  -- booleans, the two ways to quote, a mapping, a list, and scalars without quotes
  unfold readValue
  dsimp only
  split
  · exact hgap _ (.ok (.bool true))
  · exact hgap _ (.ok (.bool false))
  · exact hgap _ (Gives.any.map fun p _ => .text _)
  · exact hgap _ (Gives.any.map fun p _ => .text _)
  · exact hgap _ ((h.entries _).map fun p hp => Tree.ordered_ofEntries hp)
  · exact hgap _ ((h.items _).map fun p hp => .list hp)
  · exact hgap _ (.ok (ordered_scalar _))

theorem ReadsOrdered.succ_items (h : ReadsOrdered fuel) (cs : List Char) :
    Gives (fun p => ∀ t ∈ p.1, t.Ordered) (readItems (fuel + 1) cs) := by
  unfold readItems
  split
  · exact .error
  · exact .ok fun t ht => absurd ht List.not_mem_nil
  · next heq _ =>
    -- an item and the items behind it are both read with the fuel that is left
    obtain rfl := Nat.succ.inj heq
    refine (h.value _).bind fun p hp => ?_
    dsimp only
    split
    · exact (h.items _).map fun q hq => List.forall_mem_cons.2 ⟨hp, hq⟩
    · exact .ok (List.forall_mem_singleton.2 hp)
    · exact .error

/-- One level deeper, the values of a mapping have ordered keys. The order of the mapping's own keys
is not of interest yet, because it is put right when the mapping is built. -/
theorem ReadsOrdered.succ_entries (h : ReadsOrdered fuel) (cs : List Char) :
    Gives (fun p => ∀ x ∈ p.1, x.2.Ordered) (readEntries (fuel + 1) cs) := by
  unfold readEntries
  split
  · exact .error
  · exact .ok fun x hx => absurd hx List.not_mem_nil
  · next heq _ =>
    obtain rfl := Nat.succ.inj heq
    dsimp only
    -- a key is written in three ways, and what stands behind it is read in the same way
    split
    on_goal 2 => split
    all_goals
      refine Gives.any.bind fun p _ => ?_
      split
      · refine (h.value _).bind fun v hv => ?_
        split
        · exact (h.entries _).map fun q hq => List.forall_mem_cons.2 ⟨hv, hq⟩
        · exact .ok (List.forall_mem_singleton.2 hv)
        · exact .error
      · exact .error

/-- Whatever the fuel, what is read has ordered keys; without fuel nothing is read. -/
theorem readsOrdered (fuel : Nat) : ReadsOrdered fuel := by
  induction fuel with
  | zero =>
    refine ⟨fun cs => ?_, fun cs => ?_, fun cs => ?_⟩
    · unfold readValue
      exact .error
    · unfold readItems
      exact .error
    · unfold readEntries
      exact .error
  | succ fuel ih => exact ⟨ih.succ_value, ih.succ_items, ih.succ_entries⟩

/-- The text of a variable gives a tree with ordered keys, also where it is taken as it is because
it is nothing else. -/
theorem ordered_read? {s : String} {t : Tree} (h : read? s = some t) : t.Ordered := by
  unfold read? at h
  split at h
  · next tree hread =>
    obtain rfl := Option.some.inj h
    exact (readsOrdered _).value _ _ hread
  · cases h
  · -- what cannot be read as anything else is a text
    obtain rfl := Option.some.inj h
    exact .text s

end Inline

-- ---------------------------------------------------------------------------
-- Values of files
-- ---------------------------------------------------------------------------

namespace Document

/-- What the readers give is ordered as long as values nest no deeper than `fuel`. -/
structure ReadsOrdered (lines : Lines) (fuel : Nat) : Prop where
  value : ∀ cs, ∀ p ∈ readValue lines fuel cs, p.1.Ordered
  items : ∀ cs, ∀ p ∈ readItems lines fuel cs, ∀ t ∈ p.1, t.Ordered
  members : ∀ cs, ∀ p ∈ readMembers lines fuel cs, ∀ x ∈ p.1, x.2.Ordered

variable {lines : Lines} {fuel : Nat}

theorem ordered_number? (cs : List Char) : ∀ t ∈ number? cs, t.Ordered := by
  intro t ht
  unfold number? at ht
  dsimp only at ht
  split at ht
  · cases ht
  · -- with a minus sign and without
    split at ht
    all_goals
      split at ht
      · obtain rfl := Option.some.inj ht
        exact .int _
      · split at ht
        · obtain rfl := Option.some.inj ht
          exact .float _
        · cases ht

/-- One level deeper, a value in the file has ordered keys. -/
theorem ReadsOrdered.succ_value (h : ReadsOrdered lines fuel) (cs : List Char) :
    ∀ p ∈ readValue lines (fuel + 1) cs, p.1.Ordered := by
  -- a quoted text, a mapping, a list, the three words, and numbers
  unfold readValue
  split
  · exact Option.forall_mem_map.2 fun p _ => .text _
  · split
    · exact fun p hp => Option.some.inj hp ▸ Tree.ordered_empty
    · exact Option.forall_mem_map.2 fun p hp => Tree.ordered_ofEntries (h.members _ p hp)
  · split
    · exact fun p hp => Option.some.inj hp ▸ .list fun t ht => absurd ht List.not_mem_nil
    · exact Option.forall_mem_map.2 fun p hp => .list (h.items _ p hp)
  · exact fun p hp => Option.some.inj hp ▸ .bool true
  · exact fun p hp => Option.some.inj hp ▸ .bool false
  · exact fun p hp => Option.some.inj hp ▸ .null
  · exact Option.forall_mem_map.2 fun t ht => ordered_number? _ t ht

theorem ReadsOrdered.succ_items (h : ReadsOrdered lines fuel) (cs : List Char) :
    ∀ p ∈ readItems lines (fuel + 1) cs, ∀ t ∈ p.1, t.Ordered := by
  intro p hp
  unfold readItems at hp
  obtain ⟨⟨item, rest⟩, hitem, hp⟩ := Option.bind_eq_some_iff.1 hp
  have hordered : item.Ordered := h.value cs _ hitem
  dsimp only at hp
  split at hp
  · obtain ⟨q, hq, rfl⟩ := Option.map_eq_some_iff.1 hp
    exact List.forall_mem_cons.2 ⟨hordered, h.items _ q hq⟩
  · obtain rfl := Option.some.inj hp
    exact List.forall_mem_singleton.2 hordered
  · cases hp

/-- One level deeper, the members of a mapping in the file have ordered keys, in whatever order they
stand there. -/
theorem ReadsOrdered.succ_members (h : ReadsOrdered lines fuel) (cs : List Char) :
    ∀ p ∈ readMembers lines (fuel + 1) cs, ∀ x ∈ p.1, x.2.Ordered := by
  intro p hp
  unfold readMembers at hp
  split at hp
  · obtain ⟨⟨key, rest⟩, -, hp⟩ := Option.bind_eq_some_iff.1 hp
    dsimp only at hp
    split at hp
    · -- behind the value comes another member, the end of the mapping, or something else, which
      -- fails
      obtain ⟨⟨value, rest⟩, hvalue, hp⟩ := Option.bind_eq_some_iff.1 hp
      have hordered : value.Ordered := h.value _ _ hvalue
      dsimp only at hp
      split at hp
      · obtain ⟨q, hq, rfl⟩ := Option.map_eq_some_iff.1 hp
        exact List.forall_mem_cons.2 ⟨hordered, h.members _ q hq⟩
      · obtain rfl := Option.some.inj hp
        exact List.forall_mem_singleton.2 hordered
      · cases hp
    · cases hp
  · cases hp

/-- Whatever the fuel and wherever the lines end, what is read of the file has ordered keys. -/
theorem readsOrdered (lines : Lines) (fuel : Nat) : ReadsOrdered lines fuel := by
  induction fuel with
  | zero =>
    refine ⟨fun cs p hp => ?_, fun cs p hp => ?_, fun cs p hp => ?_⟩
    · unfold readValue at hp
      cases hp
    · unfold readItems at hp
      cases hp
    · unfold readMembers at hp
      cases hp
  | succ fuel ih => exact ⟨ih.succ_value, ih.succ_items, ih.succ_members⟩

/-- The file gives a tree with ordered keys, if it can be read at all. -/
theorem ordered_readConfig? {s : String} {t : Tree} (h : readConfig? s = some t) :
    t.Ordered := by
  unfold readConfig? readAll? at h
  split at h
  · split at h
    · next tree rest hread =>
      -- nothing may be left behind the value
      split at h
      · obtain rfl := Option.some.inj h
        exact (readsOrdered _ _).value _ _ hread
      · cases h
    · cases h
  · cases h

end Document

-- ---------------------------------------------------------------------------
-- Layers
-- ---------------------------------------------------------------------------

/-- The tree of a layer: an empty dictionary if there is no file, and none if the file holds no
dictionary. -/
def FileLayer.tree? : FileLayer → Option Tree
  | absent => some (.dict [])
  | dict entries => some (.dict entries)
  | unusable => none

/-- **What a file holds is ordered.** -/
theorem FileLayer.ordered_ofContent {content : FileContent} {t : Tree}
    (h : (ofContent content).tree? = some t) : t.Ordered := by
  cases content with
  | missing =>
    obtain rfl := Option.some.inj h
    exact Tree.ordered_empty
  | bytes content =>
    simp only [ofContent] at h
    split at h
    · next tree hread =>
      obtain ⟨s, -, hs⟩ := Option.bind_eq_some_iff.1 hread
      cases tree with
      -- only a mapping is taken from a file
      | dict es =>
        obtain rfl := Option.some.inj h
        exact Document.ordered_readConfig? hs
      | _ => cases h
    · cases h

namespace Environment

variable {env : Environment} {tree t : Tree}

/-- The tree with the settings of the variables over it, one after the other. -/
def layOver? (tree : Tree) (env : Environment) : Option Tree :=
  env.foldlM
    (fun tree p =>
      match path? p.1 with
      | some path => (Inline.read? p.2).map fun value => tree.merge (.nest path value)
      | none => some tree)
    tree

/-- The settings of the environment are its variables laid over nothing. -/
theorem settings?_eq (env : Environment) : env.settings? = env.layOver? (.dict []) := rfl

theorem layOver?_nil (tree : Tree) : layOver? tree [] = some tree := rfl

/-- The first variable is laid over the tree before the others; one whose name gives no path is
passed by, and one that cannot be read fails the whole. -/
theorem layOver?_cons (tree : Tree) (name text : String) (rest : Environment) :
    layOver? tree ((name, text) :: rest) =
      match path? name with
      | some path =>
        (Inline.read? text).bind fun value => layOver? (tree.merge (.nest path value)) rest
      | none => layOver? tree rest := by
  unfold layOver?
  rw [List.foldlM_cons]
  cases path? name with
  | none => rfl
  | some path => cases Inline.read? text <;> rfl

/-- Variables laid over a tree with ordered keys leave one. The induction is on the variables, with
the tree they are laid over arbitrary. -/
theorem ordered_layOver? (htree : tree.Ordered) (h : env.layOver? tree = some t) : t.Ordered := by
  induction env generalizing tree with
  | nil => exact Option.some.inj h ▸ htree
  | cons p rest ih =>
    obtain ⟨name, text⟩ := p
    rw [layOver?_cons] at h
    split at h
    · next path _ =>
      obtain ⟨value, hvalue, h⟩ := Option.bind_eq_some_iff.1 h
      exact ih (htree.merge (Tree.ordered_nest path (Inline.ordered_read? hvalue))) h
    · exact ih htree h

/-- **What the variables denote is ordered.** -/
theorem ordered_settings? (h : env.settings? = some t) : t.Ordered :=
  ordered_layOver? Tree.ordered_empty h

end Environment

end Rollbook
