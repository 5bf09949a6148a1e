import Mathlib
import Rollbook.Proofs.Layout

/-!
# Rollbook — the layers of the settings

Every setting is what the environment says of it, or else what the file says, or else the default,
whatever the layers say of other settings. The merge of the layers works on dictionaries alone, and
a section may also be given as a list: so where one layer has a list for a section that the other
gives too, nothing is merged, and what the file says there is set aside. Short of that, whichever
layer has a key that its section does not know, nothing is loaded.

* `Tree.setAside`        — what the lower layer says and the merge drops.
* `Layout.given?_merge`  — the value at a path of merged layers, by the values in the layers.
* `not_fits_of_unknown`  — unknown keys of either layer keep the merged layers from being read.
* `Settings.readBy`      — all settings are read as their layout says.
* `load_layers`          — the layering of the settings.
* `load_of_listless`     — the same for layers without lists, in terms of keys alone.
-/

namespace Rollbook

-- ---------------------------------------------------------------------------
-- Layers at a path
-- ---------------------------------------------------------------------------

/-- Whether the merge drops what the lower layer has at a path: on the way there both layers give a
section, and one of them gives it as a list. -/
def Tree.setAside : (lower upper : Tree) → List String → Bool
  | .dict fs, .dict es, key :: rest =>
    match fs.lookup key, es.lookup key with
    | some f, some e => f.setAside e rest
    | _, _ => false
  | .list _, _, _ :: _ => true
  | _, .list _, _ :: _ => true
  | _, _, _ => false

namespace Layout

variable {layout : Layout} {f e t : Tree} {path front : List String} {key : String}

/-- The tree has a section at the place `front`, and there a key that is none of the section. -/
def Unknown (layout : Layout) (t : Tree) (front : List String) (key : String) : Prop :=
  ∃ slots es, layout.at? front = some (.keyed slots) ∧ key ∉ slots.map Prod.fst ∧
    layout.given? t front = some (.dict es) ∧ key ∈ es.map Prod.fst

/-- A tree that fits and is a section is a dictionary or a list. -/
theorem Fits.cases_keyed {slots : List (String × Layout)} (h : (Layout.keyed slots).Fits t) :
    (∃ es, t = .dict es) ∨ ∃ items, t = .list items := by
  obtain ⟨es, hentries, -⟩ := fits_keyed_iff.1 h
  cases t with
  | dict es => exact .inl ⟨es, rfl⟩
  | list items => exact .inr ⟨items, rfl⟩
  | _ => cases hentries

/-- What fits has under every key of its sections something that fits. -/
theorem Fits.of_lookup {slots : List (String × Layout)} {next : Layout} {v : Tree}
    (h : (Layout.keyed slots).Fits t) (hnext : slots.lookup key = some next)
    (hv : (t.entries? (slots.map Prod.fst)).bind (·.lookup key) = some v) : next.Fits v := by
  obtain ⟨es, hes, hv⟩ := Option.bind_eq_some_iff.1 hv
  obtain ⟨_, heq, -, hvalues⟩ := fits_keyed_iff.1 h
  obtain rfl := Option.some.inj (hes.symm.trans heq)
  exact hvalues (key, v) (mem_of_lookup hv) next hnext

/-- What fits as the merge of two dictionaries has under every key a fitting merge of their
values. -/
theorem Fits.of_stacked {slots : List (String × Layout)} {next : Layout} {v : Tree}
    {fs es : List (String × Tree)} (h : (Layout.keyed slots).Fits (.merge (.dict fs) (.dict es)))
    (hes : Entries.Ordered es) (hnext : slots.lookup key = some next)
    (hv : Tree.stacked (fs.lookup key) (es.lookup key) = some v) : next.Fits v :=
  h.of_lookup hnext ((Tree.lookup_mergeEntries hes key).trans hv)

/-- No value is merged: of two values the upper one holds. -/
theorem merge_of_isValue (hvalue : layout.IsValue) (h : layout.Fits (f.merge e)) :
    f.merge e = e := by
  refine Tree.merge_of_not_dict fun es he => ?_
  subst he
  cases f <;> cases h <;> exact hvalue

/-- **The value at a path of merged layers** is the one of the upper layer, or else the one of the
lower layer, unless that is set aside. -/
theorem given?_merge (he : e.Ordered) (h : layout.Fits (f.merge e)) (hpath : layout.HasValue path) :
    layout.given? (f.merge e) path = (layout.given? e path).or
      (if f.setAside e path then none else layout.given? f path) := by
  induction path generalizing layout f e with
  | nil =>
    rw [merge_of_isValue (hasValue_nil hpath) h]
    unfold given?
    rfl
  | cons key rest ih =>
    obtain ⟨slots, next, rfl, hnext, hrest⟩ := hasValue_cons hpath
    rw [given?_keyed hnext, given?_keyed hnext, given?_keyed hnext]
    -- whatever is the upper layer's own is not touched by what is below it
    have hupper : ∀ v : Option Tree, v = v.or none := fun v => Option.or_none.symm
    cases e with
    | dict es =>
      cases f with
      | dict fs =>
        -- only where both layers have a mapping and the key does the merge go on below
        show ((Tree.mergeEntries fs es).lookup key).bind _ = ((es.lookup key).bind _).or
          (if Tree.setAside (.dict fs) (.dict es) (key :: rest) then none
            else (fs.lookup key).bind _)
        rw [Tree.lookup_mergeEntries he.keys, Tree.setAside]
        cases hf : fs.lookup key with
        | none =>
          cases hes : es.lookup key with
          | none => rfl
          | some v => exact hupper _
        | some u =>
          cases hes : es.lookup key with
          | none => rfl
          | some v =>
            have hmerged : next.Fits (u.merge v) :=
              h.of_stacked he.keys hnext (by rw [hf, hes]; rfl)
            exact ih (he.of_mem (mem_of_lookup hes)) hmerged hrest
      | _ => exact hupper _
    | list items => cases f <;> exact hupper _
    | _ =>
      -- a section fits a mapping or a list, so nothing else can be on top
      rcases h.cases_keyed with ⟨es, heq⟩ | ⟨items, heq⟩
      all_goals cases f <;> cases heq

-- ---------------------------------------------------------------------------
-- Unknown keys
-- ---------------------------------------------------------------------------

/-- An unknown key at the top is one of the mapping itself. A list has no keys, so none of its items
is unknown in this sense. -/
theorem unknown_nil_iff : layout.Unknown t [] key ↔
    ∃ slots es, layout = .keyed slots ∧ key ∉ slots.map Prod.fst ∧ t = .dict es ∧
      key ∈ es.map Prod.fst := by
  unfold Unknown at? given?
  simp only [Option.some.injEq]

/-- An unknown key farther down is unknown to the section that the first key leads to. -/
theorem unknown_cons {name : String} (h : layout.Unknown t (name :: front) key) :
    ∃ slots next v, layout = .keyed slots ∧ slots.lookup name = some next ∧
      (t.entries? (slots.map Prod.fst)).bind (·.lookup name) = some v ∧
      next.Unknown v front key := by
  obtain ⟨inner, es, hlayout, hstrange, ht, hkey⟩ := h
  cases layout with
  | keyed slots =>
    obtain ⟨next, hnext, hlayout⟩ := Option.bind_eq_some_iff.1 hlayout
    rw [given?_keyed hnext] at ht
    obtain ⟨v, hv, ht⟩ := Option.bind_eq_some_iff.1 ht
    exact ⟨slots, next, v, rfl, hnext, hv, inner, es, hlayout, hstrange, ht, hkey⟩
  | _ => cases hlayout

/-- An unknown key, however deep, makes a tree unfit. The induction is on the path that leads to the
section of the key. -/
theorem not_fits_of_unknown (h : layout.Unknown t front key) : ¬layout.Fits t := by
  intro hfits
  induction front generalizing layout t with
  | nil =>
    obtain ⟨slots, es, rfl, hstrange, rfl, hkey⟩ := unknown_nil_iff.1 h
    obtain ⟨_, heq, hknown, -⟩ := fits_keyed_iff.1 hfits
    obtain rfl := Option.some.inj heq
    obtain ⟨x, hx, rfl⟩ := List.mem_map.1 hkey
    exact hstrange (hknown x hx)
  | cons name rest ih =>
    obtain ⟨slots, next, v, rfl, hnext, hv, hrest⟩ := unknown_cons h
    exact ih hrest (hfits.of_lookup hnext hv)

/-- Merged dictionaries have the keys of both. -/
theorem mem_keys_mergeEntries (fs : List (String × Tree)) {es : List (String × Tree)}
    (hes : Entries.Ordered es) :
    key ∈ (Tree.mergeEntries fs es).map Prod.fst ↔
      key ∈ fs.map Prod.fst ∨ key ∈ es.map Prod.fst := by
  rw [← not_iff_not, not_or, ← lookup_eq_none_iff, ← lookup_eq_none_iff, ← lookup_eq_none_iff,
    Tree.lookup_mergeEntries hes]
  cases fs.lookup key <;> cases es.lookup key <;> simp [Tree.stacked]

/-- **An unknown key of the upper layer** is there when the layers are merged. -/
theorem not_fits_merge_of_unknown_upper (he : e.Ordered) (h : layout.Unknown e front key) :
    ¬layout.Fits (f.merge e) := by
  intro hfits
  induction front generalizing layout f e with
  | nil =>
    obtain ⟨slots, es, rfl, hstrange, rfl, hkey⟩ := unknown_nil_iff.1 h
    cases f with
    | dict fs =>
      -- the keys of merged mappings are those of both
      have hmerged := (mem_keys_mergeEntries fs he.keys).2 (.inr hkey)
      exact not_fits_of_unknown (unknown_nil_iff.2 ⟨slots, _, rfl, hstrange, rfl, hmerged⟩) hfits
    | _ => exact not_fits_of_unknown h hfits
  | cons name rest ih =>
    obtain ⟨slots, next, v, rfl, hnext, hv, hrest⟩ := unknown_cons h
    cases e with
    | dict es =>
      cases f with
      | dict fs =>
        have hes : es.lookup name = some v := hv
        cases hf : fs.lookup name with
        -- below a key that is the upper layer's alone, the merge has the upper layer
        | none =>
          have hupper : next.Fits v := hfits.of_stacked he.keys hnext (by rw [hf, hes]; rfl)
          exact not_fits_of_unknown hrest hupper
        | some u =>
          have hmerged : next.Fits (u.merge v) :=
            hfits.of_stacked he.keys hnext (by rw [hf, hes]; rfl)
          exact ih (he.of_mem (mem_of_lookup hes)) hrest hmerged
      | _ => exact not_fits_of_unknown h hfits
    | list items => exact not_fits_of_unknown h (by cases f <;> exact hfits)
    | _ => cases hv

/-- **An unknown key of the lower layer** is there too, unless it is set aside. -/
theorem not_fits_merge_of_unknown_lower (he : e.Ordered) (h : layout.Unknown f front key)
    (hkept : f.setAside e (front ++ [key]) = false) : ¬layout.Fits (f.merge e) := by
  intro hfits
  induction front generalizing layout f e with
  | nil =>
    obtain ⟨slots, fs, rfl, hstrange, rfl, hkey⟩ := unknown_nil_iff.1 h
    cases e with
    | dict es =>
      have hmerged := (mem_keys_mergeEntries fs he.keys).2 (.inl hkey)
      exact not_fits_of_unknown (unknown_nil_iff.2 ⟨slots, _, rfl, hstrange, rfl, hmerged⟩) hfits
    -- a list in the upper layer sets the lower one aside
    | list items => cases hkept
    | _ => rcases hfits.cases_keyed with ⟨es, heq⟩ | ⟨items, heq⟩ <;> cases heq
  | cons name rest ih =>
    obtain ⟨slots, next, u, rfl, hnext, hu, hrest⟩ := unknown_cons h
    cases f with
    | dict fs =>
      cases e with
      | dict es =>
        have hf : fs.lookup name = some u := hu
        cases hes : es.lookup name with
        | none =>
          have hlower : next.Fits u := hfits.of_stacked he.keys hnext (by rw [hf, hes]; rfl)
          exact not_fits_of_unknown hrest hlower
        | some v =>
          have hmerged : next.Fits (u.merge v) :=
            hfits.of_stacked he.keys hnext (by rw [hf, hes]; rfl)
          rw [List.cons_append, Tree.setAside, hf, hes] at hkept
          exact ih (he.of_mem (mem_of_lookup hes)) hrest hkept hmerged
      | list items => cases hkept
      | _ => rcases hfits.cases_keyed with ⟨es, heq⟩ | ⟨items, heq⟩ <;> cases heq
    | list items => cases hkept
    | _ => cases hu

end Layout

-- ---------------------------------------------------------------------------
-- Layers without lists
-- ---------------------------------------------------------------------------

/-- No value that keys lead to is a list. -/
def Tree.Listless (t : Tree) : Prop := ∀ path items, t.at? path ≠ some (.list items)

section Listless

variable {layout place : Layout} {slots : List (String × Layout)} {f e t v : Tree}
  {es : List (String × Tree)} {path front : List String} {key : String}

theorem Tree.Listless.of_lookup (h : (Tree.dict es).Listless) (hv : es.lookup key = some v) :
    v.Listless := by
  intro path items hlist
  refine h (key :: path) items ?_
  show (es.lookup key).bind (·.at? path) = some (.list items)
  rw [hv]
  exact hlist

/-- Without lists the merge drops nothing. -/
theorem Tree.Listless.setAside_eq_false (hf : f.Listless) (he : e.Listless)
    (path : List String) : f.setAside e path = false := by
  induction path generalizing f e with
  | nil => cases f <;> cases e <;> rfl
  | cons key rest ih =>
    cases e with
    | list items => exact absurd rfl (he [] items)
    | dict es =>
      cases f with
      | list items => exact absurd rfl (hf [] items)
      | dict fs =>
        unfold Tree.setAside
        cases hu : fs.lookup key with
        | none => rfl
        | some u =>
          cases hv : es.lookup key with
          | none => rfl
          -- both go on below the key, without lists
          | some v => exact ih (hf.of_lookup hu) (he.of_lookup hv)
      | _ => rfl
    | _ =>
      cases f with
      | list items => exact absurd rfl (hf [] items)
      | _ => rfl

/-- Without lists the value at a path is the one that the keys lead to. -/
theorem Layout.given?_eq_at? (h : t.Listless) (hplace : layout.at? path = some place) :
    layout.given? t path = t.at? path := by
  induction path generalizing layout t with
  | nil => cases t <;> rfl
  | cons key rest ih =>
    cases layout with
    | keyed slots =>
      obtain ⟨next, hnext, hplace⟩ := Option.bind_eq_some_iff.1 hplace
      rw [given?_keyed hnext]
      cases t with
      | list items => exact absurd rfl (h [] items)
      | dict es =>
        show (es.lookup key).bind _ = (es.lookup key).bind _
        cases hv : es.lookup key with
        | none => rfl
        | some v => exact ih (h.of_lookup hv) hplace
      | _ => rfl
    | _ => cases hplace

/-- Where a path ends in something, its last key is one of the mapping in front. -/
theorem Tree.exists_dict_of_at? (h : (t.at? (front ++ [key])).isSome) :
    ∃ es, t.at? front = some (.dict es) ∧ key ∈ es.map Prod.fst := by
  induction front generalizing t with
  | nil =>
    cases t with
    | dict es =>
      refine ⟨es, rfl, ?_⟩
      -- a key that is missing would end in nothing
      by_contra hmissing
      have hnone : ((es.lookup key).bind fun v => v.at? []).isSome = true := h
      rw [lookup_eq_none_iff.2 hmissing] at hnone
      cases hnone
    | _ => cases h
  | cons name rest ih =>
    cases t with
    | dict es =>
      have hsome : ((es.lookup name).bind fun v => v.at? (rest ++ [key])).isSome = true := h
      show ∃ es', (es.lookup name).bind (·.at? rest) = some (.dict es') ∧ _
      cases hv : es.lookup name with
      | none =>
        rw [hv] at hsome
        cases hsome
      | some v =>
        rw [hv] at hsome
        exact ih hsome
    | _ => cases h

/-- Without lists a key that its section does not have is unknown wherever something stands under
it. -/
theorem Layout.unknown_of_at? (h : t.Listless) (hplace : layout.at? front = some (.keyed slots))
    (hkey : key ∉ slots.map Prod.fst) (hgiven : (t.at? (front ++ [key])).isSome) :
    layout.Unknown t front key := by
  obtain ⟨es, hes, hmem⟩ := Tree.exists_dict_of_at? hgiven
  exact ⟨slots, es, hplace, hkey, (given?_eq_at? h hplace).trans hes, hmem⟩

end Listless

-- ---------------------------------------------------------------------------
-- The settings
-- ---------------------------------------------------------------------------

namespace PoolSettings

def layout : Layout :=
  .keyed [("max_connections", .number UInt32.size), ("min_connections", .number UInt32.size),
    ("acquire_timeout_secs", .number UInt64.size), ("idle_timeout_secs", .number UInt64.size),
    ("max_lifetime_secs", .number UInt64.size)]

/-- The settings under their keys. -/
def entries (s : PoolSettings) : List (String × Tree) :=
  [("acquire_timeout_secs", .int s.acquireTimeout.toNat),
    ("idle_timeout_secs", .int s.idleTimeout.toNat),
    ("max_connections", .int s.maxConnections.toNat),
    ("max_lifetime_secs", .int s.maxLifetime.toNat),
    ("min_connections", .int s.minConnections.toNat)]

def toTree (s : PoolSettings) : Tree := .dict s.entries

/-- The settings of the pool are read as their layout has them. -/
theorem readBy : layout.ReadBy (ofTree .ignored) toTree (toTree {}) := by
  refine readBy_section (by decide) (.cons ⟨rfl, ?_⟩ (.cons ⟨rfl, ?_⟩ (.cons ⟨rfl, ?_⟩
    (.cons ⟨rfl, ?_⟩ (.cons ⟨rfl, ?_⟩ .nil)))))
  -- the blanks are the entries that stand in front of the key
  · exact slot_word (fun x (s : PoolSettings) => { s with maxConnections := x })
      UInt32.toNat_ofNat_of_lt' rfl fun x s => ⟨[_, _], _, _, rfl, rfl, rfl⟩
  · exact slot_word (fun x (s : PoolSettings) => { s with minConnections := x })
      UInt32.toNat_ofNat_of_lt' rfl fun x s => ⟨[_, _, _, _], _, _, rfl, rfl, rfl⟩
  · exact slot_word (fun x (s : PoolSettings) => { s with acquireTimeout := x })
      UInt64.toNat_ofNat_of_lt' rfl fun x s => ⟨[], _, _, rfl, rfl, rfl⟩
  · exact slot_word (fun x (s : PoolSettings) => { s with idleTimeout := x })
      UInt64.toNat_ofNat_of_lt' rfl fun x s => ⟨[_], _, _, rfl, rfl, rfl⟩
  · exact slot_word (fun x (s : PoolSettings) => { s with maxLifetime := x })
      UInt64.toNat_ofNat_of_lt' rfl fun x s => ⟨[_, _, _], _, _, rfl, rfl, rfl⟩

end PoolSettings

namespace DatabaseSettings

def layout : Layout :=
  .keyed [("dialect", .text), ("host", .text), ("port", .number UInt16.size), ("user", .text),
    ("name", .text), ("pool", PoolSettings.layout)]

/-- The settings under their keys. -/
def entries (s : DatabaseSettings) : List (String × Tree) :=
  [("dialect", .text s.dialect), ("host", .text s.host), ("name", .text s.name),
    ("pool", s.pool.toTree), ("port", .int s.portNumber.toNat), ("user", .text s.user)]

def toTree (s : DatabaseSettings) : Tree := .dict s.entries

/-- The settings of the database, the pool among them, are read as their layout has them. -/
theorem readBy : layout.ReadBy (ofTree .ignored) toTree (toTree {}) := by
  refine readBy_section (by decide) (.cons ⟨rfl, ?_⟩ (.cons ⟨rfl, ?_⟩ (.cons ⟨rfl, ?_⟩
    (.cons ⟨rfl, ?_⟩ (.cons ⟨rfl, ?_⟩ (.cons ⟨rfl, ?_⟩ .nil))))))
  · exact slot_text (fun x (s : DatabaseSettings) => { s with dialect := x }) rfl
      fun x s => ⟨[], _, _, rfl, rfl, rfl⟩
  · exact slot_text (fun x (s : DatabaseSettings) => { s with host := x }) rfl
      fun x s => ⟨[_], _, _, rfl, rfl, rfl⟩
  · exact slot_word (fun x (s : DatabaseSettings) => { s with portNumber := x })
      UInt16.toNat_ofNat_of_lt' rfl fun x s => ⟨[_, _, _, _], _, _, rfl, rfl, rfl⟩
  · exact slot_text (fun x (s : DatabaseSettings) => { s with user := x }) rfl
      fun x s => ⟨[_, _, _, _, _], _, _, rfl, rfl, rfl⟩
  · exact slot_text (fun x (s : DatabaseSettings) => { s with name := x }) rfl
      fun x s => ⟨[_, _], _, _, rfl, rfl, rfl⟩
  · exact slot_of_readBy (fun x (s : DatabaseSettings) => { s with pool := x })
      PoolSettings.readBy rfl fun x s => ⟨[_, _, _], _, _, rfl, rfl, rfl⟩

end DatabaseSettings

namespace Settings

def layout : Layout := .keyed [("database", DatabaseSettings.layout)]

def entries (s : Settings) : List (String × Tree) := [("database", s.database.toTree)]

/-- All settings as a dictionary of sections. -/
def toTree (s : Settings) : Tree := .dict s.entries

/-- All settings are read as the layout has them, by way of the one section. -/
theorem readBy : layout.ReadBy (ofTree .ignored) toTree (toTree {}) := by
  refine readBy_section (by decide) (.cons ⟨rfl, ?_⟩ .nil)
  exact slot_of_readBy (fun x (s : Settings) => { s with database := x })
    DatabaseSettings.readBy rfl fun x s => ⟨[], _, _, rfl, rfl, rfl⟩

/-- The paths of the ten settings. -/
def paths : List (List String) :=
  [["database", "dialect"], ["database", "host"], ["database", "port"], ["database", "user"],
    ["database", "name"], ["database", "pool", "max_connections"],
    ["database", "pool", "min_connections"], ["database", "pool", "acquire_timeout_secs"],
    ["database", "pool", "idle_timeout_secs"], ["database", "pool", "max_lifetime_secs"]]

/-- Each listed path is that of a setting with a value. -/
theorem hasValue_of_mem_paths : ∀ path ∈ paths, layout.HasValue path := by
  unfold paths
  simp only [List.forall_mem_cons]
  exact ⟨⟨_, rfl, trivial⟩, ⟨_, rfl, trivial⟩, ⟨_, rfl, trivial⟩, ⟨_, rfl, trivial⟩,
    ⟨_, rfl, trivial⟩, ⟨_, rfl, trivial⟩, ⟨_, rfl, trivial⟩, ⟨_, rfl, trivial⟩,
    ⟨_, rfl, trivial⟩, ⟨_, rfl, trivial⟩, nofun⟩

/-- A file is read as the text in it. -/
theorem ofContent_toUTF8 (s : String) :
    FileLayer.ofContent (.bytes s.toUTF8) =
      match Document.readConfig? s with
      | some tree => .ofTree tree
      | none => .unusable := by
  have hvalid : String.fromUTF8? s.toUTF8 = some s := by
    unfold String.fromUTF8?
    rw [dif_pos (show s.toUTF8.IsValidUTF8 from s.isValidUTF8)]
    rfl
  rw [FileLayer.ofContent, hvalid]
  rfl

/-- The settings that are loaded are those of the merged layers. -/
theorem load_eq {content : FileContent} {env : Environment} {file layer : Tree}
    (hfile : (FileLayer.ofContent content).tree? = some file)
    (hlayer : env.settings? = some layer) :
    load (.ofContent content) env = ofTree .ignored (file.merge layer) := by
  unfold load
  rw [hlayer]
  cases hcontent : FileLayer.ofContent content with
  -- no file is the empty layer, and laid over it the environment stays as it is
  | absent =>
    rw [hcontent] at hfile
    obtain rfl := Option.some.inj hfile
    rw [Tree.empty_merge (Environment.ordered_settings? hlayer)]
  | dict entries =>
    rw [hcontent] at hfile
    obtain rfl := Option.some.inj hfile
    rfl
  | unusable =>
    rw [hcontent] at hfile
    cases hfile

section Layers

variable {content : FileContent} {env : Environment} {file layer : Tree}
  (hfile : (FileLayer.ofContent content).tree? = some file)
  (hlayer : env.settings? = some layer)

include hfile hlayer

/-- The settings load just when the two layers together fit the layout. -/
theorem exists_load_iff :
    (∃ s, load (.ofContent content) env = .ok s) ↔ layout.Fits (file.merge layer) := by
  rw [load_eq hfile hlayer]
  exact readBy.accepts (file.merge layer)

/-- In settings that have loaded, each setting is the environment's, else the file's unless that is
set aside, else the default. -/
theorem at?_of_load {s : Settings} (hload : load (.ofContent content) env = .ok s)
    {path : List String} (hpath : path ∈ paths) :
    s.toTree.at? path = ((layout.given? layer path).or
      (if file.setAside layer path then none else layout.given? file path)).or
        (({} : Settings).toTree.at? path) := by
  have hordered := Environment.ordered_settings? hlayer
  have hfits := (exists_load_iff hfile hlayer).1 ⟨s, hload⟩
  have hvalue := hasValue_of_mem_paths path hpath
  have hmerged := (FileLayer.ordered_ofContent hfile).merge hordered
  rw [load_eq hfile hlayer] at hload
  rw [readBy.at_path hmerged hload hvalue, Layout.given?_merge hordered hfits hvalue]

/-- A key that the layout does not know fails the load, in the environment anywhere and in the file
unless it is set aside. -/
theorem exists_error_of_unknown {front : List String} {key : String}
    (h : layout.Unknown layer front key ∨
      layout.Unknown file front key ∧ file.setAside layer (front ++ [key]) = false) :
    ∃ e, load (.ofContent content) env = .error e := by
  have hordered := Environment.ordered_settings? hlayer
  -- the unknown key survives the merge, as one layer is laid over the other
  have hfits : ¬layout.Fits (file.merge layer) := by
    rcases h with h | ⟨h, hkept⟩
    · exact Layout.not_fits_merge_of_unknown_upper hordered h
    · exact Layout.not_fits_merge_of_unknown_lower hordered h hkept
  cases hload : load (.ofContent content) env with
  | ok s => exact absurd ((exists_load_iff hfile hlayer).1 ⟨s, hload⟩) hfits
  | error e => exact ⟨e, rfl⟩

/-- **The layering of dictionaries,** where no section is given as a list: each setting is what the
keys lead to in the upper layer, or else in the lower one, or else its default, and unknown keys of
either layer keep everything from being loaded. -/
theorem load_of_listless (hf : file.Listless) (he : layer.Listless) :
    (∀ s, load (.ofContent content) env = .ok s → ∀ path ∈ paths,
      s.toTree.at? path =
        ((layer.at? path).or (file.at? path)).or (({} : Settings).toTree.at? path)) ∧
    ∀ front slots key, layout.at? front = some (.keyed slots) → key ∉ slots.map Prod.fst →
      (layer.at? (front ++ [key])).isSome ∨ (file.at? (front ++ [key])).isSome →
        ∃ e, load (.ofContent content) env = .error e := by
  refine ⟨fun s hload path hpath => ?_, fun front slots key hplace hkey hgiven => ?_⟩
  · obtain ⟨leaf, hleaf, -⟩ := hasValue_of_mem_paths path hpath
    rw [at?_of_load hfile hlayer hload hpath, hf.setAside_eq_false he,
      Layout.given?_eq_at? he hleaf, Layout.given?_eq_at? hf hleaf]
    rfl
  · rcases hgiven with hgiven | hgiven
    · have hunknown := Layout.unknown_of_at? he hplace hkey hgiven
      exact exists_error_of_unknown hfile hlayer (.inl hunknown)
    · have hunknown := Layout.unknown_of_at? hf hplace hkey hgiven
      -- a key of the file is never set aside where nothing is a list
      have hkept := hf.setAside_eq_false he (front ++ [key])
      exact exists_error_of_unknown hfile hlayer (.inr ⟨hunknown, hkept⟩)

end Layers

/-- **The layering of the settings.** What is loaded has at each path the value of the environment,
or else that of the file unless the merge drops it, or else the default. An unknown key of either
layer keeps everything from being loaded, unless the merge drops it, and nothing else does but a
value that does not fit. -/
theorem load_layers {content : FileContent} {env : Environment} {file layer : Tree}
    (hfile : (FileLayer.ofContent content).tree? = some file)
    (hlayer : env.settings? = some layer) :
    (∀ s, load (.ofContent content) env = .ok s → ∀ path ∈ paths,
      s.toTree.at? path = ((layout.given? layer path).or
        (if file.setAside layer path then none else layout.given? file path)).or
          (({} : Settings).toTree.at? path)) ∧
    (∀ front key, layout.Unknown layer front key ∨
      layout.Unknown file front key ∧ file.setAside layer (front ++ [key]) = false →
        ∃ e, load (.ofContent content) env = .error e) ∧
    ((∃ s, load (.ofContent content) env = .ok s) ↔ layout.Fits (file.merge layer)) :=
  ⟨fun _ hload _ hpath => at?_of_load hfile hlayer hload hpath,
    fun _ _ hunknown => exists_error_of_unknown hfile hlayer hunknown,
    exists_load_iff hfile hlayer⟩

-- ---------------------------------------------------------------------------
-- Two files and two environments
-- ---------------------------------------------------------------------------

/-- A file with an address and a name. -/
def addressFile : FileContent :=
  .bytes ("\x7b\x22database\x22: \x7b\x22host\x22: \x22db.internal\x22, "
    ++ "\x22name\x22: \x22school\x22\x7d\x7d").toUTF8

/-- A file with an address and with a key that the database section does not have. -/
def strayFile : FileContent :=
  .bytes ("\x7b\x22database\x22: \x7b\x22host\x22: \x22db.internal\x22, "
    ++ "\x22password\x22: \x22x\x22\x7d\x7d").toUTF8

/-- Variables for another address and a user, and the password. -/
def replica : Environment :=
  [("CAMPUS_AUTH_DATABASE__HOST", "db.replica"), ("CAMPUS_AUTH_DATABASE__USER", "accounts"),
    ("CAMPUS_AUTH_DB_PASSWORD", "hunter2")]

/-- A list of one item in the place of the database section. -/
def dialectAlone : Environment := [("CAMPUS_AUTH_DATABASE", "[mysql]")]

theorem tree?_addressFile : (FileLayer.ofContent addressFile).tree? = some (.dict [("database",
    .dict [("host", .text "db.internal"), ("name", .text "school")])]) := by
  rw [addressFile, ofContent_toUTF8]
  cbv

/-- What the file with the unknown key is read as; the key is still there. -/
theorem tree?_strayFile : (FileLayer.ofContent strayFile).tree? = some (.dict [("database",
    .dict [("host", .text "db.internal"), ("password", .text "x")])]) := by
  rw [strayFile, ofContent_toUTF8]
  cbv

/-- What the variables are read as. The password gives no path and is passed by. -/
theorem settings?_replica : replica.settings? = some (.dict [("database",
    .dict [("host", .text "db.replica"), ("user", .text "accounts")])]) := by
  have hhost : Environment.path? "CAMPUS_AUTH_DATABASE__HOST" = some ["database", "host"] := by
    decide +kernel
  have huser : Environment.path? "CAMPUS_AUTH_DATABASE__USER" = some ["database", "user"] := by
    decide +kernel
  have hpassword : Environment.path? "CAMPUS_AUTH_DB_PASSWORD" = none := by decide +kernel
  have hreplica : Inline.read? "db.replica" = some (.text "db.replica") := by cbv
  have haccounts : Inline.read? "accounts" = some (.text "accounts") := by cbv
  rw [Environment.settings?_eq, replica]
  simp only [Environment.layOver?_cons, Environment.layOver?_nil, hhost, huser, hpassword,
    hreplica, haccounts, Option.bind_some]
  refine congrArg some ?_
  cbv

/-- What the single variable is read as: the section is a list. -/
theorem settings?_dialectAlone :
    dialectAlone.settings? = some (.dict [("database", .list [.text "mysql"])]) := by
  have hpath : Environment.path? "CAMPUS_AUTH_DATABASE" = some ["database"] := by decide +kernel
  rw [Environment.settings?_eq, dialectAlone, Environment.layOver?_cons, hpath]
  cbv

/-- Each setting comes from the highest layer that gives it, and a key that no section has keeps
everything from being loaded. -/
theorem load_layers_replica :
    (∃ s, load (.ofContent addressFile) replica = .ok s ∧
      s.toTree.at? ["database", "host"] = some (.text "db.replica") ∧
      s.toTree.at? ["database", "name"] = some (.text "school") ∧
      s.toTree.at? ["database", "user"] = some (.text "accounts") ∧
      s.toTree.at? ["database", "pool", "max_connections"] = some (.int 10)) ∧
    ∃ e, load (.ofContent strayFile) replica = .error e := by
  obtain ⟨hvalues, -, -⟩ := load_layers tree?_addressFile settings?_replica
  obtain ⟨-, hunknown, -⟩ := load_layers tree?_strayFile settings?_replica
  have hload : load (.ofContent addressFile) replica =
      .ok { database := { host := "db.replica", user := "accounts", name := "school" } } := by
    rw [load_eq tree?_addressFile settings?_replica]
    cbv
  have hvalue := hvalues _ hload
  refine ⟨⟨_, hload, ?_, ?_, ?_, ?_⟩, ?_⟩
  · exact hvalue ["database", "host"] (by simp [paths])
  · exact hvalue ["database", "name"] (by simp [paths])
  · exact hvalue ["database", "user"] (by simp [paths])
  · exact hvalue ["database", "pool", "max_connections"] (by simp [paths])
  · refine hunknown ["database"] "password" (.inr ⟨?_, rfl⟩)
    exact ⟨_, _, rfl, by decide, rfl, by simp⟩

/-- The layering does not hold of lists as it does of dictionaries: one item in the place of the
database section hides the address in the file, and the key that no section has. -/
theorem not_load_layers_dialectAlone :
    let file : Tree := .dict [("database",
      .dict [("host", .text "db.internal"), ("password", .text "x")])]
    let layer : Tree := .dict [("database", .list [.text "mysql"])]
    (FileLayer.ofContent strayFile).tree? = some file ∧ dialectAlone.settings? = some layer ∧
    ¬(∀ s, load (.ofContent strayFile) dialectAlone = .ok s → ∀ path ∈ paths,
      s.toTree.at? path =
        ((layer.at? path).or (file.at? path)).or (({} : Settings).toTree.at? path)) ∧
    ¬(∀ front slots key, layout.at? front = some (.keyed slots) → key ∉ slots.map Prod.fst →
      (layer.at? (front ++ [key])).isSome ∨ (file.at? (front ++ [key])).isSome →
        ∃ e, load (.ofContent strayFile) dialectAlone = .error e) := by
  intro file layer
  have hload : load (.ofContent strayFile) dialectAlone = .ok {} := by
    rw [load_eq tree?_strayFile settings?_dialectAlone]
    cbv
  refine ⟨tree?_strayFile, settings?_dialectAlone, fun hvalues => ?_, fun hunknown => ?_⟩
  · -- the host is the default again, although the file gives one
    have hhost := hvalues {} hload ["database", "host"] (by simp [paths])
    have hname : "localhost" = "db.internal" := Tree.text.inj (Option.some.inj hhost)
    exact absurd hname (by decide)
  · obtain ⟨e, he⟩ := hunknown ["database"] _ "password" rfl (by decide) (.inr rfl)
    cases hload.symm.trans he

end Settings

end Rollbook
