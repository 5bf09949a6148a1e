import Rollbook.Attribute.Rule
import Rollbook.Columns
import Rollbook.Table

/-!
# Rollbook — details

The details of a record as a tuple typed by the list of its members, and a sparse tuple of changes
to them. Everything a record does with its columns is defined here once, by recursion on the list:
validation in member order, the columns of a tuple, and the tuple that columns stand for.
-/

namespace Rollbook

/-- What a record holds for a member: the content of its attribute, or possibly none. -/
abbrev Member.Content (m : Member) : Type :=
  match m.optional with
  | false => m.target.Content
  | true => Option m.target.Content

namespace Member

/-- The content of a member as a stored value. -/
def toValue : (m : Member) → m.Content → Value
  | ⟨_, a, false, _⟩, content => a.toValue content
  | ⟨_, a, true, _⟩, content => a.toValue? content

/-- The content of a member that a stored value stands for. -/
def ofValue : (m : Member) → Value → Except DecodeError m.Content
  | ⟨_, a, false, _⟩, value => a.ofValue value
  | ⟨_, a, true, _⟩, value => a.ofValue? value

/-- Checks the content of a member; missing content of an optional member is valid. -/
def check : (m : Member) → m.Content → Except Violation Unit
  | ⟨_, a, false, _⟩, content => a.check content
  | ⟨_, a, true, _⟩, content =>
    match content with
    | some c => a.check c
    | none => .ok ()

/-- Checks a change to a member. The zero clears an optional member, so it is valid there. -/
def checkChange (m : Member) (content : m.target.Content) : Except Violation Unit :=
  if m.optional && m.target.isZero content then .ok () else m.target.check content

end Member

/-- One content for each member. -/
def Details : List Member → Type
  | [] => Unit
  | m :: ms => m.Content × Details ms

namespace Details

/-- The tuple made of what `f` gives for each member, or the first error in member order. -/
def build {ε : Type} (f : (m : Member) → Except ε m.Content) :
    (ms : List Member) → Except ε (Details ms)
  | [] => .ok ()
  | m :: ms => do
    let content ← f m
    let rest ← build f ms
    return (content, rest)

/-- The members with their contents, in order. -/
def toList : {ms : List Member} → Details ms → List ((m : Member) × m.Content)
  | [], _ => []
  | m :: _, (content, rest) => ⟨m, content⟩ :: toList rest

/-- Reports the first member in order whose content is invalid. -/
def check {ms : List Member} (d : Details ms) : Except Violation Unit :=
  d.toList.forM fun p => p.1.check p.2

/-- The columns of the tuple. -/
def toColumns : {ms : List Member} → Details ms → Columns
  | [], _ => ∅
  | m :: _, (content, rest) => (toColumns rest).insert m.key (m.toValue content)

/-- The tuple that the columns stand for, or the first member in order that cannot be decoded. -/
def ofColumns (ms : List Member) (columns : Columns) : Except DecodeError (Details ms) :=
  build (fun m => m.ofValue (columns.get m.key)) ms

theorem fst_mem_of_mem_toList {ms : List Member} {d : Details ms} {p : (m : Member) × m.Content}
    (h : p ∈ d.toList) : p.1 ∈ ms := by
  induction ms with
  | nil => cases h
  | cons m ms ih =>
    obtain ⟨content, rest⟩ := d
    rcases List.mem_cons.1 h with rfl | h
    · exact List.mem_cons_self
    · exact List.mem_cons_of_mem _ (ih h)

/-- A tuple has columns of members only, each with a content of the member. -/
theorem exists_of_get? {ms : List Member} {d : Details ms} {name : String} {value : Value}
    (h : d.toColumns.get? name = some value) :
    ∃ m ∈ ms, ∃ content : m.Content, m.key = name ∧ m.toValue content = value := by
  induction ms with
  | nil => cases h
  | cons m ms ih =>
    obtain ⟨content, rest⟩ := d
    rw [toColumns, Columns.get?_insert] at h
    split at h
    · next hname =>
      cases h
      exact ⟨m, List.mem_cons_self, content, hname.symm, rfl⟩
    · obtain ⟨m', hm', hrest⟩ := ih h
      exact ⟨m', List.mem_cons_of_mem _ hm', hrest⟩

/-- A tuple has the content of each member in the column of the member. -/
theorem get?_toColumns {ms : List Member} {d : Details ms} (hkeys : (ms.map Member.key).Nodup)
    {p : (m : Member) × m.Content} (hp : p ∈ d.toList) :
    d.toColumns.get? p.1.key = some (p.1.toValue p.2) := by
  induction ms with
  | nil => cases hp
  | cons m ms ih =>
    obtain ⟨content, rest⟩ := d
    rw [List.map_cons, List.nodup_cons] at hkeys
    obtain ⟨hhead, hkeys⟩ := hkeys
    rcases List.mem_cons.1 hp with rfl | hp
    · rw [toColumns, Columns.get?_insert_self]
    · have hmember : p.1 ∈ ms := fst_mem_of_mem_toList hp
      have hne : p.1.key ≠ m.key := fun heq => hhead (heq ▸ List.mem_map_of_mem hmember)
      rw [toColumns, Columns.get?_insert_of_ne _ _ hne]
      exact ih hkeys hp

/-- Reading a tuple from columns and writing it back gives the column of a member its value again,
if the content that was read there does. -/
theorem get_toColumns_of_ofColumns {ms : List Member} {columns : Columns} {d : Details ms}
    (hkeys : (ms.map Member.key).Nodup) (h : ofColumns ms columns = .ok d) {m : Member}
    (hm : m ∈ ms) (hback : ∀ content, m.ofValue (columns.get m.key) = .ok content →
      m.toValue content = columns.get m.key) : d.toColumns.get m.key = columns.get m.key := by
  induction ms with
  | nil => cases hm
  | cons head ms ih =>
    rw [List.map_cons, List.nodup_cons] at hkeys
    obtain ⟨hhead, hkeys⟩ := hkeys
    rw [ofColumns, build] at h
    cases hcontent : head.ofValue (columns.get head.key) with
    | error e =>
      rw [hcontent] at h
      cases h
    | ok content =>
      cases hrest : build (fun m => m.ofValue (columns.get m.key)) ms with
      | error e =>
        rw [hcontent, hrest] at h
        cases h
      | ok rest =>
        rw [hcontent, hrest] at h
        cases h
        rcases List.mem_cons.1 hm with rfl | hm
        · rw [toColumns, Columns.get, Columns.get?_insert_self]
          exact hback content hcontent
        · have hne : m.key ≠ head.key := fun heq => hhead (heq ▸ List.mem_map_of_mem hm)
          rw [toColumns, Columns.get, Columns.get?_insert_of_ne _ _ hne]
          exact ih hkeys hrest hm

/-- Equality of tuples, member by member. -/
def decEq : {ms : List Member} → (a b : Details ms) → Decidable (a = b)
  | [], (), () => .isTrue rfl
  | m :: _, (a, as), (b, bs) =>
    have : Decidable (a = b) :=
      match m, a, b with
      | ⟨_, .text _, false, _⟩, a, b => inferInstanceAs (Decidable ((a : String) = b))
      | ⟨_, .number _, false, _⟩, a, b => inferInstanceAs (Decidable ((a : UInt8) = b))
      | ⟨_, .text _, true, _⟩, a, b => inferInstanceAs (Decidable ((a : Option String) = b))
      | ⟨_, .number _, true, _⟩, a, b => inferInstanceAs (Decidable ((a : Option UInt8) = b))
    have : Decidable (as = bs) := decEq as bs
    decidable_of_iff (a = b ∧ as = bs)
      ⟨fun h => by rw [h.1, h.2], fun h => Prod.mk.inj h⟩

instance {ms : List Member} : DecidableEq (Details ms) := decEq

end Details

/-- For each member, possibly a new content. -/
def Changes : List Member → Type
  | [] => Unit
  | m :: ms => Option m.target.Content × Changes ms

namespace Changes

/-- The changes made of what `f` gives for each member, or the first error in member order. -/
def build {ε : Type} (f : (m : Member) → Except ε (Option m.target.Content)) :
    (ms : List Member) → Except ε (Changes ms)
  | [] => .ok ()
  | m :: ms => do
    let content ← f m
    let rest ← build f ms
    return (content, rest)

/-- The members with the contents supplied for them, in order. -/
def toList : {ms : List Member} → Changes ms → List ((m : Member) × Option m.target.Content)
  | [], _ => []
  | m :: _, (content, rest) => ⟨m, content⟩ :: toList rest

/-- Reports the first supplied content in order that is invalid. -/
def check {ms : List Member} (c : Changes ms) : Except Violation Unit :=
  c.toList.forM fun p =>
    match p.2 with
    | some content => p.1.checkChange content
    | none => .ok ()

/-- The columns of the supplied contents. -/
def toColumns : {ms : List Member} → Changes ms → Columns
  | [], _ => ∅
  | m :: _, (some content, rest) => (toColumns rest).insert m.key (m.target.toValue content)
  | _ :: _, (none, rest) => toColumns rest

/-- Changes set columns of members only, each to a content of its attribute. -/
theorem exists_of_get? {ms : List Member} {c : Changes ms} {name : String} {value : Value}
    (h : c.toColumns.get? name = some value) :
    ∃ m ∈ ms, ∃ content : m.target.Content, m.key = name ∧ m.target.toValue content = value := by
  induction ms with
  | nil => cases h
  | cons m ms ih =>
    obtain ⟨_ | content, rest⟩ := c
    · obtain ⟨m', hm', hrest⟩ := ih h
      exact ⟨m', List.mem_cons_of_mem _ hm', hrest⟩
    · rw [toColumns, Columns.get?_insert] at h
      split at h
      · next hname =>
        cases h
        exact ⟨m, List.mem_cons_self, content, hname.symm, rfl⟩
      · obtain ⟨m', hm', hrest⟩ := ih h
        exact ⟨m', List.mem_cons_of_mem _ hm', hrest⟩

end Changes

end Rollbook
