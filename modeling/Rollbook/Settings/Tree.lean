import Rollbook.Entries

/-!
# Rollbook — trees of settings

Settings before they are checked: nested dictionaries, as a configuration file or a set of
environment variables gives them. Layers of settings are merged key by key; of two values that are
not both dictionaries the later one holds.
-/

namespace Rollbook

/-- A value as a layer of settings gives it. The entries of a dictionary are in the order of their
keys. -/
inductive Tree where
  | null
  | bool (b : Bool)
  | int (n : Int)
  | float (literal : String)
  | text (s : String)
  | list (items : List Tree)
  | dict (entries : List (String × Tree))
deriving Repr, Inhabited

namespace Tree

/-- The dictionary made of entries that come one after the other; the last one under a key holds. -/
def ofEntries (es : List (String × Tree)) : Tree :=
  .dict (es.foldl (fun acc e => Entries.place e.1 e.2 acc) [])

/-- A value under a path of keys. -/
def nest (path : List String) (value : Tree) : Tree :=
  path.foldr (fun key tree => .dict [(key, tree)]) value

mutual

/-- The earlier layer with the later one over it. -/
def merge (earlier : Tree) : (later : Tree) → Tree
  | .dict es =>
    match earlier with
    | .dict old => .dict (mergeEntries old es)
    | _ => .dict es
  | later => later

/-- The earlier entries with the later ones over them. -/
def mergeEntries (earlier : List (String × Tree)) : (later : List (String × Tree)) →
    List (String × Tree)
  | [] => earlier
  | (key, value) :: rest =>
    let merged :=
      match earlier.lookup key with
      | some old => merge old value
      | none => value
    mergeEntries (Entries.place key merged earlier) rest

end

/-- The value at a path of keys. -/
def at? : Tree → List String → Option Tree
  | tree, [] => some tree
  | .dict es, key :: rest => (es.lookup key).bind fun tree => tree.at? rest
  | _, _ :: _ => none

end Tree

end Rollbook
