import Rollbook.Settings.Document

/-!
# Rollbook — configuration files

The content of a file, and the layer of settings that a configuration file gives: a dictionary,
nothing at all if there is no such file, or no layer if the file is there and holds something else.
-/

namespace Rollbook

/-- What reading a file gives. -/
inductive FileContent where
  | missing
  | bytes (content : ByteArray)

/-- The settings in a configuration file. -/
inductive FileLayer where
  | absent
  | dict (entries : List (String × Tree))
  | unusable
deriving Repr

namespace FileLayer

/-- The layer that a value is. -/
def ofTree : Tree → FileLayer
  | .dict entries => dict entries
  | _ => unusable

/-- The layer in the content of a file. -/
def ofContent : FileContent → FileLayer
  | .missing => absent
  | .bytes content =>
    match (String.fromUTF8? content).bind Document.readConfig? with
    | some tree => ofTree tree
    | none => unusable

end FileLayer

end Rollbook
