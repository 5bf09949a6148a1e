import Rollbook.Settings.Inline

/-!
# Rollbook — settings in the environment

Environment variables as a layer of settings. The name of a variable behind the common lead gives
a path of keys, and its text is an inline value. Two variables are no settings: the one that names
the configuration file and the one that holds the password.
-/

namespace Rollbook

/-- Variables with their texts, in the order of their names. -/
abbrev Environment := List (String × String)

namespace Environment

/-- The text of a variable, by its exact name. -/
def value? (env : Environment) (name : String) : Option String := env.lookup name

/-- The variable that names the configuration file. -/
def configVariable : String := "CAMPUS_AUTH_CONFIG"

/-- The variable that holds the password of the database. -/
def passwordVariable : String := "CAMPUS_AUTH_DB_PASSWORD"

/-! ## Names -/

/-- The lead of the variables that are settings, in lower case. -/
def lead : List Char := "campus_auth_".toList

/-- Cuts a list at each point and at each pair of underscores, from the left. -/
def segments : List Char → List (List Char)
  | [] => [[]]
  | '_' :: '_' :: rest => [] :: segments rest
  | c :: rest =>
    if c = '.' then [] :: segments rest
    else
      match segments rest with
      | [] => [[c]]
      | first :: others => (c :: first) :: others

/-- The path that a variable sets, whatever the case of its letters and the white space around its
name: none for a variable without the lead, for the two that are no settings, and where a key would
be empty. White space behind the lead is left out of the path, but a name that has some there is
none of the two. -/
def path? (name : String) : Option (List String) := do
  let rest ← Text.after? lead ((Text.stripBy Text.isBlank name.toList).map Char.toLower)
  if rest = "config".toList ∨ rest = "db_password".toList then none
  else
    let keys := segments (Text.stripBy Text.isBlank rest)
    if keys.any List.isEmpty then none else some (keys.map String.ofList)

/-! ## The layer -/

/-- The settings that the variables give, each over those before it: none if one of the variables
has no value. -/
def settings? (env : Environment) : Option Tree :=
  env.foldlM
    (fun tree p =>
      match path? p.1 with
      | some path => (Inline.read? p.2).map fun value => tree.merge (.nest path value)
      | none => some tree)
    (.dict [])

end Environment

end Rollbook
