import Rollbook.Settings

/-!
# Rollbook — the database password

The password is read on its own, from a file if one is named and else from the environment, and its
printed form shows nothing of it.
-/

namespace Rollbook

/-- The password of the database. -/
structure Secret where
  expose : String
deriving DecidableEq

namespace Secret

/-- The printed form, the same for every password. -/
def describe (_ : Secret) : String := "DatabaseSecret(<redacted>)"

/-- The text without the line ends behind it. -/
def dropLineEnds (s : String) : String :=
  String.ofList (s.toList.reverse.dropWhile fun c => c = '\r' || c = '\n').reverse

/-- The password in the content of the named file. -/
def ofFile (path : String) : FileContent → Except ConfigurationError Secret
  | .missing => .error (.passwordFile path "No such file or directory (os error 2)")
  | .bytes content =>
    match String.fromUTF8? content with
    | some s => .ok ⟨dropLineEnds s⟩
    | none => .error (.passwordFile path "stream did not contain valid UTF-8")

/-- The password of the environment, taken as it stands. -/
def ofEnvironment (env : Environment) : Except ConfigurationError Secret :=
  match env.value? Environment.passwordVariable with
  | some s => .ok ⟨s⟩
  | none => .error .noPassword

/-- The password from the named file, or from the environment if none is named. `content` is what
the named file holds. -/
def load (passwordFile : Option String) (content : FileContent) (env : Environment) :
    Except ConfigurationError Secret :=
  match passwordFile with
  | some path => ofFile path content
  | none => ofEnvironment env

end Secret

end Rollbook
