import Rollbook.Settings.Environment
import Rollbook.Settings.File
import Rollbook.Text.Quoted

/-!
# Rollbook — settings

How the program reaches its database. The settings form two nested sections, each with defaults for
what no layer gives; a section accepts no key but its own. The layers are the configuration file
and, over it, the environment. The password is no setting.
-/

namespace Rollbook

/-- How many connections are kept, and for how long in seconds. -/
structure PoolSettings where
  maxConnections : UInt32 := 10
  minConnections : UInt32 := 0
  acquireTimeout : UInt64 := 30
  idleTimeout : UInt64 := 600
  maxLifetime : UInt64 := 1800
deriving DecidableEq, Repr, Inhabited

/-- Where the database is and who connects to it. -/
structure DatabaseSettings where
  dialect : String := "mysql"
  host : String := "localhost"
  portNumber : UInt16 := 3306
  user : String := "campus"
  name : String := "campus"
  pool : PoolSettings := {}
deriving DecidableEq, Repr, Inhabited

/-- All settings. -/
structure Settings where
  database : DatabaseSettings := {}
deriving DecidableEq, Repr, Inhabited

/-! ## Reading -/

/-- Why there are no settings: a value is of another type, it is out of range, its key is unknown,
the configuration file holds no dictionary, or a variable has no value. -/
inductive LoadCause where
  | invalidType
  | invalidValue
  | unknownField
  | unusableFile
  | unusableVariable
deriving DecidableEq, Repr

/-- Why settings cannot be read, and the keys that lead to the place. -/
structure LoadError where
  cause : LoadCause
  path : List String
deriving DecidableEq, Repr

namespace LoadError

/-- The same error, seen from the section that holds `key`. -/
def under (key : String) (e : LoadError) : LoadError := { e with path := key :: e.path }

/-- The wording of a load error. -/
def message (e : LoadError) : String :=
  let place := ".".intercalate e.path
  match e.cause with
  | .invalidType => s!"invalid type for setting {Text.quote place}"
  | .invalidValue => s!"value out of range for setting {Text.quote place}"
  | .unknownField => s!"unknown setting {Text.quote place}"
  | .unusableFile => "the configuration file must hold a dictionary of settings"
  | .unusableVariable => "a quoted setting would be cut inside a character"

end LoadError

/-- What becomes of the items that a section given as a list has beyond its last key. -/
inductive Surplus where
  | ignored
  | refused
deriving DecidableEq, Repr

namespace Tree

/-- The text that a value is. -/
def asText : Tree → Except LoadError String
  | .text s => .ok s
  | _ => .error ⟨.invalidType, []⟩

/-- The integer below `size` that a value is. -/
def asNat (size : Nat) : Tree → Except LoadError Nat
  | .int n => if 0 ≤ n ∧ n < size then .ok n.toNat else .error ⟨.invalidValue, []⟩
  | _ => .error ⟨.invalidType, []⟩

/-- Reads a section, starting from its defaults. `slots` are the keys of the section in order, with
the effect of a value under each. Entries are read in the order of their keys and the first error
is reported; a list gives the values of the first keys in the order of `slots`, and errors name its
items by their place. -/
def asSection {σ : Type} (surplus : Surplus)
    (slots : List (String × (Tree → σ → Except LoadError σ))) (defaults : σ) :
    Tree → Except LoadError σ
  | .dict entries =>
    entries.foldlM
      (fun s e =>
        match slots.lookup e.1 with
        | some put => (put e.2 s).mapError (.under e.1)
        | none => .error ⟨.unknownField, [e.1]⟩)
      defaults
  | .list items =>
    if surplus = .refused ∧ slots.length < items.length then .error ⟨.invalidType, []⟩
    else
      (slots.zip items).zipIdx.foldlM
        (fun s e => (e.1.1.2 e.1.2 s).mapError (.under (toString e.2))) defaults
  | _ => .error ⟨.invalidType, []⟩

end Tree

namespace PoolSettings

/-- The pool section that a value is. -/
def ofTree (surplus : Surplus) : Tree → Except LoadError PoolSettings :=
  Tree.asSection surplus
    [("max_connections", fun v s =>
        (v.asNat UInt32.size).map fun n => { s with maxConnections := .ofNat n }),
      ("min_connections", fun v s =>
        (v.asNat UInt32.size).map fun n => { s with minConnections := .ofNat n }),
      ("acquire_timeout_secs", fun v s =>
        (v.asNat UInt64.size).map fun n => { s with acquireTimeout := .ofNat n }),
      ("idle_timeout_secs", fun v s =>
        (v.asNat UInt64.size).map fun n => { s with idleTimeout := .ofNat n }),
      ("max_lifetime_secs", fun v s =>
        (v.asNat UInt64.size).map fun n => { s with maxLifetime := .ofNat n })]
    {}

end PoolSettings

namespace DatabaseSettings

/-- The database section that a value is. -/
def ofTree (surplus : Surplus) : Tree → Except LoadError DatabaseSettings :=
  Tree.asSection surplus
    [("dialect", fun v s => v.asText.map fun t => { s with dialect := t }),
      ("host", fun v s => v.asText.map fun t => { s with host := t }),
      ("port", fun v s => (v.asNat UInt16.size).map fun n => { s with portNumber := .ofNat n }),
      ("user", fun v s => v.asText.map fun t => { s with user := t }),
      ("name", fun v s => v.asText.map fun t => { s with name := t }),
      ("pool", fun v s =>
        (PoolSettings.ofTree surplus v).map fun p => { s with pool := p })]
    {}

end DatabaseSettings

/-! ## Validation -/

/-- What is wrong with the configuration of the program. -/
inductive ConfigurationError where
  | dialect (found : String)
  | emptyField (field : String)
  | zeroPort
  | noConnections
  | connectionBounds (min max : UInt32)
  | noPassword
  | passwordFile (path reason : String)
deriving DecidableEq, Repr

/-- The wording of a configuration error. -/
def ConfigurationError.message (e : ConfigurationError) : String :=
  "Invalid configuration: " ++
    match e with
    | dialect found =>
      s!"unsupported database dialect {Text.quote found}, only mysql is supported"
    | emptyField field => s!"database.{field} must not be empty"
    | zeroPort => "database.port must not be 0"
    | noConnections => "database.pool.max_connections must be at least 1"
    | connectionBounds min max =>
      s!"database.pool.min_connections ({min.toNat}) cannot be greater than "
        ++ s!"max_connections ({max.toNat})"
    | noPassword =>
      s!"no database password: pass --password-file or set {Environment.passwordVariable}"
    | passwordFile path reason => s!"cannot read password file {path}: {reason}"

namespace Settings

/-- The settings that a value is. -/
def ofTree (surplus : Surplus) : Tree → Except LoadError Settings :=
  Tree.asSection surplus
    [("database", fun v s =>
        (DatabaseSettings.ofTree surplus v).map fun d => { s with database := d })]
    {}

/-- The settings of a configuration file, if there is one, with those of the environment over them.
The environment is read first, so what is wrong there is reported whatever the file holds. Items of
lists beyond the last key are ignored. -/
def load (file : FileLayer) (env : Environment) : Except LoadError Settings :=
  match env.settings? with
  | none => .error ⟨.unusableVariable, []⟩
  | some layer =>
    match file with
    | .absent => ofTree .ignored layer
    | .dict entries => ofTree .ignored ((Tree.dict entries).merge layer)
    | .unusable => .error ⟨.unusableFile, []⟩

/-- Passes, or reports the error. -/
private def demand (ok : Bool) (otherwise : ConfigurationError) : Except ConfigurationError Unit :=
  if ok then .ok () else .error otherwise

/-- Checks the settings and reports the first fault. The case of the dialect does not matter; host,
user and name must hold more than white space. -/
def check (s : Settings) : Except ConfigurationError Unit := do
  let db := s.database
  demand (db.dialect.toList.map Char.toLower = "mysql".toList) (.dialect db.dialect)
  demand (!Text.allBlank db.host) (.emptyField "host")
  demand (!Text.allBlank db.user) (.emptyField "user")
  demand (!Text.allBlank db.name) (.emptyField "name")
  demand (db.portNumber != 0) .zeroPort
  demand (db.pool.maxConnections != 0) .noConnections
  demand (db.pool.minConnections ≤ db.pool.maxConnections)
    (.connectionBounds db.pool.minConnections db.pool.maxConnections)

end Settings

end Rollbook
