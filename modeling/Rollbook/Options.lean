import Rollbook.Settings.Environment
import Rollbook.Text.Split

/-!
# Rollbook — command-line options

The words of a command line, read from the left. An option with a value takes it from its own word
or from the next one, unless that starts with a dash; the option is settled only when the word
after it has been seen. No option may be given twice, and no word may stand alone.
-/

namespace Rollbook

/-- The options of the program. -/
structure Options where
  config : String
  validate : Bool
  passwordFile : Option String
deriving DecidableEq, Repr

/-- Why a command line gives no options: it asks for a text, or it is wrong. -/
inductive OptionsError where
  | displayHelp
  | displayVersion
  | unknownArgument
  | invalidValue
  | tooManyValues
  | argumentConflict
deriving DecidableEq, Repr

/-- The wording of an error on the command line. -/
def OptionsError.message : OptionsError → String
  | displayHelp => "help was asked for"
  | displayVersion => "the version was asked for"
  | unknownArgument => "unexpected argument found"
  | invalidValue => "a value is required or is not accepted"
  | tooManyValues => "an unexpected value was given to a flag"
  | argumentConflict => "an option cannot be used multiple times"

namespace Options

/-- The options that take a value. -/
inductive Valued where
  | config
  | passwordFile
deriving DecidableEq, Repr

/-- What an option stands for. -/
inductive Flag where
  | valued (option : Valued)
  | validate
  | help
  | version
deriving DecidableEq, Repr

/-- The option of a long name. -/
def Flag.ofName? (name : String) : Option Flag :=
  if name = "config" then some (.valued .config)
  else if name = "password-file" then some (.valued .passwordFile)
  else if name = "validate" then some .validate
  else if name = "help" then some .help
  else if name = "version" then some .version
  else none

/-- The option of a letter. -/
def Flag.ofLetter? : Char → Option Flag
  | 'f' => some (.valued .config)
  | 'h' => some .help
  | 'V' => some .version
  | _ => none

/-- What has been read. `open?` is an option whose value may still come, with the value if it has
come. -/
structure Scan where
  config : Option String := none
  validate : Bool := false
  passwordFile : Option String := none
  open? : Option (Valued × Option String) := none

namespace Scan

/-- Gives an option its value. The name of a password file must not be empty. -/
def give (s : Scan) (option : Valued) (value : String) : Except OptionsError Scan :=
  match option with
  | .config =>
    if s.config.isSome then .error .argumentConflict else .ok { s with config := some value }
  | .passwordFile =>
    if s.passwordFile.isSome then .error .argumentConflict
    else if value = "" then .error .invalidValue
    else .ok { s with passwordFile := some value }

/-- Settles the option that is open, which must have its value by now. -/
def settle (s : Scan) : Except OptionsError Scan :=
  match s.open? with
  | none => .ok s
  | some (option, some value) => { s with open? := none }.give option value
  | some (_, none) => .error .invalidValue

/-- Reads an option, with the value from its own word if there is one. -/
def take (s : Scan) (flag : Flag) (attached : Option String) : Except OptionsError Scan :=
  match flag, attached with
  | .valued option, some value => do (← s.settle).give option value
  | .valued option, none => do return { ← s.settle with open? := some (option, none) }
  | _, some _ => .error .tooManyValues
  | .validate, none => do
    let s ← s.settle
    if s.validate then .error .argumentConflict else return { s with validate := true }
  | .help, none => do
    let _ ← s.settle
    .error .displayHelp
  | .version, none => do
    let _ ← s.settle
    .error .displayVersion

/-- Reads a word behind two dashes: a name, and a value behind the first equals sign. -/
def long (s : Scan) (cs : List Char) : Except OptionsError Scan :=
  let attached :=
    match cs.dropWhile (· ≠ '=') with
    | _ :: value => some (String.ofList value)
    | [] => none
  match Flag.ofName? (String.ofList (cs.takeWhile (· ≠ '='))) with
  | some flag => s.take flag attached
  | none => .error .unknownArgument

/-- Reads a word behind one dash: a letter, and a value directly behind it or behind an equals
sign. A flag decides the word, whatever stands behind it. -/
def short (s : Scan) (letter : Char) (rest : List Char) : Except OptionsError Scan :=
  match Flag.ofLetter? letter with
  | some (.valued option) =>
    let attached :=
      match rest with
      | [] => none
      | '=' :: value => some (String.ofList value)
      | value => some (String.ofList value)
    s.take (.valued option) attached
  | some flag => s.take flag none
  | none => .error .unknownArgument

/-- Reads a word that is no option, which must be the value of the option that is open. -/
def bare (s : Scan) (word : String) : Except OptionsError Scan :=
  match s.open? with
  | some (option, none) => .ok { s with open? := some (option, some word) }
  | _ => .error .unknownArgument

/-- Reads one word. -/
def word (s : Scan) (w : String) : Except OptionsError Scan :=
  match w.toList with
  | '-' :: '-' :: cs => s.long cs
  | '-' :: letter :: rest => s.short letter rest
  | _ => s.bare w

/-- Reads all words. Behind a word of two dashes alone every word would stand alone. -/
def words (s : Scan) : List String → Except OptionsError Scan
  | [] => s.settle
  | w :: rest =>
    -- nothing may stand alone, so nothing may follow
    if w = "--" then if rest.isEmpty then s.settle else .error .unknownArgument
    else do (← s.word w).words rest

end Scan

/-- The configuration file that is read if no other is named. -/
def defaultConfig : String := "config.yaml"

/-- The options of a command line. The environment may name the configuration file. -/
def parse (argv : List String) (env : Environment) : Except OptionsError Options := do
  let s ← ({} : Scan).words argv
  let config := s.config.or (env.value? Environment.configVariable)
  return ⟨config.getD defaultConfig, s.validate, s.passwordFile⟩

end Options

end Rollbook
