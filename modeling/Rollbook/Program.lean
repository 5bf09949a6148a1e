import Rollbook.Options
import Rollbook.Secret

/-!
# Rollbook — the program

What the program does with its command line, its environment and its files, up to the point where
it would connect to a database server. Each stage may end it: the options, the settings, their
validation, and the password.
-/

namespace Rollbook.Program

/-- How a run ends: with an exit code and what it printed, or with all it takes to connect. -/
inductive Ending where
  | exit (code : UInt8) (output error : String)
  | connect (settings : Settings) (secret : Secret)

/-- The name and version line. -/
def versionLine : String := "campus-auth 0.1.0\n"

/-- The help text. -/
def helpText : String :=
  "Transaction-scoped account storage for school administration services\n\n"
    ++ "Usage: campus-auth [OPTIONS]\n\nOptions:\n"
    ++ "  -f, --config <CONFIG>                Path to configuration file "
    ++ "[env: CAMPUS_AUTH_CONFIG=] [default: config.yaml]\n"
    ++ "      --validate                       Validate configuration and exit without "
    ++ "connecting to the database\n"
    ++ "      --password-file <PASSWORD_FILE>  File containing the database password. "
    ++ "Trailing newlines are ignored\n"
    ++ "  -h, --help                           Print help\n"
    ++ "  -V, --version                        Print version\n"

/-- The end of a run whose options are wrong or ask for a text. -/
def endOfOptions : OptionsError → Ending
  | .displayHelp => .exit 0 helpText ""
  | .displayVersion => .exit 0 versionLine ""
  | e => .exit 2 "" s!"error: {e.message}\n\nFor more information, try '--help'.\n"

/-- The end of a run that fails. -/
def fail (message : String) : Ending := .exit 1 "" s!"Error: {message}\n"

/-- The end of a run without settings. A variable without a value breaks the run off. -/
def endOfLoad (e : LoadError) : Ending :=
  match e.cause with
  | .unusableVariable => .exit 101 "" s!"{e.message}\n"
  | _ => fail e.message

/-- The stages after the options, with the content of the configuration file and of the password
file. -/
def runWith (options : Options) (env : Environment) (config password : FileContent) : Ending :=
  match Settings.load (.ofContent config) env with
  | .error e => endOfLoad e
  | .ok settings =>
    match settings.check with
    | .error e => fail e.message
    | .ok () =>
      if options.validate then .exit 0 "Configuration is valid.\n" ""
      else
        match Secret.load options.passwordFile password env with
        | .error e => fail e.message
        | .ok secret => .connect settings secret

/-- The run of a command line in any monad that can read the two files. Neither is read before the
options are known. -/
def runM {m : Type → Type} [Monad m] (argv : List String) (env : Environment)
    (readConfig readPassword : String → m FileContent) : m Ending :=
  match Options.parse argv env with
  | .error e => return endOfOptions e
  | .ok options => do
    let config ← readConfig options.config
    let password ← readPassword (options.passwordFile.getD "")
    return runWith options env config password

/-- The run of a command line on files whose contents are known. -/
def run (argv : List String) (env : Environment) (readFile : String → FileContent) : Ending :=
  runM (m := Id) argv env readFile readFile

end Rollbook.Program
