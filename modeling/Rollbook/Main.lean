import Rollbook.Program

/-!
# Rollbook — the command

The command line: reads the environment and the files that the run may ask for, and prints how the
run ends. Connecting to a database server is not part of this program.
-/

namespace Rollbook.Command

/-- The variables of a block of `name=value` texts, each ended by a zero byte. -/
def environmentOfBlock (block : String) : Environment :=
  let binding? (text : List Char) : Option (String × String) :=
    match text.dropWhile (· ≠ '=') with
    | _ :: value => some (String.ofList (text.takeWhile (· ≠ '=')), String.ofList value)
    | [] => none
  (block.toList.splitOnP (· = '\x00')).filterMap binding?

/-- The environment of the process. -/
def readEnvironment : IO Environment := do
  let block ← IO.FS.readBinFile "/proc/self/environ"
  let environment := environmentOfBlock ((String.fromUTF8? block).getD "")
  return environment.mergeSort fun a b => a.1 ≤ b.1

/-- The content of a file. A file that cannot be read counts as missing. -/
def readContent (path : String) : IO FileContent := do
  try
    return .bytes (← IO.FS.readBinFile path)
  catch _ =>
    return .missing

/-- A path, and the same path seen from each directory above the current one. -/
def fromAbove (path : String) (depth : Nat) : List String :=
  if path.startsWith "/" then [path]
  else (List.range (depth + 1)).map fun n => String.join (List.replicate n "../") ++ path

/-- The content of the first of several files that is there. -/
def readFirst : List String → IO FileContent
  | [] => return .missing
  | path :: rest => do
    match ← readContent path with
    | .bytes content => return .bytes content
    | .missing => readFirst rest

/-- The content of the configuration file, which may also lie in a directory above. -/
def readConfig (path : String) : IO FileContent := do
  let depth := ((← IO.currentDir).toString.toList.filter (· = '/')).length
  readFirst (fromAbove path depth)

end Rollbook.Command

open Rollbook Rollbook.Command

/-- Runs the command line. -/
def main (argv : List String) : IO UInt32 := do
  let env ← readEnvironment
  match ← Program.runM argv env readConfig readContent with
  | .exit code output error => do
    IO.print output
    IO.eprint error
    return code.toUInt32
  | .connect _ _ => do
    IO.eprintln "Error: this program does not connect to a database server"
    return 1
