import GuardedRepl.CommandLine.Program
import Std.Time.DateTime.Timestamp

/-!
# The command line program

Shows the world to the shell and prints what the shell says.  The files that are shown are the
configuration, the audit trail and, if the policy lets snippets look at files, the ones below the
working directory.
-/

namespace GuardedRepl
namespace CommandLine

/-- The variables of the environment that have a say. -/
def readEnvironment : IO Environment :=
  Config.variableNames.filterMapM fun name => return (← IO.getEnv name).map (name, ·)

/-- The bytes of a file, if it can be read. -/
def bytesOf? (path : String) : IO (Option (List UInt8)) := do
  match ← (IO.FS.readBinFile path).toBaseIO with
  | .ok bytes => return some bytes.toList
  | .error _ => return none

/-- Shows what a path leads to, if it leads anywhere. -/
def shown (files : Files.Tree) (path : String) : IO Files.Tree := do
  let place := (← IO.currentDir) / path
  if ← place.isDir then return files.reveal ⟨path⟩ none
  match ← bytesOf? path with
  | some bytes => return files.reveal ⟨path⟩ (some bytes)
  | none => return files

/-- Shows the files below a directory. -/
partial def showBelow (files : Files.Tree) (path : String) : IO Files.Tree := do
  let place := (← IO.currentDir) / path
  let mut files ← shown files path
  if ← place.isDir then
    for entry in ← place.readDir do
      files ← showBelow files (path ++ "/" ++ entry.fileName)
  return files

/-- The time in nanoseconds, given the number of readings before. -/
def readClock : IO (Nat → Nat) := do
  let now := (← Std.Time.Timestamp.now).toNanosecondsSinceUnixEpoch.toInt.toNat
  return fun n => now + n

/-- Prints text, and adds the lines of the audit trail to their file. -/
def print (audit : Option Files.Path) (p : Printed) : IO Unit := do
  let out ← IO.getStdout
  out.putStr p.out
  out.flush
  (← IO.getStderr).putStr p.err
  if let some path := audit then
    if p.audit ≠ "" then
      let file ← IO.FS.Handle.mk path.text .append
      file.putStr p.audit

/-- Prints what is left to say at the end of the program. -/
def finish (audit : Option Files.Path) (o : Outcome) : IO UInt32 := do
  print audit o.printed
  return o.exitCode.toUInt32

/-- Makes the audit file if it is missing, and shows it. -/
def openAudit (files : Files.Tree) (path : Files.Path) : IO Files.Tree := do
  match ← (IO.FS.Handle.mk path.text .append).toBaseIO with
  | .ok _ => shown files path.text
  | .error _ =>
    if ← ((← IO.currentDir) / path.text).isDir then return files.reveal path none else return files

/-- Runs the commands on the lines of the standard input. -/
partial def converse (w : World) (audit : Option Files.Path) (s : Shell Interpreter) :
    IO UInt32 := do
  let bytes ← readLine (← IO.getStdin) []
  if bytes.isEmpty then return 0
  match s.line { w with clock := ← readClock } bytes with
  | (p, .ok s) =>
    print audit p
    converse w audit s
  | (p, .error f) => finish audit (.failed f p s.files)
where
  /-- Reads bytes up to the end of a line, after the ones of `back`, the last one first. -/
  readLine (input : IO.FS.Stream) (back : List UInt8) : IO (List UInt8) := do
    let bytes := (← input.read 1).toList
    if bytes.isEmpty then return back.reverse
    else if bytes = [10] then return (10 :: back).reverse
    else readLine input (bytes ++ back)

/-- Runs a command, or else the ones on the lines of the standard input. -/
def serve (config command : Option String) : IO UInt32 := do
  let environment ← readEnvironment
  let here : Files.Tree := { workingDirectory := Files.namesOf (← IO.currentDir).toString }
  let files ← shown here (Shell.configFile environment config).1.text
  let w : World := { environment, files, clock := ← readClock, processors := 1 }
  match Shell.configure w config with
  | .error f => finish none (.failed f {} files)
  | .ok c =>
    let audit := Shell.auditPath? c
    let files ← if Shell.showsFiles c then showBelow files "." else pure files
    let files ← match audit with
      | some path => openAudit files path
      | none => pure files
    match Shell.equip c {} files, command with
    | .error f, _ => finish none (.failed f {} files)
    | .ok s, some command => finish audit (runCommand w s command)
    | .ok s, none => converse w audit s

/-- Runs the program on its arguments. -/
def runOn (args : List String) : IO UInt32 := do
  match Order.ofArguments args with
  | some (.run config command) => serve config command
  | _ =>
    let w : World :=
      { environment := [], files := { workingDirectory := [] }, clock := id, processors := 1 }
    finish none (runProgram w args [])

end CommandLine
end GuardedRepl

/-- Runs the program. -/
def main (args : List String) : IO UInt32 :=
  GuardedRepl.CommandLine.runOn args
