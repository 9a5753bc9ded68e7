import GuardedRepl.CommandLine.Arguments
import GuardedRepl.CommandLine.Shell

/-!
# The program

From the arguments and the input to what is printed and to the exit code.
-/

namespace GuardedRepl
namespace CommandLine

/-- The lines of an input, each with its line end. -/
def linesOf (bytes : List UInt8) : List (List UInt8) :=
  go [] [] bytes
where
  /-- Goes on after the lines of `done` and the bytes of `current`, the last one first. -/
  go (done : List (List UInt8)) (current : List UInt8) : List UInt8 → List (List UInt8)
    | [] => (if current.isEmpty then done else current.reverse :: done).reverse
    | b :: bs =>
      if b = 10 then go ((b :: current).reverse :: done) [] bs else go done (b :: current) bs

/-- The end of the program. -/
structure Outcome where
  exitCode : Nat
  printed : Printed
  files : Files.Tree

/-- The end by a failure, after the text `p` was printed. -/
def Outcome.failed (f : Failure) (p : Printed) (files : Files.Tree) : Outcome :=
  ⟨1, p.then { err := f.text }, files⟩

/-- Runs the commands on lines of input, after the text `p` was printed. -/
def runLines (w : World) (p : Printed) (s : Shell Interpreter) : List (List UInt8) → Outcome
  | [] => ⟨0, p, s.files⟩
  | bytes :: rest =>
    match s.line w bytes with
    | (q, .ok s) => runLines w (p.then q) s rest
    | (q, .error f) => .failed f (p.then q) s.files

/-- Runs a single command. -/
def runCommand (w : World) (s : Shell Interpreter) (command : String) : Outcome :=
  let step := s.run w command
  match step.error with
  | none => ⟨0, step.printed, step.shell.files⟩
  | some e => .failed { message := e.message } step.printed step.shell.files

/-- Runs the program on arguments and an input. -/
def runProgram (w : World) (args : List String) (input : List UInt8) : Outcome :=
  match Order.ofArguments args with
  | none => ⟨2, { err := usageText }, w.files⟩
  | some .help => ⟨0, { out := helpText }, w.files⟩
  | some .version => ⟨0, { out := versionText }, w.files⟩
  | some (.run config command) =>
    match Shell.start w config, command with
    | .error f, _ => .failed f {} w.files
    | .ok s, some command => runCommand w s command
    | .ok s, none => runLines w {} s (linesOf input)

end CommandLine
end GuardedRepl
