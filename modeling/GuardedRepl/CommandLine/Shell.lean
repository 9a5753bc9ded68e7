import GuardedRepl.CommandLine.Failure
import GuardedRepl.Config.Load
import GuardedRepl.Evaluator
import GuardedRepl.Reply
import GuardedRepl.Session.Engine

/-!
# The shell

Runs commands one after the other and says what is to be printed.  An evaluator that can no longer
be used is replaced by a new one.  The audit trail goes to a file, which snippets can see like any
other file.
-/

namespace GuardedRepl
namespace CommandLine

/-- The world around the shell. -/
structure World where
  environment : Environment
  files : Files.Tree
  /-- The time in nanoseconds, given the number of readings before. -/
  clock : Nat → Nat
  processors : Int64

/-- Text for the two outputs of the program and for the end of the audit file. -/
structure Printed where
  out : String := ""
  err : String := ""
  audit : String := ""
deriving DecidableEq, Repr

/-- One text after another. -/
def Printed.then (p q : Printed) : Printed :=
  ⟨p.out ++ q.out, p.err ++ q.err, p.audit ++ q.audit⟩

/-- A shell at work, with an engine whose states are of type `σ`. -/
structure Shell (σ : Type) where
  config : Config
  files : Files.Tree
  /-- The file of the audit trail, if there is one. -/
  auditFile : Option (List String)
  evaluator : Evaluator σ

namespace Shell

variable {σ : Type}

/-- The file of the configuration, and whether it must exist. -/
def configFile (env : Environment) (named : Option String) : Files.Path × Bool :=
  match named, env.lookup "SNIPBOX_CONFIG" with
  | some path, _ => (⟨path⟩, true)
  | none, some path => (⟨path⟩, true)
  | none, none => (⟨"config/default.toml"⟩, false)

/-- The configuration that is in effect. -/
def configure (w : World) (named : Option String) : Except Failure Config :=
  let (path, required) := configFile w.environment named
  let load := if required then Config.loadRequired else Config.load
  (load w.files w.environment path).mapError (Failure.ofConfig path.text)

/-- The path of the file of the audit trail, if there is to be one. -/
def auditPath? (c : Config) : Option Files.Path :=
  match c.auditEnabled, c.auditDestination with
  | true, .file path => some ⟨path⟩
  | _, _ => none

/-- Whether the policy of a configuration lets snippets look at files. -/
def showsFiles (c : Config) : Bool :=
  match c.filter with
  | .ok f =>
    ["java.io.File", "java.nio.file.Files"].any fun name => f.check (.cls name) = .allow
  | .error _ => false

/-- A new evaluator for a configuration and an engine, and the file of its audit trail, which is
made if it is missing. -/
def equip (c : Config) (engine : σ) (files : Files.Tree) : Except Failure (Shell σ) := do
  let evaluator ← (Evaluator.build c (.ok engine) c.auditEnabled).mapError fun e =>
    { message := "failed to build evaluator", causes := [e.message] }
  match auditPath? c with
  | none => return ⟨c, files, none, evaluator⟩
  | some path =>
    let names ← (files.opened path).mapError fun o =>
      { message := "failed to open audit log " ++ path.text, causes := [o.message] }
    return ⟨c, files.append names [], some names, evaluator⟩

/-- A shell for the configuration that is in effect. -/
def start (w : World) (named : Option String) : Except Failure (Shell Interpreter) := do
  equip (← configure w named) {} w.files

/-- Goes over to a new state of the evaluator.  What it added to the audit trail goes to the
file. -/
def advance (s : Shell σ) (ev : Evaluator σ) : String × Shell σ :=
  match s.auditFile with
  | none => ("", { s with evaluator := ev })
  | some names =>
    let added := ev.entries.drop s.evaluator.entries.length
    let lines := String.join (added.map fun e => e.toJson ++ "\n")
    (lines, { s with
      evaluator := ev
      files := s.files.append names (Text.Utf8.encode lines.toList) })

/-- What is printed for a result: the reply, and the diagnostics of refused snippets. -/
def textOf (diagnostics : Nat → List Diagnostic) (r : EvalResult) : String :=
  let reply := Reply.ofResult r.events r.output
  let listings := r.events.filterMap fun e =>
    let ds := diagnostics e.snippet.id
    if e.status = .rejected && !ds.isEmpty then some (Reply.ofDiagnostics e.snippet.id ds) else none
  String.join (((if reply = "" then [] else [reply]) ++ listings).map (· ++ "\n"))

/-- The diagnostics of a snippet, as far as they can still be had. -/
def diagnosticsOf (E : Engine σ) (ev : Evaluator σ) (id : Nat) : List Diagnostic :=
  match ev.diagnostics E id with
  | (.ok ds, _) => ds
  | (.error _, _) => []

/-- What comes of a command: the error if there is one, what is printed, and the shell
afterwards. -/
structure Step (σ : Type) where
  error : Option EvalError
  printed : Printed
  shell : Shell σ

/-- Evaluates a command on an engine.  The time of day is for the audit trail. -/
def evaluate (E : Engine σ) (timestamp : String) (s : Shell σ) (command : String) : Step σ :=
  let (result, ev) := s.evaluator.eval E timestamp command
  let (audit, s) := s.advance ev
  match result with
  | .ok r => ⟨none, { out := textOf (diagnosticsOf E ev) r, audit }, s⟩
  | .error e => ⟨some e, { err := "error: " ++ e.message ++ "\n", audit }, s⟩

/-- Runs a command on the interpreter. -/
def run (w : World) (s : Shell Interpreter) (command : String) : Step Interpreter :=
  let E := Interpreter.engine { clock := w.clock, processors := w.processors, files := s.files }
  s.evaluate E (toString (w.clock 0 / 1000000000)) command

/-- The text of a line of input, without its end. -/
def lineText (bytes : List UInt8) : Except Failure (List Char) := do
  let cs ← (Text.Utf8.decode bytes).mapError Failure.ofFault
  match cs.reverse with
  | '\n' :: '\r' :: back => return back.reverse
  | '\n' :: back => return back.reverse
  | _ => return cs

/-- Runs the command on a line of input, unless the line is blank. -/
def line (w : World) (s : Shell Interpreter) (bytes : List UInt8) :
    Printed × Except Failure (Shell Interpreter) :=
  match lineText bytes with
  | .error f => ({}, .error f)
  | .ok text =>
    if (Text.trim text).isEmpty then ({}, .ok s)
    else
      let step := s.run w (String.ofList text)
      (step.printed,
        if step.error.any EvalError.isTerminal then equip s.config {} step.shell.files
        else .ok step.shell)

end Shell

end CommandLine
end GuardedRepl
