import GuardedRepl.Config.Basic
import GuardedRepl.Engine
import GuardedRepl.Policy.Sandbox

/-!
# The evaluator

An evaluator runs commands on one engine: inside the sandbox, under the watchdog, and with the
output captured.  An engine that breaks down or has to be stopped is given up, and the evaluator
with it.  An engine that pays no heed to the signal to stop is abandoned; what it still writes is
never seen.
-/

namespace GuardedRepl

/-- Why a call of an evaluator fails. -/
inductive EvalError where
  | config (e : ConfigError)
  /-- The engine could not be set up. -/
  | engine (reason : String)
  /-- An action is running in the sandbox already. -/
  | sandbox
  /-- The deadline passed; `stopped` tells whether the engine ended within the grace period. -/
  | timeout (deadline : Nat) (stopped : Bool)
  | enginePanicked
  | retired
  | closed
deriving DecidableEq, Repr

namespace EvalError

/-- The message of an error. -/
def message : EvalError → String
  | config e => e.message
  | engine reason => "engine setup failed: " ++ reason
  | sandbox => Sandbox.alreadyActive
  | timeout deadline _ => Watchdog.timeoutMessage ⟨deadline, 0⟩
  | enginePanicked => "engine panicked during evaluation"
  | retired => "evaluator retired after a forced stop; build a new one"
  | closed => "evaluator is closed"

/-- Whether the evaluator can no longer be used after an error. -/
def isTerminal : EvalError → Bool
  | timeout _ _ => true
  | enginePanicked => true
  | retired => true
  | closed => true
  | _ => false

end EvalError

/-- The outcome of a command. -/
structure EvalResult where
  events : List Event
  output : String
deriving DecidableEq, Repr

/-- The number of snippets that were refused or threw. -/
def EvalResult.failures (r : EvalResult) : Nat :=
  r.events.countP Event.isFailure

/-- The phases in the life of an evaluator. -/
inductive Phase where
  | ready
  /-- The engine was stopped or broke down. -/
  | retired
  | closed
deriving DecidableEq, Repr

/-- What an evaluator asks of its engine. -/
inductive Request where
  | eval (command : String)
  | diagnostics (id : Nat)
  | close
deriving DecidableEq, Repr

/-- What an abandoned engine still does. -/
inductive Stray where
  | write (bytes : List UInt8)
  | check (a : Access)
  /-- It ends at last. -/
  | finish

/-- An evaluator with an engine whose states are of type `σ`. -/
structure Evaluator (σ : Type) where
  /-- The state of the engine, unless it has been given up. -/
  engine : Option σ
  phase : Phase
  sandbox : Sandbox
  watchdog : Watchdog
  capture : Capture
  /-- The audit trail, last entry first, if there is one. -/
  trail : Option (List AuditEntry)
  /-- What the engine has been asked for, the last request first. -/
  requests : List Request

namespace Evaluator

variable {σ : Type}

/-- An evaluator with the settings of a configuration and a new engine, if one can be set up. -/
def build (c : Config) (engine : Except String σ) (audited : Bool) :
    Except EvalError (Evaluator σ) :=
  match c.validate with
  | .error e => .error (.config e)
  | .ok filter =>
    match engine with
    | .error reason => .error (.engine reason)
    | .ok s =>
      .ok {
        engine := some s
        phase := .ready
        sandbox := { filter }
        watchdog := ⟨c.timeout, c.stopGrace⟩
        capture := .empty c.maxBytes
        trail := if audited then some [] else none
        requests := [] }

/-- The evaluator without an engine. -/
def retire (ev : Evaluator σ) (sandbox : Sandbox) : Evaluator σ :=
  { ev with engine := none, phase := .retired, sandbox, capture := ev.capture.reset }

/-- What a call yields: its result, the milliseconds it took, and the evaluator afterwards. -/
structure Call (σ : Type) where
  result : Except EvalError EvalResult
  elapsed : Nat
  next : Evaluator σ

/-- Runs a command on the engine, which is in state `s`, and gives up the engine unless it returns
in time. -/
def run (E : Engine σ) (ev : Evaluator σ) (s : σ) (command : String) : Call σ :=
  match ev.sandbox.enter? with
  | none => ⟨.error .sandbox, 0, ev⟩
  | some inside =>
    let work := E.eval s inside.check ev.watchdog.deadline command
    let report := ev.watchdog.watch work.action
    let ev := { ev with requests := .eval command :: ev.requests }
    match report.outcome with
    | .finished (.returned events s) =>
      let (output, capture) := (ev.capture.write work.output.get).drain
      ⟨.ok ⟨events, output⟩, report.elapsed,
        { ev with engine := some s, sandbox := inside.leave, capture }⟩
    | .finished .panicked => ⟨.error .enginePanicked, report.elapsed, ev.retire inside.leave⟩
    | .timedOut stopped =>
      ⟨.error (.timeout ev.watchdog.deadline stopped), report.elapsed,
        ev.retire (if stopped then inside.leave else inside)⟩

/-- Runs a command on the engine, if there still is one. -/
def perform (E : Engine σ) (ev : Evaluator σ) (command : String) : Call σ :=
  match ev.engine with
  | none => ⟨.error .retired, 0, { ev with phase := .retired }⟩
  | some s => run E ev s command

/-- The outcome of a command as the audit trail tells it. -/
def auditResult : Except EvalError EvalResult → AuditResult
  | .ok r => if r.failures = 0 then .success else .failed r.failures
  | .error (.timeout _ _) => .timeout
  | .error e => .error e.message

/-- Adds an entry to the audit trail, if there is one. -/
def record (ev : Evaluator σ) (entry : AuditEntry) : Evaluator σ :=
  { ev with trail := ev.trail.map (entry :: ·) }

/-- Evaluates a command.  The time of day is for the audit trail. -/
def eval (E : Engine σ) (ev : Evaluator σ) (timestamp command : String) :
    Except EvalError EvalResult × Evaluator σ :=
  match ev.phase with
  | .retired => (.error .retired, ev)
  | .closed => (.error .closed, ev)
  | .ready =>
    let call := perform E ev command
    (call.result,
      call.next.record (Audit.entry timestamp command (auditResult call.result) call.elapsed))

/-- The diagnostics of a snippet. -/
def diagnostics (E : Engine σ) (ev : Evaluator σ) (id : Nat) :
    Except EvalError (List Diagnostic) × Evaluator σ :=
  match ev.phase, ev.engine with
  | .ready, some s =>
    (.ok (E.diagnostics s id), { ev with requests := .diagnostics id :: ev.requests })
  | .closed, _ => (.error .closed, ev)
  | _, _ => (.error .retired, ev)

/-- Closes an evaluator, and its engine if there still is one. -/
def close (ev : Evaluator σ) : Evaluator σ :=
  match ev.engine with
  | some _ => { ev with engine := none, phase := .closed, requests := .close :: ev.requests }
  | none => { ev with phase := .closed }

/-- What an abandoned engine does to an evaluator. -/
def stray (ev : Evaluator σ) : Stray → Evaluator σ
  | .write bytes => { ev with capture := ev.capture.write bytes }
  | .check _ => ev
  | .finish => { ev with sandbox := ev.sandbox.leave }

/-- The audit trail in the order of its entries. -/
def entries (ev : Evaluator σ) : List AuditEntry :=
  (ev.trail.getD []).reverse

end Evaluator

end GuardedRepl
