import GuardedRepl.Machine.Exec
import GuardedRepl.Source.Fragment
import GuardedRepl.Source.Lexer
import GuardedRepl.Syntax.Parser

/-!
# The interpreter

A command is cut into fragments, and each of them is read, looked up and run as one snippet.  Each
snippet gets the next number, whether it is accepted or not.
-/

namespace GuardedRepl

open Machine (Host Effect Entry Interrupt Progress)

/-- A session together with what is known of its snippets. -/
structure Interpreter where
  session : Session := {}
  nextId : Nat := 1
  /-- The diagnostics of the snippets that have any, the last one first. -/
  findings : List (Nat × List Diagnostic) := []
  isClosed : Bool := false
  progress : Progress := {}

/-- The outcome of a command. -/
structure Evaluation where
  events : List Event
  /-- The effects in the order in which they happened. -/
  effects : List Effect
  interpreter : Interpreter

namespace Interpreter

/-- The exception of a snippet that the host stopped. -/
def stopped : Thrown :=
  ⟨"Stopped", "evaluation stopped by host"⟩

/-- How an interrupt is reported. -/
def thrownBy : Interrupt → Thrown
  | .thrown e => e.thrown
  | .stopped => stopped
  | .unbound name => ⟨"java.lang.NoSuchFieldError", name⟩
  | .exhausted => stopped

/-- The kind of a snippet. -/
def kindOf : Syntax.TopLevel Source.Span → SnippetKind
  | .importing _ _ => .importing
  | .stmt (.simple (.declare d)) => .variable d.name.name
  | .stmt (.simple (.expr _)) => .expression
  | .stmt _ => .statement

/-- The diagnostics of a snippet. -/
def diagnostics (i : Interpreter) (id : Nat) : List Diagnostic :=
  (i.findings.lookup id).getD []

/-- Keeps the diagnostics of the next snippet, and counts it. -/
def issue (i : Interpreter) (ds : List Diagnostic) : Interpreter :=
  { i with
    nextId := i.nextId + 1
    findings := if ds.isEmpty then i.findings else (i.nextId, ds) :: i.findings }

/-- A fault as a diagnostic of a snippet. -/
def diagnosticOf (snippet : Nat) (f : Source.Fault) : Diagnostic :=
  ⟨snippet, .error, f.span.start, f.span.stop, f.cause.message⟩

/-- The syntax tree of a text. -/
def read (text : List Char) : Except Source.Fault (Syntax.TopLevel Source.Span) :=
  Source.tokenize text >>= Syntax.parse

/-- The events of a snippet that ran. -/
def eventsOf (snippet : Snippet) : Except Interrupt Machine.Finished → List Event
  | .error e => [.failed snippet (thrownBy e)]
  | .ok finished =>
    .valid snippet (finished.value.bind Value.render) ::
      (finished.displaced.map fun owner => Event.overwritten owner snippet.id).toList

/-- What has become of a part of a command: the events and the effects, the last one first, and
whether the host stopped it. -/
structure Portion where
  events : List Event
  effects : List Entry
  isStopped : Bool
  interpreter : Interpreter

/-- Runs a program as the next snippet. -/
def run (i : Interpreter) (host : Host) (snippet : Snippet) (p : Program.TopLevel) : Portion :=
  match Machine.runTop snippet p host { session := i.session, progress := i.progress } with
  | (outcome, s) =>
    { events := (eventsOf snippet outcome).reverse
      effects := s.effects
      isStopped := match outcome with
        | .error .stopped => true
        | .error .exhausted => true
        | _ => false
      interpreter := { i with session := s.session, progress := s.progress } }

/-- Evaluates a fragment. -/
def evalFragment (i : Interpreter) (host : Host) (text : List Char) : Portion :=
  let snippet (kind : SnippetKind) : Snippet := ⟨i.nextId, kind, String.ofList text⟩
  match read text with
  | .error f => ⟨[.rejected (snippet .statement)], [], false, i.issue [diagnosticOf i.nextId f]⟩
  | .ok tree =>
    let snippet := snippet (kindOf tree)
    let checked := Program.resolve i.session.names tree
    let i := i.issue (checked.findings.map (Program.Finding.diagnostic i.nextId))
    match checked.result with
    | none => ⟨[.rejected snippet], [], false, i⟩
    | some p => i.run host snippet p

/-- Evaluates fragments in turn, unless the host says to stop.  The events and effects of `done`
come before theirs. -/
def evalFragments (host : Host) (done : Portion) : List (List Char) → Portion
  | [] => done
  | text :: texts =>
    if host.stops done.interpreter.progress then done
    else
      let new := done.interpreter.evalFragment host text
      let done := { new with
        events := new.events ++ done.events
        effects := new.effects ++ done.effects }
      if new.isStopped then done else evalFragments host done texts

/-- Evaluates a command. -/
def eval (i : Interpreter) (host : Host) (command : String) : Evaluation :=
  if i.isClosed then ⟨[], [], i⟩
  else
    let texts := (Source.fragments command.toList).map Source.Fragment.text
    let all := evalFragments host ⟨[], [], false, i⟩ texts
    ⟨all.events.reverse, (all.effects.map Entry.effect).reverse, all.interpreter⟩

/-- Closes an interpreter for good. -/
def close (i : Interpreter) : Interpreter :=
  { i with session := {}, findings := [], isClosed := true }

/-- An interpreter in words. -/
def describe (i : Interpreter) : String :=
  "Interpreter \x7b next_id: " ++ toString i.nextId ++ ", variables: " ++
    toString i.session.vars.length ++ ", closed: " ++ toString i.isClosed ++ ", .. \x7d"

end Interpreter

end GuardedRepl
