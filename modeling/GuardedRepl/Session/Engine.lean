import GuardedRepl.Engine
import GuardedRepl.Session.Interpreter
import GuardedRepl.Text.Utf8

/-!
# The interpreter as an engine

Time passes for the interpreter while it sleeps and whenever it asks whether to stop.  It is told to
stop once its deadline has passed, and it ends as soon as it asks again.
-/

namespace GuardedRepl

open Machine (Host Effect Progress)

/-- The world around an interpreter, as far as an evaluator has no say in it. -/
structure Surroundings where
  /-- The time in nanoseconds, given the number of readings before. -/
  clock : Nat → Nat
  processors : Int64
  files : Files.Tree

namespace Interpreter

/-- The number of questions whether to stop that pass in a millisecond. -/
def pollsPerMs : Nat := 200

/-- The milliseconds that pass between two stages of an interpreter. -/
def elapsed (first last : Progress) : Nat :=
  (last.slept - first.slept) + (last.polls - first.polls) / pollsPerMs

/-- The bytes that effects put into a stream. -/
def outputOf (effects : List Effect) : List UInt8 :=
  effects.flatMap fun
    | .written _ text => Text.Utf8.encode text.toList
    | .checked _ => []

/-- The host of an interpreter that is to stop after a number of milliseconds.  A loop asks at least
once a round whether to stop, so the fuel lasts until then. -/
def hostUntil (w : Surroundings) (i : Interpreter) (gate : Access → Option Denial)
    (deadline : Nat) : Host where
  gate _ := gate
  stops p := deadline < elapsed i.progress p
  clock := w.clock
  processors := w.processors
  files := w.files
  fuel := (deadline + 2) * pollsPerMs

/-- What the interpreter does about a command. -/
def work (w : Surroundings) (i : Interpreter) (gate : Access → Option Denial) (deadline : Nat)
    (command : String) : Work Interpreter :=
  let e := i.eval (hostUntil w i gate deadline) command
  let time := elapsed i.progress e.interpreter.progress
  { output := outputOf e.effects
    action :=
      if time ≤ deadline then ⟨some (time, .returned e.events e.interpreter), some 0⟩
      else ⟨none, some (time - deadline)⟩ }

/-- The interpreter as an engine. -/
def engine (w : Surroundings) : Engine Interpreter where
  eval := work w
  diagnostics := diagnostics

end Interpreter

end GuardedRepl
