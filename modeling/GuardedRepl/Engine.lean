import GuardedRepl.Access
import GuardedRepl.Snippet
import GuardedRepl.Watchdog

/-!
# Engines

What runs commands for an evaluator.  An engine may take its time, break down, or pay no heed to the
signal to stop; how it behaves in time is part of what it does about a command.
-/

namespace GuardedRepl

/-- How an engine ends that is left alone. -/
inductive EngineEnd (σ : Type) where
  /-- It returns events and goes over to a new state. -/
  | returned (events : List Event) (state : σ)
  | panicked

/-- What an engine does about a command: the bytes it writes before it ends or is abandoned, which
are worked out when they are wanted, and its behaviour in time. -/
structure Work (σ : Type) where
  output : Thunk (List UInt8)
  action : Action (EngineEnd σ)

/-- An engine whose states are of type `σ`. -/
structure Engine (σ : Type) where
  /-- What it does about a command, given the answers to accesses and the time, in milliseconds, at
  which it will be told to stop. -/
  eval : σ → (Access → Option Denial) → Nat → String → Work σ
  /-- The diagnostics that it recorded for a snippet. -/
  diagnostics : σ → Nat → List Diagnostic

end GuardedRepl
