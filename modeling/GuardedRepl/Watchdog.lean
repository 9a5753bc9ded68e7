/-!
# The watchdog

An action runs against a deadline.  If it is not finished by then, it is told to stop, and it gets a
grace period to wind down; its result is then discarded.  Time is counted in milliseconds from the
start of the action, and an end at the very moment of a limit is in time.
-/

namespace GuardedRepl

/-- The two limits of a watched run, in milliseconds. -/
structure Watchdog where
  deadline : Nat
  grace : Nat
deriving DecidableEq, Repr

/-- How an action behaves in time. -/
structure Action (α : Type) where
  /-- When it finishes if it is left alone, and what it yields. -/
  finish : Option (Nat × α)
  /-- How long after the signal to stop it ends, if it heeds the signal. -/
  stopDelay : Option Nat

/-- The end of a watched run. -/
inductive Watched (α : Type) where
  /-- The action finished in time. -/
  | finished (value : α)
  /-- The deadline passed; `stopped` tells whether the action ended within the grace period. -/
  | timedOut (stopped : Bool)
deriving DecidableEq, Repr

/-- The end of a watched run, the time it took, and the number of signals to stop. -/
structure WatchReport (α : Type) where
  outcome : Watched α
  elapsed : Nat
  stopCalls : Nat
deriving DecidableEq, Repr

namespace Watchdog

/-- When an action ends that has been told to stop at time `t`: by itself or by the signal,
whichever is first. -/
def endAfterStop {α : Type} (t : Nat) (a : Action α) : Option Nat :=
  match a.finish, a.stopDelay with
  | some (w, _), some d => some (min w (t + d))
  | some (w, _), none => some w
  | none, some d => some (t + d)
  | none, none => none

/-- What remains to be done once the deadline has passed. -/
def forceStop {α : Type} (w : Watchdog) (a : Action α) : WatchReport α :=
  match endAfterStop w.deadline a with
  | some t =>
    if t ≤ w.deadline + w.grace then ⟨.timedOut true, t, 1⟩
    else ⟨.timedOut false, w.deadline + w.grace, 1⟩
  | none => ⟨.timedOut false, w.deadline + w.grace, 1⟩

/-- Runs an action under the watchdog. -/
def watch {α : Type} (w : Watchdog) (a : Action α) : WatchReport α :=
  match a.finish with
  | some (t, value) => if t ≤ w.deadline then ⟨.finished value, t, 0⟩ else w.forceStop a
  | none => w.forceStop a

/-- The message of a missed deadline. -/
def timeoutMessage (w : Watchdog) : String :=
  "evaluation exceeded the " ++ toString w.deadline ++ "ms deadline"

end Watchdog

end GuardedRepl
