import GuardedRepl.Policy.Filter

/-!
# The sandbox

A sandbox decides accesses by its filter while an action runs inside it, and denies every access
otherwise.  Only one action can run at a time.  When the action ends, in whatever way, the sandbox
is inactive again.
-/

namespace GuardedRepl

/-- A filter together with whether an action is running under it. -/
structure Sandbox where
  filter : Filter
  active : Bool := false
deriving DecidableEq, Repr

namespace Sandbox

/-- The text of the refusal to run an action inside another one. -/
def alreadyActive : String :=
  "a sandboxed action is already running"

/-- The answer to an access: a denial, or nothing if it is allowed. -/
def check (s : Sandbox) (a : Access) : Option Denial :=
  if s.active then
    match s.filter.check a with
    | .allow => none
    | .deny reason => some ⟨"access denied: " ++ reason⟩
  else some ⟨a.describe ++ " denied: restricted context is not active"⟩

/-- Begins an action, unless one is running. -/
def enter? (s : Sandbox) : Option Sandbox :=
  if s.active then none else some { s with active := true }

/-- Ends the running action. -/
def leave (s : Sandbox) : Sandbox :=
  { s with active := false }

/-- What an action does, as far as the sandbox can see. -/
inductive Step where
  /-- Asks whether an action is running. -/
  | probe
  /-- Asks for an access. -/
  | check (a : Access)
  /-- Asks for an action of its own to be run. -/
  | run (steps : List Step)
  /-- Breaks off the action it belongs to. -/
  | panic
deriving Inhabited

/-- The answer to one step. -/
inductive Answer where
  | active (b : Bool)
  | checked (denial : Option Denial)
  /-- The action ran to its end, with the answers to its steps. -/
  | ran (answers : List Answer)
  /-- The action broke off. -/
  | broken
  /-- No action was begun, since one was running. -/
  | refused
deriving Inhabited

mutual

/-- Performs one step.  The answer is `none` if the step breaks off the action around it. -/
def perform (s : Sandbox) : Step → Option Answer × Sandbox
  | .probe => (some (.active s.active), s)
  | .check a => (some (.checked (s.check a)), s)
  | .panic => (none, s)
  | .run steps =>
    match s.enter? with
    | none => (some .refused, s)
    | some inside =>
      match performAll inside steps with
      | (some answers, after) => (some (.ran answers), after.leave)
      | (none, after) => (some .broken, after.leave)

/-- Performs steps one after the other, until one of them breaks off the action. -/
def performAll (s : Sandbox) : List Step → Option (List Answer) × Sandbox
  | [] => (some [], s)
  | step :: steps =>
    match perform s step with
    | (none, after) => (none, after)
    | (some answer, after) =>
      match performAll after steps with
      | (none, last) => (none, last)
      | (some answers, last) => (some (answer :: answers), last)

end

end Sandbox

end GuardedRepl
