import GuardedRepl.Files.Tree
import GuardedRepl.Session.State
import GuardedRepl.Value.Exception

/-!
# The machine

Programs run on a machine that holds the session, the local variables and a log of the effects.  The
host around it decides accesses, tells when to stop, and answers for the clock and the files.  A run
comes to its end, or it is interrupted: by an exception or by the host.
-/

namespace GuardedRepl
namespace Machine

/-- How far an interpreter has come: how often it has asked the host whether to stop, for an access,
and for the time, and how many milliseconds it has slept. -/
structure Progress where
  polls : Nat := 0
  checks : Nat := 0
  readings : Nat := 0
  slept : Nat := 0
deriving DecidableEq, Repr

/-- What a program can ask of the world around it.  Every question is answered: a reading of a file
yields its content, and the time that a program sleeps goes by. -/
structure Host where
  /-- The answer to an access, given the number of accesses asked for before. -/
  gate : Nat → Access → Option Denial
  /-- Whether to stop. -/
  stops : Progress → Bool
  /-- The time in nanoseconds, given the number of readings before. -/
  clock : Nat → Nat
  processors : Int64
  files : Files.Tree
  /-- The number of rounds that a loop may take. -/
  fuel : Nat

/-- What can be noticed of a run from outside. -/
inductive Effect where
  | checked (a : Access)
  | written (s : Stream) (text : String)
deriving DecidableEq, Repr

/-- An effect, and how often the host had been asked before it whether to stop. -/
structure Entry where
  polls : Nat
  effect : Effect
deriving DecidableEq, Repr

/-- Why a run ends early. -/
inductive Interrupt where
  | thrown (e : Exception)
  /-- The host says so. -/
  | stopped
  /-- A variable is missing. -/
  | unbound (name : String)
  /-- A loop takes too many rounds. -/
  | exhausted
deriving DecidableEq, Repr

/-- The local variables of one block, the last one first. -/
abbrev Frame := List (String × Value)

/-- The state of a run. -/
structure State where
  session : Session
  /-- The local variables, block by block from the inside. -/
  frames : List Frame := []
  progress : Progress := {}
  /-- The effects so far, the last one first. -/
  effects : List Entry := []

/-- A run: an outcome and a new state. -/
def Run (α : Type) : Type :=
  Host → State → Except Interrupt α × State

namespace Run

variable {α β : Type}

/-- The run that yields a value at once. -/
@[always_inline, inline]
def result (a : α) : Run α :=
  fun _ s => (.ok a, s)

/-- One run after another, unless the first one is interrupted. -/
@[always_inline, inline]
def andThen (x : Run α) (f : α → Run β) : Run β :=
  fun h s =>
    match x h s with
    | (.ok a, s) => f a h s
    | (.error e, s) => (.error e, s)

@[always_inline]
instance : Monad Run where
  pure := result
  bind := andThen

/-- Interrupts the run. -/
def interrupt (e : Interrupt) : Run α :=
  fun _ s => (.error e, s)

/-- Throws an exception. -/
def throw (e : Exception) : Run α :=
  interrupt (.thrown e)

/-- The run of a computation that may throw. -/
def lift : Except Exception α → Run α
  | .ok a => result a
  | .error e => throw e

/-- The files of the host. -/
def files : Run Files.Tree :=
  fun h s => (.ok h.files, s)

/-- The number of processors of the host. -/
def processors : Run Int64 :=
  fun h s => (.ok h.processors, s)

/-- Reads something off the state. -/
def gets (f : State → α) : Run α :=
  fun _ s => (.ok (f s), s)

/-- Changes the state. -/
def modify (f : State → State) : Run Unit :=
  fun _ s => (.ok (), f s)

/-- Asks the host whether to stop. -/
def poll : Run Unit :=
  fun h s =>
    let s := { s with progress := { s.progress with polls := s.progress.polls + 1 } }
    if h.stops s.progress then (.error .stopped, s) else (.ok (), s)

/-- Asks the host for an access. -/
def check (a : Access) : Run Unit :=
  fun h s =>
    let answer := h.gate s.progress.checks a
    let s := { s with
      progress := { s.progress with checks := s.progress.checks + 1 }
      effects := ⟨s.progress.polls, .checked a⟩ :: s.effects }
    match answer with
    | some d => (.error (.thrown (.denied d)), s)
    | none => (.ok (), s)

/-- Writes to a stream. -/
def write (stream : Stream) (text : String) : Run Unit :=
  modify fun s => { s with effects := ⟨s.progress.polls, .written stream text⟩ :: s.effects }

/-- The time in nanoseconds. -/
def readClock : Run Nat :=
  fun h s =>
    (.ok (h.clock s.progress.readings),
      { s with progress := { s.progress with readings := s.progress.readings + 1 } })

/-- The length of the slices that a sleep is cut into, in milliseconds. -/
def slice : Nat := 10

/-- Lets a number of milliseconds pass. -/
def doze (ms : Nat) : Run Unit :=
  modify fun s => { s with progress := { s.progress with slept := s.progress.slept + ms } }

/-- Sleeps slice by slice, asking the host before each slice and at the end whether to stop. -/
def sleep (ms : Nat) : Run Unit := do
  poll
  if ms = 0 then return ()
  else do
    doze (min slice ms)
    sleep (ms - slice)
termination_by ms
decreasing_by simp only [slice]; omega

/-- Runs something in a block of its own. -/
def inBlock (x : Run α) : Run α :=
  fun h s =>
    match x h { s with frames := [] :: s.frames } with
    | (r, s) => (r, { s with frames := s.frames.tail })

/-- Repeats a round as long as it says so, up to a number of times. -/
def rounds (round : Run Bool) : Nat → Run Unit
  | 0 => interrupt .exhausted
  | n + 1 => fun h s =>
    match round h s with
    | (.ok true, s) => rounds round n h s
    | (.ok false, s) => (.ok (), s)
    | (.error e, s) => (.error e, s)

/-- Repeats a round as long as it says so. -/
def repeated (round : Run Bool) : Run Unit :=
  fun h => rounds round h.fuel h

end Run

namespace State

/-- The value of a variable in the innermost block that has it. -/
def lookupIn (name : String) : List Frame → Option Value
  | [] => none
  | frame :: frames =>
    match frame.lookup name with
    | some v => some v
    | none => lookupIn name frames

/-- Gives a new value to the variable in the innermost block that has it. -/
def assignIn (name : String) (value : Value) : List Frame → Option (List Frame)
  | [] => none
  | frame :: frames =>
    if (frame.lookup name).isSome then
      some (frame.map (fun (n, v) => if n = name then (n, value) else (n, v)) :: frames)
    else (assignIn name value frames).map (frame :: ·)

/-- The value of a variable. -/
def lookup (s : State) (name : String) : Option Value :=
  match lookupIn name s.frames with
  | some v => some v
  | none => (s.session.find? name).map Variable.value

/-- Gives a variable a new value. -/
def assign (s : State) (name : String) (value : Value) : Option State :=
  match assignIn name value s.frames with
  | some frames => some { s with frames }
  | none =>
    if (s.session.find? name).isSome then some { s with session := s.session.assign name value }
    else none

/-- Declares a variable in the innermost block. -/
def declareLocal (s : State) (name : String) (value : Value) : State :=
  { s with
    frames := match s.frames with
      | [] => []
      | frame :: frames => ((name, value) :: frame.filter fun (n, _) => n ≠ name) :: frames }

end State

namespace Run

/-- The value of a variable. -/
def lookup (name : String) : Run Value := do
  match ← gets (·.lookup name) with
  | some v => return v
  | none => interrupt (.unbound name)

/-- Gives a variable a new value. -/
def assign (name : String) (value : Value) : Run Unit :=
  fun _ s =>
    match s.assign name value with
    | some s => (.ok (), s)
    | none => (.error (.unbound name), s)

/-- Declares a variable in the innermost block. -/
def declareLocal (name : String) (value : Value) : Run Unit :=
  modify (·.declareLocal name value)

end Run

end Machine
end GuardedRepl
