/-!
# Snippets and what becomes of them

A command falls apart into snippets.  Each snippet gets a number and a kind, and running it yields
an event; a snippet that redefines a variable also yields an event for the snippet that defined it
before.  Diagnostics are kept apart, by the number of their snippet.
-/

namespace GuardedRepl

/-- What a snippet is. -/
inductive SnippetKind where
  | importing
  /-- A declaration of a session variable. -/
  | variable (name : String)
  | expression
  | statement
deriving DecidableEq, Repr

/-- One unit of a command, numbered within its session. -/
structure Snippet where
  id : Nat
  kind : SnippetKind
  source : String
deriving DecidableEq, Repr

/-- How a snippet fared. -/
inductive Status where
  /-- It was accepted, and it may have thrown. -/
  | valid
  /-- It was refused before it ran. -/
  | rejected
  /-- A later snippet took over its variable. -/
  | overwritten
deriving DecidableEq, Repr

/-- An exception, by class and message. -/
structure Thrown where
  cls : String
  message : String
deriving DecidableEq, Repr

/-- An exception in words: the class, and the message if there is one. -/
def Thrown.describe (t : Thrown) : String :=
  if t.message = "" then t.cls else t.cls ++ ": " ++ t.message

/-- The outcome of one snippet. -/
structure Event where
  snippet : Snippet
  status : Status
  /-- The value it produced, as text. -/
  value : Option String := none
  exception : Option Thrown := none
  /-- The snippet that overwrote it. -/
  causedBy : Option Nat := none
deriving DecidableEq, Repr

namespace Event

/-- A snippet that ran to its end. -/
def valid (s : Snippet) (value : Option String) : Event :=
  { snippet := s, status := .valid, value }

/-- A snippet that was refused. -/
def rejected (s : Snippet) : Event :=
  { snippet := s, status := .rejected }

/-- A snippet that threw. -/
def failed (s : Snippet) (t : Thrown) : Event :=
  { snippet := s, status := .valid, exception := some t }

/-- A snippet whose variable was taken over by the snippet with number `successor`. -/
def overwritten (s : Snippet) (successor : Nat) : Event :=
  { snippet := s, status := .overwritten, causedBy := some successor }

/-- Whether the snippet was refused or threw. -/
def isFailure (e : Event) : Bool :=
  e.status = .rejected || e.exception.isSome

end Event

/-- How grave a diagnostic is. -/
inductive Severity where
  | error
  | warning
deriving DecidableEq, Repr

/-- The name of a severity. -/
def Severity.name : Severity → String
  | .error => "error"
  | .warning => "warning"

/-- A message about a stretch of a snippet's source, given by byte offsets. -/
structure Diagnostic where
  /-- The number of the snippet. -/
  snippet : Nat
  severity : Severity
  start : Nat
  stop : Nat
  message : String
deriving DecidableEq, Repr

/-- A diagnostic in words. -/
def Diagnostic.describe (d : Diagnostic) : String :=
  d.severity.name ++ " at " ++ toString d.start ++ ".." ++ toString d.stop ++ ": " ++ d.message

end GuardedRepl
