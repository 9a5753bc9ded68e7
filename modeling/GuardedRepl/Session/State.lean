import GuardedRepl.Program.Resolve
import GuardedRepl.Snippet
import GuardedRepl.Value.Typing

/-!
# The state of a session

What lasts from one snippet to the next: the variables, each with the snippet that declared it, and
the imports.  No two variables have the same name.
-/

namespace GuardedRepl

open Program (DeclaredType Names)

/-- A variable of a session. -/
structure Variable where
  name : String
  type : DeclaredType
  value : Value
  /-- The snippet that declared it. -/
  owner : Snippet
deriving DecidableEq, Repr

/-- The variables and imports of a session. -/
structure Session where
  vars : List Variable := []
  imports : List Library.HostClass := []
  packages : List Library.Package := []
deriving DecidableEq, Repr

namespace Session

/-- The names that a session offers to a snippet. -/
def names (s : Session) : Names :=
  ⟨s.vars.map Variable.name, s.imports, s.packages⟩

/-- The variable with a name. -/
def find? (s : Session) (name : String) : Option Variable :=
  s.vars.find? fun v => v.name = name

/-- Gives a variable a new value. -/
def assign (s : Session) (name : String) (value : Value) : Session :=
  { s with vars := s.vars.map fun v => if v.name = name then { v with value } else v }

/-- Declares a variable in place of the one with the same name, if there is one. -/
def declare (s : Session) (v : Variable) : Session :=
  { s with vars := v :: s.vars.filter fun w => w.name ≠ v.name }

/-- Imports a class. -/
def importClass (s : Session) (c : Library.HostClass) : Session :=
  if s.imports.contains c then s else { s with imports := s.imports ++ [c] }

/-- Imports a package. -/
def importPackage (s : Session) (p : Library.Package) : Session :=
  if s.packages.contains p then s else { s with packages := s.packages ++ [p] }

end Session

end GuardedRepl
