import GuardedRepl.Text.Search

/-!
# Accesses

What a snippet asks for when it uses a symbol of the host: a package, a class, or a method of a
class.  Names are fully qualified and dotted.
-/

namespace GuardedRepl

/-- The part of a dotted name before its last dot, which is empty if there is no dot. -/
def packageOf (name : String) : String :=
  match Text.cutLast? '.' name.toList with
  | some (package, _) => String.ofList package
  | none => ""

/-- The part of a dotted name after its last dot. -/
def simpleName (name : String) : String :=
  match Text.cutLast? '.' name.toList with
  | some (_, simple) => String.ofList simple
  | none => name

/-- A use of a symbol of the host. -/
inductive Access where
  /-- A whole package. -/
  | package (name : String)
  /-- A class. -/
  | cls (name : String)
  /-- A method of a class. -/
  | method (cls name : String)
deriving DecidableEq, Repr

namespace Access

/-- The class an access touches, if it touches one. -/
def cls? : Access → Option String
  | .package _ => none
  | .cls c => some c
  | .method c _ => some c

/-- The package an access lies in. -/
def inPackage : Access → String
  | .package p => p
  | .cls c => packageOf c
  | .method c _ => packageOf c

/-- An access in words. -/
def describe : Access → String
  | .package p => "package " ++ p
  | .cls c => "class " ++ c
  | .method c m => "method " ++ c ++ "#" ++ m

end Access

/-- A refusal with the message that the snippet sees. -/
structure Denial where
  message : String
deriving DecidableEq, Repr

end GuardedRepl
