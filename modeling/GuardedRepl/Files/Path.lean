import GuardedRepl.Text.Search

/-!
# Paths

A path is kept as it was written.  Two paths are the same if they have the same components: repeated
slashes and single dots do not count, but for a single dot at the very front.
-/

namespace GuardedRepl
namespace Files

/-- A path as it was written. -/
structure Path where
  text : String
deriving DecidableEq, Repr

/-- A component of a path. -/
inductive Component where
  | root
  /-- The single dot at the front. -/
  | current
  | parent
  | name (s : List Char)
deriving DecidableEq, Repr

namespace Path

/-- Whether a path begins at the root. -/
def isAbsolute (p : Path) : Bool :=
  p.text.toList.head? = some '/'

/-- The pieces between the slashes. -/
def pieces (p : Path) : List (List Char) :=
  Text.splitOn '/' p.text.toList

/-- The component that a piece makes, if it makes one. -/
def component? : List Char → Option Component
  | [] => none
  | ['.'] => none
  | ['.', '.'] => some .parent
  | s => some (.name s)

/-- The components of a path. -/
def components (p : Path) : List Component :=
  let rest := p.pieces.filterMap component?
  if p.isAbsolute then .root :: rest
  else if p.pieces.head? = some ['.'] then .current :: rest
  else rest

/-- Whether two paths have the same components. -/
def same (p q : Path) : Bool :=
  p.components = q.components

/-- The last component, if it is a name. -/
def fileName? (p : Path) : Option String :=
  match p.components.getLast? with
  | some (.name s) => some (String.ofList s)
  | _ => none

/-- The path `q` as seen from `p`. -/
def join (p q : Path) : Path :=
  if q.isAbsolute then q
  else if p.text = "" || p.text.toList.getLast? = some '/' then ⟨p.text ++ q.text⟩
  else ⟨p.text ++ "/" ++ q.text⟩

end Path

end Files
end GuardedRepl
