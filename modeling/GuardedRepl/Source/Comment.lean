import GuardedRepl.Text.Search

/-!
# Comments

How far a comment reaches.  A line comment leaves the end of its line outside.
-/

namespace GuardedRepl
namespace Source

/-- The number of characters up to the end of the line. -/
def lineLength (cs : List Char) : Nat :=
  (cs.takeWhile (· ≠ '\n')).length

/-- The number of characters up to and with the next end of a block comment, if there is one. -/
def blockLength? (cs : List Char) : Option Nat :=
  (Text.indexOf? ['*', '/'] cs).map (· + 2)

end Source
end GuardedRepl
