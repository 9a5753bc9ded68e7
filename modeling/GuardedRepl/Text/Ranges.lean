/-!
# Ranges of code points

Properties of characters are kept as ascending lists of closed ranges of code points.  The look-up
stops at the first range that begins beyond the code point.
-/

namespace GuardedRepl
namespace Text

/-- Closed ranges of code points, ascending and apart. -/
abbrev Ranges := List (Nat × Nat)

namespace Ranges

/-- Whether a code point lies in one of the ranges. -/
def covers : Ranges → Nat → Bool
  | [], _ => false
  | (low, high) :: rest, n => if n < low then false else n ≤ high || covers rest n

/-- The number of code points in the ranges. -/
def size (rs : Ranges) : Nat :=
  rs.foldr (fun r n => r.2 + 1 - r.1 + n) 0

end Ranges

end Text
end GuardedRepl
