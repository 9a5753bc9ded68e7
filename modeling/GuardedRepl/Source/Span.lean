/-!
# Spans

Stretches of a snippet's source, given by the byte offsets of their ends.
-/

namespace GuardedRepl
namespace Source

/-- The stretch from byte `start` up to byte `stop`. -/
structure Span where
  start : Nat
  stop : Nat
deriving DecidableEq, Repr, Inhabited

namespace Span

/-- The stretch from the start of one span to the end of another one. -/
def through (s t : Span) : Span :=
  ⟨s.start, max s.stop t.stop⟩

/-- The same stretch in a text that stands `offset` bytes further on. -/
def shift (offset : Nat) (s : Span) : Span :=
  ⟨offset + s.start, offset + s.stop⟩

end Span

end Source
end GuardedRepl
