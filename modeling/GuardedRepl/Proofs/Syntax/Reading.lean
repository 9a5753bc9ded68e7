import GuardedRepl.Syntax.Parser
import Mathlib.Tactic

/-!
# What readers yield

A reader that succeeds yields a result with a certain property.  There is one rule for each way in
which readers are put together, and the proofs about the parser use these rules only.

**Results.**
* `Yields.bind`, `Yields.after`: one reader after another.
* `yields_failAt`, `yields_fail`: a reader that fails yields nothing.
-/

namespace GuardedRepl
namespace Syntax
namespace Reader

open Source

section Rules

variable {α β : Type} {P Q : α → Prop} {R : β → Prop} {x : Reader α} {f : α → Reader β}

/-- Whenever a reader succeeds, its result has a property. -/
def Yields (x : Reader α) (P : α → Prop) : Prop :=
  ∀ c a c', x c = .ok (a, c') → P a

theorem Yields.mono (hx : Yields x P) (h : ∀ a, P a → Q a) : Yields x Q :=
  fun c a c' heq => h a (hx c a c' heq)

theorem yields_any : Yields x fun _ => True :=
  fun _ _ _ _ => trivial

theorem Yields.pure {a : α} (h : P a) : Yields (pure a) P := by
  intro c b c' heq
  cases heq
  exact h

theorem Yields.bind (hx : Yields x P) (hf : ∀ a, P a → Yields (f a) R) : Yields (x >>= f) R := by
  intro c b c' heq
  change (x c >>= fun r => f r.1 r.2) = .ok (b, c') at heq
  rcases hxc : x c with e | ⟨a, d⟩
  · rw [hxc] at heq
    cases heq
  · rw [hxc] at heq
    exact hf a (hx c a d hxc) d b c' heq

/-- The first reader may yield anything. -/
theorem Yields.after (hf : ∀ a, Yields (f a) R) : Yields (x >>= f) R :=
  yields_any.bind fun a _ => hf a

theorem Yields.map {g : α → β} (hx : Yields x fun a => R (g a)) : Yields (g <$> x) R := by
  rw [map_eq_pure_bind]
  exact hx.bind fun a ha => .pure ha

theorem yields_failAt {s : Span} {cause : Cause} : Yields (failAt s cause) P := by
  intro c a c' heq
  cases heq

theorem yields_fail {cause : Cause} : Yields (fail cause) P :=
  .after fun _ => yields_failAt

end Rules

end Reader
end Syntax
end GuardedRepl
