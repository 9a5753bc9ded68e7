import GuardedRepl.Proofs.Machine.Assignment
import GuardedRepl.Proofs.Value.Arithmetic

/-!
# The arithmetic of programs

Whatever stands for the operands of an operation, the program computes with the words that they
yield, and it throws where there is a division by zero.  That is so in front of one operand, between
two, in an assignment, where a variable is counted up or down, and in the methods for absolute
values and remainders.

**Results.**
* `eval_staticCall_of_called`: a static method is called once the host has allowed it.
* `word_arithmetic`: what programs make of words, at every place where they compute.
-/

namespace GuardedRepl
namespace Machine

open Library (StaticMethod)
open Program Value
open Syntax (ArithOp StepOp)

/-- What counting adds to a variable, as an integer. -/
def change : StepOp → Int
  | .up => 1
  | .down => -1

theorem isWordOf_step (n : Int64) (op : StepOp) : IsWordOf (n.toInt + change op) (n + op.delta) := by
  cases op with
  | up => exact isWordOf_add n 1
  | down => exact isWordOf_add n (-1)

theorem arith_int (op : ArithOp) (a b : Int64) :
    (Value.int a).arith op (.int b) = (arithInt op a b).map .int := by
  cases op <;> rfl

/-- The host lets a static method be called, and the arguments are evaluated. -/
inductive Called (m : StaticMethod) (args : List Expr) (vs : List Value) (h : Host) :
    State → State → Prop
  | intro {s s₁ s₂ s₃ t : State} : Run.poll h s = (.ok (), s₁) →
      Run.check (.cls m.owner.name) h s₁ = (.ok (), s₂) →
      Run.check (.method m.owner.name m.name) h s₂ = (.ok (), s₃) →
      evalAll args h s₃ = (.ok vs, t) → Called m args vs h s t

theorem eval_staticCall_of_called {m : StaticMethod} {args : List Expr} {vs : List Value} {h : Host}
    {s t : State} (hcalled : Called m args vs h s t) :
    eval (.staticCall m args) h s = callStatic m vs h t := by
  obtain ⟨hpoll, hcls, hmethod, hargs⟩ := hcalled
  rw [eval, Run.bind_of_ok hpoll, Run.bind_of_ok hcls, Run.bind_of_ok hmethod, Run.bind_of_ok hargs]

/-- A word is stored in the variable and yielded, or the exception is thrown and nothing is
stored. -/
inductive Stores (x : String) (t : State) :
    Except Exception Int64 → Except Interrupt Value × State → Prop
  | word {c : Int64} {u : State} : t.assign x (.int c) = some u → Stores x t (.ok c) (.ok (.int c), u)
  | thrown {e : Exception} : Stores x t (.error e) (.error (.thrown e), t)

theorem stores_storeArith {x : String} {t : State} (hx : (t.lookup x).isSome) (op : ArithOp)
    (a b : Int64) (h : Host) :
    Stores x t (arithInt op a b) (storeArith x op (.int a) (.int b) h t) := by
  unfold storeArith
  rw [arith_int]
  cases arithInt op a b with
  | error e => exact .thrown
  | ok c =>
      rw [← isSome_assign t x (.int c)] at hx
      obtain ⟨u, hu⟩ := Option.isSome_iff_exists.mp hx
      have hrun := Run.bind_of_ok (f := fun _ => pure (Value.int c)) (Run.assign_eq_ok hu h)
      exact hrun ▸ .word hu

/-- What programs make of words under a host. -/
structure WordArithmetic (h : Host) : Prop where
  /-- An operation on two operands. -/
  binary : ∀ {op : ArithOp} {l r : Expr} {s t u : State} {a b : Int64},
    eval l h s = (.ok (.int a), t) → eval r h t = (.ok (.int b), u) →
      ∃ c, Computes op a b c ∧ eval (.arith op l r) h s = Run.lift (c.map .int) h u
  /-- An operation whose result is assigned to its first operand. -/
  compound : ∀ {op : ArithOp} {x : String} {e : Expr} {s t : State} {a b : Int64},
    eval e h s = (.ok (.int b), t) → t.lookup x = some (.int a) →
      ∃ c, Computes op a b c ∧ Stores x t c (eval (.assign x (some op) e) h s)
  negation : ∀ {e : Expr} {s t : State} {a : Int64}, eval e h s = (.ok (.int a), t) →
    ∃ c, IsWordOf (-a.toInt) c ∧ eval (.unary .neg e) h s = (.ok (.int c), t)
  /-- Counting yields the word that the variable had before. -/
  counting : ∀ {op : StepOp} {x : String} {s : State} {n : Int64}, s.lookup x = some (.int n) →
    ∃ c t, IsWordOf (n.toInt + change op) c ∧ s.assign x (.int c) = some t ∧
      eval (.step x op) h s = (.ok (.int n), t)
  abs : ∀ {e : Expr} {s t : State} {a : Int64}, Called .abs [e] [.int a] h s t →
    ∃ c, IsWordOf |a.toInt| c ∧ eval (.staticCall .abs [e]) h s = (.ok (.int c), t)
  floorMod : ∀ {l r : Expr} {s t : State} {a b : Int64},
    Called .floorMod [l, r] [.int a, .int b] h s t →
      ∃ c, Floors a b c ∧ eval (.staticCall .floorMod [l, r]) h s = Run.lift (c.map .int) h t

/-- **The arithmetic of words.**  Programs compute with words as with integers whose results are
reduced to words, and throw an exception exactly where they divide by zero. -/
theorem word_arithmetic (h : Host) : WordArithmetic h where
  binary {op l r s t u a b} hl hr := by
    refine ⟨arithInt op a b, computes_arithInt op a b, ?_⟩
    rw [eval, Run.bind_of_ok hl, Run.bind_of_ok hr, arith_int]
  compound {op x e s t a b} he hx := by
    refine ⟨arithInt op a b, computes_arithInt op a b, ?_⟩
    rw [eval_compound_of_ok he hx]
    exact stores_storeArith (by rw [hx]; rfl) op a b h
  negation {e s t a} he := by
    refine ⟨-a, isWordOf_neg a, ?_⟩
    rw [eval, Run.bind_of_ok he]
    rfl
  counting {op x s n} hx := by
    have hbound : (s.assign x (.int (n + op.delta))).isSome := by
      rw [isSome_assign, hx]
      rfl
    obtain ⟨t, ht⟩ := Option.isSome_iff_exists.mp hbound
    refine ⟨n + op.delta, t, isWordOf_step n op, ht, ?_⟩
    rw [eval, Run.bind_of_ok (Run.lookup_eq_ok hx h)]
    exact Run.bind_of_ok (Run.assign_eq_ok ht h)
  abs {e s t a} hcalled := by
    refine ⟨a.abs, isWordOf_abs a, ?_⟩
    rw [eval_staticCall_of_called hcalled]
    rfl
  floorMod {l r s t a b} hcalled := by
    refine ⟨Value.floorMod a b, floors_floorMod a b, ?_⟩
    rw [eval_staticCall_of_called hcalled]
    change (Run.lift (Value.floorMod a b) >>= fun r => pure (Value.int r)) h t = _
    cases Value.floorMod a b <;> rfl

/-- The quotient of the smallest word and minus one, which is too large for a word. -/
def lowestByMinusOne : Expr :=
  .arith .div (.int Int64.minValue) (.unary .neg (.int 1))

/-- What remains of seven behind a division by zero. -/
def sevenByZero : Expr :=
  .arith .rem (.int 7) (.int 0)

/-- A quotient that is out of range is reduced to a word, and a division by zero throws. -/
theorem word_arithmetic_limits :
    eval lowestByMinusOne Host.bare { session := {} } =
        (.ok (.int Int64.minValue), { session := {} }) ∧
      ∃ e, IsDivisionByZero e ∧
        eval sevenByZero Host.bare { session := {} } = (.error (.thrown e), { session := {} }) := by
  have hbinary := @(word_arithmetic Host.bare).binary
  constructor
  · obtain ⟨c, hc, heval⟩ := @hbinary .div (.int Int64.minValue) (.unary .neg (.int 1))
      { session := {} } _ _ _ _ rfl rfl
    cases hc with
    | div _ hq =>
        -- There is only one word that the quotient can be reduced to.
        rw [isWordOf_iff.mp hq] at heval
        exact heval
  · obtain ⟨c, hc, heval⟩ := @hbinary .rem (.int 7) (.int 0) { session := {} } _ _ _ _ rfl rfl
    cases hc with
    | rem hb => exact absurd rfl hb
    | remByZero he => exact ⟨_, he, heval⟩

end Machine
end GuardedRepl
