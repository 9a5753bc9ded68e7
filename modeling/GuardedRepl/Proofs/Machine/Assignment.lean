import GuardedRepl.Proofs.Machine.Frames
import GuardedRepl.Proofs.Machine.Programs
import GuardedRepl.Proofs.Session.Fragments

/-!
# Compound assignment

A compound assignment `x op= e` evaluates `e` first and reads `x` then; the assignment `x = x op e`
reads `x` first.  So the two differ at most where `e` itself changes `x`, and there they differ as
soon as the operation makes something else of the new value than of the old one.

**Results.**
* `Woven.keeps`: what questions, blocks and assignments to some variables keep, every run keeps that
  assigns to no others.
* `sameAt_eval`, `names_eval`: an expression leaves every variable but its targets as it was, and
  binds no name.
* `eval_compound`: where a compound assignment is the assignment of the operation.
* `exists_compound_ne`: with `x` at one, `x += x++` yields three and `x = x + x++` yields two.
-/

namespace GuardedRepl
namespace Machine

open Program
open Syntax (ArithOp)

/-! ### What an expression leaves as it was -/

/-- What a run may do to the state, if it declares nothing and changes no variables but those in
`W`: the relation does not see questions, and a block or such an assignment keeps it. -/
structure Sparing (W : String → Prop) (R : State → State → Prop) : Prop where
  trans : ∀ {s t u : State}, R s t → R t u → R s u
  asked : ∀ {s t : State}, t.session = s.session → t.frames = s.frames → R s t
  block : ∀ {s t : State}, R { s with frames := [] :: s.frames } t →
    R s { t with frames := t.frames.tail }
  assign : ∀ {s t : State} {name : String} {v : Value}, W name → s.assign name v = some t → R s t

namespace Run

variable {α : Type} {W : String → Prop} {R : State → State → Prop}

/-- What is woven without a declaration keeps what its assignments keep. -/
theorem Woven.keeps (hR : Sparing W R) {x : Run α} (hx : Woven W False x) : Keeps R x := by
  intro h s
  induction hx generalizing s with
  | result a => exact hR.asked rfl rfl
  | thrown e => exact hR.asked rfl rfl
  | files => exact hR.asked rfl rfl
  | processors => exact hR.asked rfl rfl
  | readClock => exact hR.asked rfl rfl
  | doze ms => exact hR.asked rfl rfl
  | write stream text => exact hR.asked rfl rfl
  | poll =>
      simp only [Run.poll]
      split <;> exact hR.asked rfl rfl
  | check a =>
      simp only [Run.check]
      split <;> exact hR.asked rfl rfl
  | lookup name =>
      cases hv : s.lookup name with
      | none =>
          rw [lookup_eq_unbound hv]
          exact hR.asked rfl rfl
      | some v =>
          rw [lookup_eq_ok hv]
          exact hR.asked rfl rfl
  | @assign name v hname =>
      cases ht : s.assign name v with
      | none =>
          rw [assign_eq_unbound ht]
          exact hR.asked rfl rfl
      | some t =>
          rw [assign_eq_ok ht]
          exact hR.assign hname ht
  | declareLocal name v hd => exact hd.elim
  | @bind α β x f _ _ ihx ihf =>
      have hr := ihx s
      rcases bind_cases x f h s with ⟨a, t, ht, heq⟩ | ⟨e, t, ht, heq⟩ <;>
        rw [ht] at hr <;> rw [heq]
      · exact hR.trans hr (ihf a t)
      · exact hr
  | inBlock _ ih => exact hR.block (ih _)
  | repeated _ _ ih => exact keeps_rounds (fun _ => hR.asked rfl rfl) hR.trans ih h.fuel s

end Run

/-- Two states have the same values for a name, block by block and in the session. -/
def SameAt (x : String) (s t : State) : Prop :=
  t.frames.map (·.lookup x) = s.frames.map (·.lookup x) ∧
    (t.session.find? x).map Variable.value = (s.session.find? x).map Variable.value

theorem SameAt.lookup {x : String} {s t : State} (h : SameAt x s t) :
    t.lookup x = s.lookup x := by
  unfold State.lookup
  rw [lookupIn_eq, lookupIn_eq, h.1, h.2]

theorem lookup_update {x y : String} (hxy : y ≠ x) (v : Value) (frame : Frame) :
    (frame.map fun (n, w) => if n = y then (n, v) else (n, w)).lookup x = frame.lookup x := by
  induction frame with
  | nil => rfl
  | cons p frame ih =>
      obtain ⟨n, w⟩ := p
      rw [List.map_cons, List.lookup_cons, List.lookup_cons, ih]
      by_cases hn : n = y
      · have hne : (x == n) = false := by simpa [hn] using hxy.symm
        simp only [hn, if_true]
        rw [← hn, hne]
      · simp only [hn, if_false]

theorem assignIn_sameAt {x y : String} (hxy : y ≠ x) {v : Value} :
    ∀ {frames frames' : List Frame}, State.assignIn y v frames = some frames' →
      frames'.map (·.lookup x) = frames.map (·.lookup x)
  | [], _, h => by
      cases h
  | frame :: frames, _, h => by
      unfold State.assignIn at h
      split at h
      · cases h
        rw [List.map_cons, List.map_cons, lookup_update hxy]
      · obtain ⟨rest, hrest, rfl⟩ := Option.map_eq_some_iff.mp h
        rw [List.map_cons, List.map_cons, assignIn_sameAt hxy hrest]

theorem find?_assign {x y : String} (hxy : y ≠ x) (v : Value) (session : Session) :
    (session.assign y v).find? x = session.find? x := by
  unfold Session.find? Session.assign
  rw [List.find?_map]
  simp only [Function.comp_def, name_of_update]
  cases hfound : session.vars.find? fun w => w.name = x with
  | none => rfl
  | some w =>
      have hw : w.name = x := by simpa using List.find?_some hfound
      have hne : w.name ≠ y := fun heq => hxy (heq.symm.trans hw)
      rw [Option.map_some, if_neg hne]

theorem sparing_sameAt (x : String) : Sparing (· ≠ x) (SameAt x) where
  trans hst htu := ⟨htu.1.trans hst.1, htu.2.trans hst.2⟩
  asked hs hf := by
    simp only [SameAt, hs, hf, and_self]
  block {s t} hst := by
    refine ⟨?_, hst.2⟩
    rw [List.map_tail, hst.1]
    rfl
  assign {s t y v} hy h := by
    rcases State.assign_cases h with ⟨frames, hframes, rfl⟩ | ⟨-, rfl⟩
    · exact ⟨assignIn_sameAt hy hframes, rfl⟩
    · exact ⟨rfl, congrArg (Option.map Variable.value) (find?_assign hy v s.session)⟩

/-- An expression leaves every variable but its targets as it was. -/
theorem sameAt_eval {e : Expr} {x : String} (hx : x ∉ e.targets) :
    Run.Keeps (SameAt x) (eval e) := by
  refine (Run.woven_eval e fun name hname => ?_).keeps (sparing_sameAt x)
  rintro rfl
  exact hx hname

theorem sparing_names : Sparing (fun _ => True) fun s t => t.names = s.names where
  trans hst htu := htu.trans hst
  asked hs hf := by
    simp only [State.names, hs, hf]
  block {s t} hst := by
    obtain ⟨hframes, hsession⟩ := Prod.mk.inj hst
    refine Prod.ext ?_ hsession
    show t.frames.tail.map (·.map Prod.fst) = s.frames.map (·.map Prod.fst)
    rw [List.map_tail, hframes]
    rfl
  assign _ h := assign_names h

/-- An expression binds no name and frees none. -/
theorem names_eval (e : Expr) : Run.Keeps (fun s t => t.names = s.names) (eval e) :=
  (Run.wovenIn_eval e).keeps sparing_names

theorem lookup_eval {e : Expr} {h : Host} {s t : State} {w : Value} {x : String}
    (heval : eval e h s = (.ok w, t)) (hx : (s.lookup x).isSome) : (t.lookup x).isSome := by
  have hnames := names_eval e h s
  rw [heval] at hnames
  rw [isSome_lookup_iff] at hx ⊢
  rwa [hnames]

/-! ### The two assignments -/

/-- Assigns what an operation makes of two values, and yields it. -/
def storeArith (x : String) (op : ArithOp) (u w : Value) : Run Value := do
  let r ← Run.lift (u.arith op w)
  Run.assign x r
  return r

/-- A variable that is bound can be assigned to, so only the operation decides the outcome. -/
theorem storeArith_fst {x : String} {t : State} (hx : (t.lookup x).isSome) (op : ArithOp)
    (u w : Value) (h : Host) :
    (storeArith x op u w h t).1 = (u.arith op w).mapError .thrown := by
  unfold storeArith
  cases hr : u.arith op w with
  | error e => rfl
  | ok r =>
      rw [← isSome_assign t x r] at hx
      obtain ⟨t', ht⟩ := Option.isSome_iff_exists.mp hx
      exact congrArg Prod.fst (Run.bind_of_ok (Run.assign_eq_ok ht h))

theorem storeArith_eq_iff {x : String} {t : State} (hx : (t.lookup x).isSome) (op : ArithOp)
    (u v w : Value) (h : Host) :
    storeArith x op u w h t = storeArith x op v w h t ↔ u.arith op w = v.arith op w := by
  refine ⟨fun heq => ?_, fun heq => by unfold storeArith; rw [heq]⟩
  have hfst := congrArg Prod.fst heq
  rw [storeArith_fst hx, storeArith_fst hx] at hfst
  cases hu : u.arith op w <;> cases hv : v.arith op w <;> rw [hu, hv] at hfst <;> cases hfst <;>
    rfl

section Assignments

variable {x : String} {op : ArithOp} {e : Expr} {h : Host} {s t : State} {v w : Value}

/-- The compound assignment reads the variable behind its operand. -/
theorem eval_compound_of_ok {u : Value} (he : eval e h s = (.ok w, t))
    (hu : t.lookup x = some u) :
    eval (.assign x (some op) e) h s = storeArith x op u w h t := by
  rw [eval, Run.bind_of_ok he, Run.bind_of_ok (Run.lookup_eq_ok hu h)]
  rfl

theorem eval_compound_of_error {i : Interrupt} (he : eval e h s = (.error i, t)) :
    eval (.assign x (some op) e) h s = (.error i, t) := by
  rw [eval, Run.bind_of_error he]

/-- The operation reads the variable before the other operand. -/
theorem eval_operation (hv : s.lookup x = some v) :
    eval (.arith op (.var x) e) h s = (eval e >>= fun w => Run.lift (v.arith op w)) h s := by
  have hvar : eval (.var x) h s = (.ok v, s) := by
    rw [eval]
    exact Run.lookup_eq_ok hv h
  rw [eval, Run.bind_of_ok hvar]

theorem eval_assign_operation_of_ok (hv : s.lookup x = some v) (he : eval e h s = (.ok w, t)) :
    eval (.assign x none (.arith op (.var x) e)) h s = storeArith x op v w h t := by
  have hop : eval (.arith op (.var x) e) h s = Run.lift (v.arith op w) h t := by
    rw [eval_operation hv, Run.bind_of_ok he]
  rw [eval]
  exact Run.bind_congr hop

theorem eval_assign_operation_of_error {i : Interrupt} (hv : s.lookup x = some v)
    (he : eval e h s = (.error i, t)) :
    eval (.assign x none (.arith op (.var x) e)) h s = (.error i, t) := by
  have hop : eval (.arith op (.var x) e) h s = (.error i, t) := by
    rw [eval_operation hv, Run.bind_of_error he]
  rw [eval, Run.bind_of_error hop]

/-- **Compound assignment.**  It is the assignment of the operation if its operand does not assign
to the variable; in general it is so exactly if the operation yields the same for the value behind
the operand as for the one before it, wherever the operand yields a value. -/
theorem eval_compound (h : Host) (hv : s.lookup x = some v) (op : ArithOp) (e : Expr) :
    (x ∉ e.targets → eval (.assign x (some op) e) h s =
        eval (.assign x none (.arith op (.var x) e)) h s) ∧
      (eval (.assign x (some op) e) h s = eval (.assign x none (.arith op (.var x) e)) h s ↔
        ∀ w t, eval e h s = (.ok w, t) →
          ∃ u, t.lookup x = some u ∧ u.arith op w = v.arith op w) := by
  have hiff : eval (.assign x (some op) e) h s = eval (.assign x none (.arith op (.var x) e)) h s ↔
      ∀ w t, eval e h s = (.ok w, t) →
        ∃ u, t.lookup x = some u ∧ u.arith op w = v.arith op w := by
    rcases he : eval e h s with ⟨i | w, t⟩
    · rw [eval_compound_of_error he, eval_assign_operation_of_error hv he]
      simp
    · -- The variable is still bound behind the operand, so both assignments come to their end
      -- unless the operation throws.
      have hbound := lookup_eval (x := x) he (by rw [hv]; rfl)
      obtain ⟨u, hu⟩ := Option.isSome_iff_exists.mp hbound
      rw [eval_compound_of_ok he hu, eval_assign_operation_of_ok hv he,
        storeArith_eq_iff hbound]
      constructor
      · rintro heq _ _ ⟨⟩
        exact ⟨u, hu, heq⟩
      · intro hall
        obtain ⟨u', hu', heq⟩ := hall w t rfl
        rw [hu] at hu'
        cases hu'
        exact heq
  refine ⟨fun hx => hiff.mpr fun w t he => ⟨v, ?_, rfl⟩, hiff⟩
  have hsame := sameAt_eval hx h s
  rw [he] at hsame
  rw [hsame.lookup, hv]

end Assignments

/-- The numbers `x` and `y` in a fresh session. -/
def counters (m n : Int64) : State where
  session := {
    vars := [⟨"x", .primitive .int, .int m, ⟨1, .variable "x", "int x"⟩⟩,
      ⟨"y", .primitive .int, .int n, ⟨2, .variable "y", "int y"⟩⟩] }

/-- In `x += y++` the operand changes another variable. -/
theorem eval_compound_other :
    (counters 1 2).lookup "x" = some (.int 1) ∧ "x" ∉ (Expr.step "y" .up).targets ∧
      eval (.assign "x" (some .add) (.step "y" .up)) Host.bare (counters 1 2) =
        eval (.assign "x" none (.arith .add (.var "x") (.step "y" .up))) Host.bare
          (counters 1 2) := by
  have hx : (counters 1 2).lookup "x" = some (.int 1) := by decide +kernel
  have hy : "x" ∉ (Expr.step "y" .up).targets := by decide
  exact ⟨hx, hy, (eval_compound Host.bare hx .add (.step "y" .up)).1 hy⟩

/-- In `x += x++` the operand changes the variable itself: with `x` at one the sum is three, and
that of `x = x + x++` is two. -/
theorem exists_compound_ne :
    (counters 1 2).lookup "x" = some (.int 1) ∧
      (eval (.assign "x" (some .add) (.step "x" .up)) Host.bare (counters 1 2)).1 =
        .ok (.int 3) ∧
      (eval (.assign "x" none (.arith .add (.var "x") (.step "x" .up))) Host.bare
        (counters 1 2)).1 = .ok (.int 2) :=
  ⟨rfl, rfl, rfl⟩

end Machine
end GuardedRepl
