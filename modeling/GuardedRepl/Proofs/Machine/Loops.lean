import GuardedRepl.Proofs.Machine.Padding
import GuardedRepl.Proofs.Session.Cancellation

/-!
# For and while

A loop whose head has three parts does the same as a loop with a condition only, in a block that
begins with the first part of the head, and with the third part behind the body in a block of its
own.  A `continue` of the body would leave out the third part there, so there must be none.

**Results.**
* `exec_only`: a statement without a `continue` of its own does not end with one.
* `pads_loopRound`, `pads_for`: the two loops go alike, round by round and as a whole.
* `endsWith_or_runsForever`: a run ends in one way under all hosts with enough fuel, or under none.
* `for_while`: the two loops both run forever, or they end alike.
-/

namespace GuardedRepl

namespace Program

mutual

/-- Whether a statement has a `continue` for the loop around it. -/
@[simp]
def Stmt.continues : Stmt → Bool
  | .continue => true
  | .block body => Stmt.anyContinues body
  | .ifThen _ yes => yes.continues
  | .ifElse _ yes no => yes.continues || no.continues
  | _ => false

/-- Whether one of some statements has a `continue` for the loop around them. -/
@[simp]
def Stmt.anyContinues : List Stmt → Bool
  | [] => false
  | s :: ss => s.continues || Stmt.anyContinues ss

end

/-- The body of a loop in a block of its own, and its update behind it. -/
def Stmt.withUpdate (update : Option Expr) (body : Stmt) : Stmt :=
  .block (.block [body] :: (update.map fun e => Stmt.simple (.expr e)).toList)

/-- A loop with a head of three parts, as one with a condition only. -/
def Stmt.forAsWhile (init : Option Simple) (cond update : Option Expr) (body : Stmt) : Stmt :=
  .block ((init.map Stmt.simple).toList ++
    [.while (cond.getD (.bool true)) (body.withUpdate update)])

end Program

namespace Machine

open Program

namespace Run

variable {α β γ : Type}

theorem bind_assoc (x : Run α) (f : α → Run β) (g : β → Run γ) :
    (x >>= f) >>= g = x >>= fun a => f a >>= g := by
  funext h s
  rcases hx : x h s with ⟨e | a, t⟩
  · rw [bind_of_error (bind_of_error hx), bind_of_error hx]
  · rw [bind_of_ok hx]
    exact bind_congr (bind_of_ok hx)

theorem inBlock_bind_pure (x : Run α) (b : β) :
    (inBlock x >>= fun _ => pure b) = inBlock (x >>= fun _ => pure b) := by
  funext h s
  simp only [bind, andThen, inBlock]
  rcases x h { s with frames := [] :: s.frames } with ⟨e | a, t⟩ <;> rfl

/-- A run yields only values with a property. -/
def Only (A : α → Prop) (x : Run α) : Prop :=
  ∀ h s a t, x h s = (.ok a, t) → A a

namespace Only

theorem result {A : α → Prop} {a : α} (ha : A a) : Only A (pure a : Run α) := by
  intro h s b t hrun
  cases hrun
  exact ha

theorem bind {A : β → Prop} {x : Run α} {f : α → Run β} (hf : ∀ a, Only A (f a)) :
    Only A (x >>= f) := by
  intro h s b u hrun
  obtain ⟨a, t, -, hrun⟩ := bind_ok hrun
  exact hf a h t b u hrun

theorem inBlock {A : α → Prop} {x : Run α} (hx : Only A x) : Only A (inBlock x) := by
  intro h s a t hrun
  rw [inBlock_eq] at hrun
  obtain ⟨hout, -⟩ := Prod.mk.inj hrun
  exact hx h _ a _ (Prod.ext hout rfl)

/-- What follows a run matters only for the values that it yields. -/
theorem bind_eq {A : α → Prop} {x : Run α} (hx : Only A x) {f g : α → Run β}
    (hfg : ∀ a, A a → f a = g a) : x >>= f = x >>= g := by
  funext h s
  rcases bind_cases x f h s with ⟨a, t, ht, heq⟩ | ⟨e, t, ht, heq⟩
  · rw [heq, bind_of_ok ht, hfg a (hx h s a t ht)]
  · rw [heq, bind_of_error ht]

end Only

end Run

open Run

/-! ### Statements without a continue -/

mutual

/-- A statement without a `continue` for the loop around it does not end with one. -/
theorem exec_only : ∀ s : Stmt, s.continues = false → Only (· ≠ .continued) (exec s)
  | .simple s, _ => by
      rw [exec]
      exact .bind fun _ => .result (by decide)
  | .block body, hs => by
      rw [exec]
      exact .bind fun _ => .inBlock (execAll_only body hs)
  | .ifThen c yes, hs => by
      rw [exec]
      refine .bind fun _ => .bind fun b => ?_
      split
      · exact .inBlock (exec_only yes hs)
      · exact .result (by decide)
  | .ifElse c yes no, hs => by
      rw [Stmt.continues, Bool.or_eq_false_iff] at hs
      rw [exec]
      refine .bind fun _ => .bind fun b => ?_
      split
      · exact .inBlock (exec_only yes hs.1)
      · exact .inBlock (exec_only no hs.2)
  | .while c body, _ => by
      rw [exec]
      exact .bind fun _ => .bind fun _ => .result (by decide)
  | .for init c update body, _ => by
      rw [exec]
      exact .bind fun _ => .bind fun _ => .result (by decide)
  | .break, _ => by
      rw [exec]
      exact .bind fun _ => .result (by decide)
  | .continue, hs => by
      cases hs
  | .empty, _ => by
      rw [exec]
      exact .bind fun _ => .result (by decide)

theorem execAll_only : ∀ ss : List Stmt, Stmt.anyContinues ss = false →
    Only (· ≠ .continued) (execAll ss)
  | [], _ => by
      rw [execAll]
      exact .result (by decide)
  | s :: ss, hs => by
      rw [Stmt.anyContinues, Bool.or_eq_false_iff] at hs
      rw [execAll]
      intro h σ c t hrun
      obtain ⟨c', u, hc', hrun⟩ := bind_ok hrun
      have hne := exec_only s hs.1 h σ c' u hc'
      cases c' with
      | next => exact execAll_only ss hs.2 h u c t hrun
      | broke =>
          cases hrun
          exact hne
      | continued => exact absurd rfl hne

end

/-! ### Rounds -/

/-- Goes on with the update of a loop, if its body came to its end. -/
def followed (update : Run Unit) : Completion → Run Completion
  | .next => do
    update
    return .next
  | c => return c

/-- Ends a round of a loop, by how its body ended. -/
def roundEnd : Completion → Run Bool
  | .broke => return false
  | _ => do
    Run.poll
    return true

/-- A round with the update as a part of the body. -/
theorem loopRound_followed {cond : Run Bool} {body : Run Completion} {update : Run Unit}
    (hbody : Only (· ≠ .continued) body) : loopRound cond body update = do
      if ← cond then (Run.inBlock body >>= followed update) >>= roundEnd else return false := by
  unfold loopRound
  refine congrArg (cond >>= ·) (funext fun b => ?_)
  split
  · rw [bind_assoc]
    refine hbody.inBlock.bind_eq fun c hc => ?_
    cases c with
    | next =>
        rw [followed, bind_assoc]
        rfl
    | broke => rfl
    | continued => exact absurd rfl hc
  · rfl

theorem loopRound_plain (cond : Run Bool) (body : Run Completion) :
    loopRound cond body (return ()) = do
      if ← cond then Run.inBlock body >>= roundEnd else return false := by
  unfold loopRound
  refine congrArg (cond >>= ·) (funext fun b => ?_)
  split
  · refine congrArg (Run.inBlock body >>= ·) (funext fun c => ?_)
    cases c <;> rfl
  · rfl

theorem execAll_singleton (s : Stmt) : execAll [s] = exec s := by
  funext h σ
  rw [execAll]
  rcases hs : exec s h σ with ⟨e | c, t⟩
  · rw [bind_of_error hs]
  · rw [bind_of_ok hs]
    cases c with
    | next =>
        rw [execAll]
        rfl
    | broke => rfl
    | continued => rfl

/-- A missing condition is one that always holds. -/
theorem evalCondition_getD (c : Option Expr) :
    evalBool (c.getD (.bool true)) = evalCondition c := by
  cases c with
  | none =>
      unfold evalBool
      rw [Option.getD_none, eval]
      rfl
  | some e => rfl

section Alike

variable {h : Host} (hgo : ∀ p, h.stops p = false)
include hgo

/-- The update of a loop is a statement behind its body. -/
theorem pads_update (update : Option Expr) (n k : Nat) :
    Pads h n k (followed (evalUpdate update) .next)
      (execAll (update.map fun e => Stmt.simple (.expr e)).toList) := by
  cases update with
  | none =>
      rw [Option.map_none, Option.toList_none, execAll]
      exact .result _
  | some e =>
      have heval : Pads h n k (evalUpdate (some e)) (execSimple (.expr e)) :=
        .polled hgo ((woven_evalUpdate (D := False) (some e)).pads hgo False.elim)
      rw [Option.map_some, Option.toList_some, execAll_singleton, exec]
      exact heval.bind fun _ => .result _

/-- The body of a loop, in the blocks that are around it in a loop with a condition only. -/
theorem pads_withUpdate (update : Option Expr) (body : Stmt) :
    Pads h 0 0 (Run.inBlock (exec body) >>= followed (evalUpdate update))
      (Run.inBlock (exec (body.withUpdate update))) := by
  have hbody : Pads h 0 2 (Run.inBlock (exec body)) (exec (.block [body])) := by
    rw [exec, execAll_singleton]
    exact .polled hgo (.inBlock ((woven_exec body).pads hgo fun _ => Or.inl Nat.one_pos))
  rw [Stmt.withUpdate, exec]
  -- The update is run in two blocks that only the second loop has: nothing is declared in them,
  -- since what the body declares is gone with its own block.
  refine .wider (.polled hgo (.wider ?_))
  rw [execAll]
  refine hbody.bind fun c => ?_
  cases c with
  | next => exact pads_update hgo update 0 2
  | broke => exact .result _
  | continued => exact .result _

theorem pads_roundEnd (c : Completion) : Pads h 0 0 (roundEnd c) (roundEnd c) := by
  cases c with
  | broke => exact .result false
  | next => exact .bind (.poll hgo) fun _ => .result true
  | continued => exact .bind (.poll hgo) fun _ => .result true

/-- Round by round the two loops go alike. -/
theorem pads_loopRound (cond update : Option Expr) {body : Stmt} (hbody : body.continues = false) :
    Pads h 0 0 (loopRound (evalCondition cond) (exec body) (evalUpdate update))
      (loopRound (evalBool (cond.getD (.bool true))) (exec (body.withUpdate update))
        (return ())) := by
  rw [loopRound_followed (exec_only body hbody), loopRound_plain, evalCondition_getD]
  refine .bind ((woven_evalCondition (D := False) cond).pads hgo False.elim) fun b => ?_
  split
  · exact (pads_withUpdate hgo update body).bind (pads_roundEnd hgo)
  · exact .result false

/-- **The two loops go alike.**  They take the same rounds, and what stands before the rounds is the
same. -/
theorem pads_for (init : Option Simple) (cond update : Option Expr) {body : Stmt}
    (hbody : body.continues = false) :
    Pads h 0 0 (exec (.for init cond update body))
      (exec (.forAsWhile init cond update body)) := by
  -- What the head declares is in the innermost block of both, so nothing is padded around it.
  have hloop : Pads h 0 0
      (Run.repeated (loopRound (evalCondition cond) (exec body) (evalUpdate update)) >>=
        fun _ => pure .next)
      (execAll [.while (cond.getD (.bool true)) (body.withUpdate update)]) := by
    rw [execAll_singleton, exec]
    exact .polled hgo ((pads_loopRound hgo cond update hbody).repeated.bind fun _ => .result _)
  rw [Stmt.forAsWhile, exec, exec, inBlock_bind_pure, bind_assoc]
  refine .bind (.poll hgo) fun _ => .inSameBlock ?_
  cases init with
  | none => exact hloop
  | some s =>
      have hinit : Pads h 0 0 (execSimple s) (execSimple s) :=
        (woven_execSimple s).pads hgo fun _ => Or.inr rfl
      rw [Option.map_some, Option.toList_some, List.singleton_append, execAll, exec, bind_assoc]
      exact hinit.bind fun _ => hloop

end Alike

/-! ### Runs without an end -/

/-- A run uses up all fuel, however much it is. -/
def RunsForever {α : Type} (x : Run α) (h : Host) (s : State) : Prop :=
  ∀ n, (x (h.withFuel n) s).1 = .error .exhausted

/-- With enough fuel a run comes to an end, always to the same one. -/
def EndsWith {α : Type} (x : Run α) (h : Host) (s : State) (r : Except Interrupt α × State) :
    Prop :=
  r.1 ≠ .error .exhausted ∧ ∃ n, ∀ m, n ≤ m → x (h.withFuel m) s = r

section Endings

variable {α : Type} {R : State → State → Prop} {x : Run α} {h : Host} {s : State}

theorem endsWith_of_ne (hx : Assembled R x) {n : Nat}
    (hn : (x (h.withFuel n) s).1 ≠ .error .exhausted) : EndsWith x h s (x (h.withFuel n) s) := by
  refine ⟨hn, n, fun m hnm => ?_⟩
  rcases hx.fuel_mono (h := h) s hnm with heq | ⟨hexhausted, -⟩
  · exact heq
  · exact absurd hexhausted hn

theorem endsWith_or_runsForever (hx : Assembled R x) (h : Host) (s : State) :
    RunsForever x h s ∨ ∃ n, EndsWith x h s (x (h.withFuel n) s) := by
  by_cases hall : RunsForever x h s
  · exact Or.inl hall
  · obtain ⟨n, hn⟩ := Classical.not_forall.mp hall
    exact Or.inr ⟨n, endsWith_of_ne hx hn⟩

end Endings

/-- **For and while.**  Under a host that never says to stop the two loops both run forever, or they
end with the same outcome: both come to their end, or both are interrupted by the same.  They leave
the same variables in the session and in the blocks around them, and they have asked for the same
accesses and written the same, in the same order. -/
theorem for_while (h : Host) (s : State) (init : Option Simple) (cond update : Option Expr)
    {body : Stmt} (hbody : body.continues = false) :
    let loop := exec (.for init cond update body)
    let other := exec (.forAsWhile init cond update body)
    (RunsForever loop h.unstopped s ∧ RunsForever other h.unstopped s) ∨
      ∃ r r', EndsWith loop h.unstopped s r ∧ EndsWith other h.unstopped s r' ∧ r'.1 = r.1 ∧
        r.2.Alike r'.2 ∧ r'.2.frames = r.2.frames := by
  intro loop other
  have hsame (n : Nat) : Pads (h.unstopped.withFuel n) 0 0 loop other :=
    pads_for (fun _ => rfl) init cond update hbody
  have hstart : s.Padded 0 0 s := .of_frames_eq ⟨rfl, rfl, rfl, rfl, rfl⟩ rfl
  rcases endsWith_or_runsForever (assembled_exec roomy_true (.for init cond update body))
    h.unstopped s with hforever | ⟨n, hends⟩
  · refine Or.inl ⟨hforever, fun n => ?_⟩
    rw [← (hsame n s s hstart).1]
    exact hforever n
  · obtain ⟨hout, hleft⟩ := hsame n s s hstart
    have hother : EndsWith other h.unstopped s (other (h.unstopped.withFuel n) s) := by
      refine endsWith_of_ne (assembled_exec roomy_true (.forAsWhile init cond update body)) ?_
      rw [← hout]
      exact hends.1
    exact Or.inr ⟨_, _, hends, hother, hout.symm, hleft.toAlike, hleft.frames_eq⟩

/-- Prints the numbers below two, and breaks out. -/
def printBelowTwo : Stmt :=
  .ifElse (.compare .lt (.var "i") (.int 2))
    (.simple (.expr (.call (.staticField .out) "println" [.var "i"]))) .break

/-- A loop without a condition, which breaks out of its third round. -/
theorem for_while_break :
    let init := some (Simple.declare ⟨.primitive .int, "i", some (.int 0)⟩)
    let update := some (Expr.step "i" .up)
    let loop := exec (.for init none update printBelowTwo)
    let other := exec (.forAsWhile init none update printBelowTwo)
    printBelowTwo.continues = false ∧
      ∃ r r', EndsWith loop Host.bare.unstopped { session := {} } r ∧
        EndsWith other Host.bare.unstopped { session := {} } r' ∧ r'.1 = r.1 ∧
        r.2.Alike r'.2 ∧ r'.2.frames = r.2.frames := by
  intro init update loop other
  have hbody : printBelowTwo.continues = false := by decide
  have hends : (loop (Host.bare.unstopped.withFuel 3) { session := {} }).1.toOption =
      some .next := by decide +kernel
  refine ⟨hbody, (for_while .bare { session := {} } init none update hbody).resolve_left ?_⟩
  rintro ⟨hforever, -⟩
  have hexhausted : (loop (Host.bare.unstopped.withFuel 3) { session := {} }).1 =
      .error .exhausted := hforever 3
  rw [hexhausted] at hends
  cases hends

end Machine
end GuardedRepl
