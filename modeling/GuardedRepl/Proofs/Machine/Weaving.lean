import GuardedRepl.Proofs.Machine.Ending

/-!
# What programs can do

All that a program does to a state and to its host is one of a few things: it asks a question, it
looks at the world, it writes, it reads or changes a variable, or it is interrupted.  A property of
runs that these have, and that passes on to runs in turn, to blocks and to loops, is one of every
program; the recursion over the tree of the program is done here, once.

**Results.**
* `Woven.assembled`: in particular programs are put together from questions and local runs.
* `woven_eval`: an expression declares nothing, and changes no variable but its targets.
* `woven_exec`: a statement may also declare local variables.
* `paced_loopRound`: no loop goes round without a question whether to stop.
-/

namespace GuardedRepl

namespace Program

mutual

/-- The variables that an expression may give a new value to. -/
@[simp]
def Expr.targets : Expr → List String
  | .field target _ => target.targets
  | .call target _ args => target.targets ++ Expr.allTargets args
  | .staticCall _ args => Expr.allTargets args
  | .construct _ args => Expr.allTargets args
  | .unary _ e => e.targets
  | .arith _ l r => l.targets ++ r.targets
  | .compare _ l r => l.targets ++ r.targets
  | .logic _ l r => l.targets ++ r.targets
  | .ternary c y n => c.targets ++ (y.targets ++ n.targets)
  | .assign name _ e => name :: e.targets
  | .step name _ => [name]
  | _ => []

/-- The variables that some expressions may give new values to. -/
@[simp]
def Expr.allTargets : List Expr → List String
  | [] => []
  | e :: es => e.targets ++ Expr.allTargets es

end

end Program

namespace Machine

open Program

namespace Run

/-- Runs that are put together from what a program can do.  They change no variables but those in
`W`, and they declare variables only if `D` holds. -/
inductive Woven (W : String → Prop) (D : Prop) : {α : Type} → Run α → Prop
  | result {α : Type} (a : α) : Woven W D (pure a : Run α)
  | thrown {α : Type} (e : Exception) : Woven W D (throw e : Run α)
  | files : Woven W D files
  | processors : Woven W D processors
  | readClock : Woven W D readClock
  | doze (ms : Nat) : Woven W D (doze ms)
  | write (stream : Stream) (text : String) : Woven W D (write stream text)
  | poll : Woven W D poll
  | check (a : Access) : Woven W D (check a)
  | lookup (name : String) : Woven W D (lookup name)
  | assign {name : String} (v : Value) : W name → Woven W D (assign name v)
  | declareLocal (name : String) (v : Value) : D → Woven W D (declareLocal name v)
  | bind {α β : Type} {x : Run α} {f : α → Run β} :
      Woven W D x → (∀ a, Woven W D (f a)) → Woven W D (x >>= f)
  | inBlock {α : Type} {x : Run α} : Woven W D x → Woven W D (inBlock x)
  | repeated {round : Run Bool} : Woven W D round → Paced round → Woven W D (repeated round)

variable {W : String → Prop} {D : Prop}

namespace Woven

variable {α : Type}

/-- What is woven is put together from questions and from local runs. -/
theorem assembled {R : State → State → Prop} (hR : Tolerant R) (hD : D → Roomy R) {x : Run α}
    (hx : Woven W D x) : Assembled R x := by
  induction hx with
  | result a => exact .result hR a
  | thrown e => exact .thrown hR e
  | files => exact .files hR
  | processors => exact .processors hR
  | readClock => exact .readClock hR
  | doze ms => exact .doze hR ms
  | write stream text => exact .write hR stream text
  | poll => exact .poll
  | check a => exact .check a
  | lookup name => exact .lookup hR name
  | assign v _ => exact .assign hR _ v
  | declareLocal name v hd => exact .declareLocal (hD hd) name v
  | bind _ _ ihx ihf => exact .bind ihx ihf
  | inBlock _ ih => exact .inBlock ih
  | repeated _ hpaced ih => exact .repeated ih hpaced

/-- Questions are only ever added. -/
theorem polls_le {x : Run α} (hx : Woven W D x) (h : Host) (s : State) :
    s.progress.polls ≤ (x h s).2.progress.polls :=
  (hx.assembled roomy_true.toTolerant fun _ => roomy_true).polls_le h s

theorem lifted (x : Except Exception α) : Woven W D (lift x) := by
  cases x with
  | ok a => exact .result a
  | error e => exact .thrown e

theorem sleep (ms : Nat) : Woven W D (Run.sleep ms) := by
  induction ms using Run.sleep.induct with
  | case1 ms ih =>
      rw [Run.sleep]
      refine .bind .poll fun _ => ?_
      split
      · exact .result ()
      · exact .bind (.doze _) fun _ => ih ‹_›

end Woven

/-! ### Calls -/

section Calls

open Library

theorem woven_sleepFor (ms : Int64) : Woven W D (sleepFor ms) := by
  unfold sleepFor
  split
  · exact .thrown _
  · exact .bind (.sleep _) fun _ => .result _

theorem woven_callStatic (m : StaticMethod) (args : List Value) :
    Woven W D (callStatic m args) := by
  have hint (v : Value) {f : Int64 → Run Value} (hf : ∀ n, Woven W D (f n)) :
      Woven W D (lift v.asInt >>= f) := .bind (.lifted _) hf
  unfold callStatic
  split
  · exact .bind .readClock fun _ => .result _
  · exact .bind .readClock fun _ => .result _
  · exact .thrown _
  · exact .bind (.lifted _) fun _ => .result _
  · exact .result _
  · exact .result _
  · exact hint _ fun _ => .result _
  · exact hint _ fun _ => hint _ fun _ => .result _
  · exact hint _ fun _ => hint _ fun _ => .result _
  · exact hint _ fun _ => hint _ fun _ => .bind (.lifted _) fun _ => .result _
  · exact .result _
  · exact .bind (.lifted _) fun _ => .lifted _
  · exact hint _ fun _ => .result _
  · exact .result _
  · exact hint _ fun _ => woven_sleepFor _
  · exact .result _
  · exact .bind (.lifted _) fun _ => .bind .files fun _ => .result _
  · exact .bind (.lifted _) fun _ => .bind .files fun _ => .lifted _
  · exact .bind (.lifted _) fun _ => .lifted _
  · exact .thrown _

theorem woven_callRuntime (m : RuntimeMethod) (name : String) (args : List Value) :
    Woven W D (callRuntime m name args) := by
  unfold callRuntime
  split
  · exact .bind .processors fun _ => .result _
  · exact .thrown _
  · exact .thrown _

theorem woven_callFile (p : Files.Path) (m : FileMethod) (name : String) (args : List Value) :
    Woven W D (callFile p m name args) := by
  unfold callFile
  split
  · exact .bind .files fun _ => .result _
  · exact .result _
  · exact .result _
  · exact .thrown _

theorem woven_callOwn (cls : HostClass) (target : Value) (name : String) (args : List Value) :
    Woven W D (callOwn cls target name args) := by
  have hnamed {M : Type} (m? : Option M) {f : M → Run Value} (hf : ∀ m, Woven W D (f m)) :
      Woven W D (m?.elim (throw (.noSuchMethod cls name)) f) := by
    cases m? with
    | none => exact .thrown _
    | some m => exact hf m
  unfold callOwn
  split
  · exact hnamed _ fun m => .bind (.lifted _) fun _ => .bind (.write _ _) fun _ => .result _
  · exact hnamed _ fun m => .lifted _
  · exact hnamed _ fun m => woven_callRuntime m name args
  · exact hnamed _ fun m => woven_callFile _ m name args
  · exact hnamed _ fun m => .lifted _
  · exact .thrown _

theorem woven_callMethod (target : Value) (name : String) (args : List Value) :
    Woven W D (callMethod target name args) := by
  unfold callMethod
  split
  · exact .thrown _
  · refine .bind (.check _) fun _ => ?_
    split
    · exact .lifted _
    · exact woven_callOwn _ _ _ _

end Calls

/-! ### Expressions -/

mutual

/-- An expression declares nothing, and it changes nothing but its targets. -/
theorem woven_eval : ∀ e : Expr, (∀ name ∈ e.targets, W name) → Woven W D (eval e)
  | .int _, _ => by
      rw [eval]
      exact .result _
  | .str _, _ => by
      rw [eval]
      exact .result _
  | .bool _, _ => by
      rw [eval]
      exact .result _
  | .null, _ => by
      rw [eval]
      exact .result _
  | .var name, _ => by
      rw [eval]
      exact .lookup name
  | .staticField f, _ => by
      rw [eval]
      exact .bind (.check _) fun _ => .result _
  | .field target name, hW => by
      rw [eval]
      refine .bind (woven_eval target hW) fun v => ?_
      cases v <;> exact .thrown _
  | .call target method args, hW => by
      rw [Expr.targets, List.forall_mem_append] at hW
      rw [eval]
      exact .bind .poll fun _ => .bind (woven_eval target hW.1) fun _ =>
        .bind (woven_evalAll args hW.2) fun _ => woven_callMethod _ _ _
  | .staticCall m args, hW => by
      rw [eval]
      exact .bind .poll fun _ => .bind (.check _) fun _ => .bind (.check _) fun _ =>
        .bind (woven_evalAll args hW) fun _ => woven_callStatic _ _
  | .construct cls args, hW => by
      rw [eval]
      exact .bind .poll fun _ => .bind (.check _) fun _ => .bind (.check _) fun _ =>
        .bind (woven_evalAll args hW) fun _ => .lifted _
  | .unary op e, hW => by
      rw [eval]
      exact .bind (woven_eval e hW) fun _ => .lifted _
  | .arith op l r, hW => by
      rw [Expr.targets, List.forall_mem_append] at hW
      rw [eval]
      exact .bind (woven_eval l hW.1) fun _ => .bind (woven_eval r hW.2) fun _ => .lifted _
  | .compare op l r, hW => by
      rw [Expr.targets, List.forall_mem_append] at hW
      rw [eval]
      exact .bind (woven_eval l hW.1) fun _ => .bind (woven_eval r hW.2) fun _ =>
        .bind (.lifted _) fun _ => .result _
  | .logic .and l r, hW => by
      rw [Expr.targets, List.forall_mem_append] at hW
      rw [eval]
      refine .bind (woven_eval l hW.1) fun _ => .bind (.lifted _) fun b => ?_
      split
      · exact .bind (woven_eval r hW.2) fun _ => .bind (.lifted _) fun _ => .result _
      · exact .result _
  | .logic .or l r, hW => by
      rw [Expr.targets, List.forall_mem_append] at hW
      rw [eval]
      refine .bind (woven_eval l hW.1) fun _ => .bind (.lifted _) fun b => ?_
      split
      · exact .result _
      · exact .bind (woven_eval r hW.2) fun _ => .bind (.lifted _) fun _ => .result _
  | .ternary c y n, hW => by
      rw [Expr.targets, List.forall_mem_append, List.forall_mem_append] at hW
      rw [eval]
      refine .bind (woven_eval c hW.1) fun _ => .bind (.lifted _) fun b => ?_
      split
      · exact woven_eval y hW.2.1
      · exact woven_eval n hW.2.2
  | .assign name none e, hW => by
      rw [Expr.targets, List.forall_mem_cons] at hW
      rw [eval]
      exact .bind (woven_eval e hW.2) fun _ => .bind (.assign _ hW.1) fun _ => .result _
  | .assign name (some op) e, hW => by
      rw [Expr.targets, List.forall_mem_cons] at hW
      rw [eval]
      exact .bind (woven_eval e hW.2) fun _ => .bind (.lookup _) fun _ =>
        .bind (.lifted _) fun _ => .bind (.assign _ hW.1) fun _ => .result _
  | .step name op, hW => by
      have hname : W name := hW name (by simp)
      rw [eval]
      refine .bind (.lookup _) fun v => ?_
      cases v
      case int n => exact .bind (.assign _ hname) fun _ => .result _
      all_goals exact .thrown _

theorem woven_evalAll : ∀ es : List Expr, (∀ name ∈ Expr.allTargets es, W name) →
    Woven W D (evalAll es)
  | [], _ => by
      rw [evalAll]
      exact .result _
  | e :: es, hW => by
      rw [Expr.allTargets, List.forall_mem_append] at hW
      rw [evalAll]
      exact .bind (woven_eval e hW.1) fun _ => .bind (woven_evalAll es hW.2) fun _ => .result _

end

/-! ### The parts of statements -/

/-- Runs that are put together from what a program can do, with all variables to change. -/
abbrev WovenIn (D : Prop) {α : Type} (x : Run α) : Prop :=
  Woven (fun _ => True) D x

theorem wovenIn_eval (e : Expr) : WovenIn D (eval e) :=
  woven_eval e fun _ _ => trivial

theorem woven_evalBool (e : Expr) : WovenIn D (evalBool e) :=
  .bind (wovenIn_eval e) fun _ => .lifted _

theorem woven_evalCondition (c : Option Expr) : WovenIn D (evalCondition c) := by
  cases c with
  | none => exact .result _
  | some e => exact woven_evalBool e

theorem woven_evalUpdate (e : Option Expr) : WovenIn D (evalUpdate e) := by
  cases e with
  | none => exact .result _
  | some e => exact .bind (wovenIn_eval e) fun _ => .result _

theorem woven_initialValue (d : Declaration) : WovenIn D (initialValue d) := by
  refine .bind ?_ fun _ => .bind ?_ fun _ => .lifted _
  · cases d.type with
    | cls c => exact .check _
    | inferred => exact .result _
    | primitive p => exact .result _
  · cases d.init with
    | none => exact .result _
    | some e => exact wovenIn_eval e

theorem woven_execSimple (s : Simple) : WovenIn True (execSimple s) := by
  refine .bind .poll fun _ => ?_
  cases s with
  | declare d => exact .bind (woven_initialValue d) fun _ => .declareLocal _ _ trivial
  | expr e => exact .bind (wovenIn_eval e) fun _ => .result _

theorem woven_execInit (s : Option Simple) : WovenIn True (execInit s) := by
  cases s with
  | none => exact .result _
  | some s => exact woven_execSimple s

/-! ### Loops -/

theorem woven_loopRound {cond : Run Bool} {body : Run Completion} {update : Run Unit}
    (hcond : Woven W D cond) (hbody : Woven W D body) (hupdate : Woven W D update) :
    Woven W D (loopRound cond body update) := by
  unfold loopRound
  refine .bind hcond fun b => ?_
  split
  · refine .bind (.inBlock hbody) fun c => ?_
    cases c
    case broke => exact .result _
    all_goals exact .bind hupdate fun _ => .bind .poll fun _ => .result _
  · exact .result _

/-- Every way round a loop passes a question whether to stop, also after `continue`, without a
condition and without an update. -/
theorem paced_loopRound {cond : Run Bool} {body : Run Completion} {update : Run Unit}
    (hcond : Woven W D cond) (hbody : Woven W D body) (hupdate : Woven W D update) :
    Paced (loopRound cond body update) := by
  intro h s t hround
  unfold loopRound at hround
  obtain ⟨b, s₁, hc, hround⟩ := bind_ok hround
  have h₁ := hcond.polls_le h s
  rw [hc] at h₁
  cases b with
  | false => cases hround
  | true =>
      obtain ⟨c, s₂, hb, hround⟩ := bind_ok hround
      have h₂ := (Woven.inBlock hbody).polls_le h s₁
      rw [hb] at h₂
      have hlast : ((do update; Run.poll; return true) : Run Bool) h s₂ = (.ok true, t) →
          s₂.progress.polls < t.progress.polls := by
        intro hround
        obtain ⟨_, s₃, hu, hround⟩ := bind_ok hround
        obtain ⟨_, s₄, hp, hround⟩ := bind_ok hround
        have h₃ := hupdate.polls_le h s₂
        rw [hu] at h₃
        have h₄ := poll_ok hp
        cases hround
        simp only at h₁ h₂ h₃
        omega
      simp only at h₁ h₂
      -- Only a body that broke out leaves out the question, and then no round follows.
      cases c with
      | broke => cases hround
      | next => exact Nat.lt_of_le_of_lt (Nat.le_trans h₁ h₂) (hlast hround)
      | continued => exact Nat.lt_of_le_of_lt (Nat.le_trans h₁ h₂) (hlast hround)

/-- A loop with what its head may leave out. -/
theorem woven_loop (c update : Option Expr) {body : Run Completion} (hbody : WovenIn D body) :
    WovenIn D (Run.repeated (loopRound (evalCondition c) body (evalUpdate update))) := by
  have hcond : WovenIn D (evalCondition c) := woven_evalCondition c
  have hupdate : WovenIn D (evalUpdate update) := woven_evalUpdate update
  exact .repeated (woven_loopRound hcond hbody hupdate) (paced_loopRound hcond hbody hupdate)

/-! ### Statements -/

mutual

theorem woven_exec : ∀ s : Stmt, WovenIn True (exec s)
  | .simple s => by
      rw [exec]
      exact .bind (woven_execSimple s) fun _ => .result _
  | .block body => by
      rw [exec]
      exact .bind .poll fun _ => .inBlock (woven_execAll body)
  | .ifThen c yes => by
      rw [exec]
      refine .bind .poll fun _ => .bind (woven_evalBool c) fun b => ?_
      split
      · exact .inBlock (woven_exec yes)
      · exact .result _
  | .ifElse c yes no => by
      rw [exec]
      refine .bind .poll fun _ => .bind (woven_evalBool c) fun b => ?_
      split
      · exact .inBlock (woven_exec yes)
      · exact .inBlock (woven_exec no)
  | .while c body => by
      rw [exec]
      exact .bind .poll fun _ => .bind (woven_loop (some c) none (woven_exec body)) fun _ =>
        .result _
  | .for init c update body => by
      rw [exec]
      exact .bind .poll fun _ => .bind (.inBlock (.bind (woven_execInit init) fun _ =>
        woven_loop c update (woven_exec body))) fun _ => .result _
  | .break => by
      rw [exec]
      exact .bind .poll fun _ => .result _
  | .continue => by
      rw [exec]
      exact .bind .poll fun _ => .result _
  | .empty => by
      rw [exec]
      exact .bind .poll fun _ => .result _

theorem woven_execAll : ∀ ss : List Stmt, WovenIn True (execAll ss)
  | [] => by
      rw [execAll]
      exact .result _
  | s :: ss => by
      rw [execAll]
      refine .bind (woven_exec s) fun c => ?_
      cases c
      case next => exact woven_execAll ss
      all_goals exact .result _

end

end Run
end Machine
end GuardedRepl
