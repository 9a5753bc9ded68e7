import GuardedRepl.Proofs.Machine.Fitting

/-!
# What a run comes by

The parts of a program that its run evaluates and executes, each with the state that it is started
in.  A loop comes by its condition, its body and its update once in every round.

**Results.**
* `Visits.fits`: every part is scoped where it stands and is started in a state that fits its place.
* `Visits.permitted`: every expression that is evaluated has a permitted value.
* `Visits.ready`: no part that is run stands for something that is missing.
-/

namespace GuardedRepl
namespace Machine

open Library (HostClass StaticField StaticMethod)
open Program Run

/-- A part of a program. -/
inductive Task where
  | expr (e : Expr)
  | args (es : List Expr)
  | simple (s : Simple)
  | stmt (s : Stmt)
  | stmts (ss : List Stmt)
  /-- A loop at the beginning of a round. -/
  | loop (cond : Option Expr) (body : Stmt) (update : Option Expr)
  | top (p : TopLevel)

/-- A part that is run from a state comes by another part in another state next. -/
inductive Comes (h : Host) : Task → State → Task → State → Prop
  | fieldTarget {s : State} {e : Expr} {name : String} :
      Comes h (.expr (.field e name)) s (.expr e) s
  | callTarget {s t : State} {e : Expr} {m : String} {es : List Expr} :
      Run.poll h s = (.ok (), t) → Comes h (.expr (.call e m es)) s (.expr e) t
  | callArgs {s t u : State} {e : Expr} {m : String} {es : List Expr} {v : Value} :
      Run.poll h s = (.ok (), t) → eval e h t = (.ok v, u) →
      Comes h (.expr (.call e m es)) s (.args es) u
  | staticArgs {s t u w : State} {m : StaticMethod} {es : List Expr} :
      Run.poll h s = (.ok (), t) → Run.check (.cls m.owner.name) h t = (.ok (), u) →
      Run.check (.method m.owner.name m.name) h u = (.ok (), w) →
      Comes h (.expr (.staticCall m es)) s (.args es) w
  | constructArgs {s t u w : State} {c : HostClass} {es : List Expr} :
      Run.poll h s = (.ok (), t) → Run.check (.cls c.name) h t = (.ok (), u) →
      Run.check (.method c.name "<init>") h u = (.ok (), w) →
      Comes h (.expr (.construct c es)) s (.args es) w
  | operand {s : State} {op : Syntax.UnaryOp} {e : Expr} :
      Comes h (.expr (.unary op e)) s (.expr e) s
  | arithLeft {s : State} {op : Syntax.ArithOp} {l r : Expr} :
      Comes h (.expr (.arith op l r)) s (.expr l) s
  | arithRight {s t : State} {op : Syntax.ArithOp} {l r : Expr} {v : Value} :
      eval l h s = (.ok v, t) → Comes h (.expr (.arith op l r)) s (.expr r) t
  | compareLeft {s : State} {op : Syntax.RelOp} {l r : Expr} :
      Comes h (.expr (.compare op l r)) s (.expr l) s
  | compareRight {s t : State} {op : Syntax.RelOp} {l r : Expr} {v : Value} :
      eval l h s = (.ok v, t) → Comes h (.expr (.compare op l r)) s (.expr r) t
  | logicLeft {s : State} {op : Syntax.LogicOp} {l r : Expr} :
      Comes h (.expr (.logic op l r)) s (.expr l) s
  | logicRight {s t : State} {op : Syntax.LogicOp} {l r : Expr} :
      eval l h s = (.ok (.bool (op = .and)), t) → Comes h (.expr (.logic op l r)) s (.expr r) t
  | cond {s : State} {c y n : Expr} : Comes h (.expr (.ternary c y n)) s (.expr c) s
  | yes {s t : State} {c y n : Expr} :
      eval c h s = (.ok (.bool true), t) → Comes h (.expr (.ternary c y n)) s (.expr y) t
  | no {s t : State} {c y n : Expr} :
      eval c h s = (.ok (.bool false), t) → Comes h (.expr (.ternary c y n)) s (.expr n) t
  | assigned {s : State} {name : String} {op : Option Syntax.ArithOp} {e : Expr} :
      Comes h (.expr (.assign name op e)) s (.expr e) s
  | headArg {s : State} {e : Expr} {es : List Expr} : Comes h (.args (e :: es)) s (.expr e) s
  | tailArgs {s t : State} {e : Expr} {es : List Expr} {v : Value} :
      eval e h s = (.ok v, t) → Comes h (.args (e :: es)) s (.args es) t
  | init {s t u : State} {d : Declaration} {e : Expr} :
      Run.poll h s = (.ok (), t) → checkType d.type h t = (.ok (), u) → d.init = some e →
      Comes h (.simple (.declare d)) s (.expr e) u
  | simpleExpr {s t : State} {e : Expr} :
      Run.poll h s = (.ok (), t) → Comes h (.simple (.expr e)) s (.expr e) t
  | simple {s : State} {x : Simple} : Comes h (.stmt (.simple x)) s (.simple x) s
  | block {s t : State} {ss : List Stmt} :
      Run.poll h s = (.ok (), t) → Comes h (.stmt (.block ss)) s (.stmts ss) t.enter
  | ifThenCond {s t : State} {c : Expr} {y : Stmt} :
      Run.poll h s = (.ok (), t) → Comes h (.stmt (.ifThen c y)) s (.expr c) t
  | ifThenYes {s t u : State} {c : Expr} {y : Stmt} :
      Run.poll h s = (.ok (), t) → evalBool c h t = (.ok true, u) →
      Comes h (.stmt (.ifThen c y)) s (.stmt y) u.enter
  | ifElseCond {s t : State} {c : Expr} {y n : Stmt} :
      Run.poll h s = (.ok (), t) → Comes h (.stmt (.ifElse c y n)) s (.expr c) t
  | ifElseYes {s t u : State} {c : Expr} {y n : Stmt} :
      Run.poll h s = (.ok (), t) → evalBool c h t = (.ok true, u) →
      Comes h (.stmt (.ifElse c y n)) s (.stmt y) u.enter
  | ifElseNo {s t u : State} {c : Expr} {y n : Stmt} :
      Run.poll h s = (.ok (), t) → evalBool c h t = (.ok false, u) →
      Comes h (.stmt (.ifElse c y n)) s (.stmt n) u.enter
  | while {s t : State} {c : Expr} {b : Stmt} :
      Run.poll h s = (.ok (), t) → Comes h (.stmt (.while c b)) s (.loop (some c) b none) t
  | forInit {s t : State} {x : Simple} {c u : Option Expr} {b : Stmt} :
      Run.poll h s = (.ok (), t) → Comes h (.stmt (.for (some x) c u b)) s (.simple x) t.enter
  | forLoop {s t w : State} {x : Option Simple} {c u : Option Expr} {b : Stmt} :
      Run.poll h s = (.ok (), t) → execInit x h t.enter = (.ok (), w) →
      Comes h (.stmt (.for x c u b)) s (.loop c b u) w
  | loopCond {s : State} {c : Expr} {b : Stmt} {u : Option Expr} :
      Comes h (.loop (some c) b u) s (.expr c) s
  | loopBody {s t : State} {c : Option Expr} {b : Stmt} {u : Option Expr} :
      evalCondition c h s = (.ok true, t) → Comes h (.loop c b u) s (.stmt b) t.enter
  | loopUpdate {s t w : State} {c : Option Expr} {b : Stmt} {e : Expr} {k : Completion} :
      evalCondition c h s = (.ok true, t) → Run.inBlock (exec b) h t = (.ok k, w) → k ≠ .broke →
      Comes h (.loop c b (some e)) s (.expr e) w
  | loopAgain {s t : State} {c : Option Expr} {b : Stmt} {u : Option Expr} :
      loopRound (evalCondition c) (exec b) (evalUpdate u) h s = (.ok true, t) →
      Comes h (.loop c b u) s (.loop c b u) t
  | headStmt {s : State} {x : Stmt} {ss : List Stmt} : Comes h (.stmts (x :: ss)) s (.stmt x) s
  | tailStmts {s t : State} {x : Stmt} {ss : List Stmt} :
      exec x h s = (.ok .next, t) → Comes h (.stmts (x :: ss)) s (.stmts ss) t
  | topInit {s t u : State} {d : Declaration} {e : Expr} :
      Run.poll h s = (.ok (), t) → checkType d.type h t = (.ok (), u) → d.init = some e →
      Comes h (.top (.declare d)) s (.expr e) u
  | topExpr {s t : State} {e : Expr} :
      Run.poll h s = (.ok (), t) → Comes h (.top (.expr e)) s (.expr e) t
  | topStmt {s : State} {x : Stmt} : Comes h (.top (.stmt x)) s (.stmt x) s

/-- A part that is run from a state comes by another part in another state. -/
inductive Visits (h : Host) (task : Task) (s : State) : Task → State → Prop
  | start : Visits h task s task s
  | next {task' task'' : Task} {t u : State} :
      Visits h task s task' t → Comes h task' t task'' u → Visits h task s task'' u

/-- A part is scoped where it stands, and `n` blocks are around it. -/
def Task.Scoped (names : Names) (env : Env) (n : Nat) : Task → Prop
  | .expr e => e.Scoped env
  | .args es => ∀ e ∈ es, e.Scoped env
  | .simple x => x.Scoped env
  | .stmt x => x.Scoped env
  | .stmts ss => Stmt.AllScoped env ss ∧ 0 < n
  | .loop c b u =>
    (∀ e ∈ c, e.Scoped env) ∧ (∀ e ∈ u, e.Scoped env) ∧ b.Scoped env.looping
  | .top p => p.Scoped names ∧ env = ⟨names, [], false⟩ ∧ n = 0

/-- A part is scoped in some place, and a state fits there. -/
def Task.FitsIn (B : Barrier) (names : Names) (task : Task) (s : State) : Prop :=
  ∃ env n, task.Scoped names env n ∧ s.Fits B env n

section Fitting

variable {B : Barrier} {h : Host} {names : Names} {env : Env} {n : Nat} {task' : Task}
  {s t : State}

theorem State.Fits.polled (hs : s.Fits B env n) (hhosts : h.Twins B h)
    (ht : Run.poll h s = (.ok (), t)) : t.Fits B env n :=
  (Meets.poll hhosts (State.Fits.stable B env n)).ok hs ht

theorem State.Fits.passed (hs : s.Fits B env n) (hhosts : h.Twins B h) {a : Access}
    (ht : Run.check a h s = (.ok (), t)) : t.Fits B env n :=
  ((Meets.check hhosts (State.Fits.stable B env n) a).ok hs ht).1

theorem State.Fits.evaluated (hs : s.Fits B env n) (hhosts : h.Twins B h) {e : Expr} {v : Value}
    (he : e.Scoped env) (ht : eval e h s = (.ok v, t)) : t.Fits B env n :=
  ((meets_eval hhosts he).ok hs ht).1

theorem State.Fits.tested (hs : s.Fits B env n) (hhosts : h.Twins B h) {c : Expr} {b : Bool}
    (hc : c.Scoped env) (ht : evalBool c h s = (.ok b, t)) : t.Fits B env n :=
  (meets_evalBool hhosts hc).ok hs ht

/-! ### The next part, by the kind of the part before it -/

theorem Comes.fits_expr (hhosts : h.Twins B h) {e : Expr} (hcomes : Comes h (.expr e) s task' t)
    (he : e.Scoped env) (hs : s.Fits B env n) : task'.FitsIn B names t := by
  cases hcomes with
  | fieldTarget =>
      cases he with
      | field he => exact ⟨env, n, he, hs⟩
  | callTarget hp =>
      cases he with
      | call he _ => exact ⟨env, n, he, hs.polled hhosts hp⟩
  | callArgs hp hv =>
      cases he with
      | call he hes => exact ⟨env, n, hes, (hs.polled hhosts hp).evaluated hhosts he hv⟩
  | staticArgs hp hc hm =>
      cases he with
      | staticCall _ _ hes =>
          exact ⟨env, n, hes, ((hs.polled hhosts hp).passed hhosts hc).passed hhosts hm⟩
  | constructArgs hp hc hm =>
      cases he with
      | construct _ _ hes =>
          exact ⟨env, n, hes, ((hs.polled hhosts hp).passed hhosts hc).passed hhosts hm⟩
  | operand =>
      cases he with
      | unary he => exact ⟨env, n, he, hs⟩
  | arithLeft =>
      cases he with
      | arith hl _ => exact ⟨env, n, hl, hs⟩
  | arithRight hv =>
      cases he with
      | arith hl hr => exact ⟨env, n, hr, hs.evaluated hhosts hl hv⟩
  | compareLeft =>
      cases he with
      | compare hl _ => exact ⟨env, n, hl, hs⟩
  | compareRight hv =>
      cases he with
      | compare hl hr => exact ⟨env, n, hr, hs.evaluated hhosts hl hv⟩
  | logicLeft =>
      cases he with
      | logic hl _ => exact ⟨env, n, hl, hs⟩
  | logicRight hv =>
      cases he with
      | logic hl hr => exact ⟨env, n, hr, hs.evaluated hhosts hl hv⟩
  | cond =>
      cases he with
      | ternary hc _ _ => exact ⟨env, n, hc, hs⟩
  | yes hv =>
      cases he with
      | ternary hc hy _ => exact ⟨env, n, hy, hs.evaluated hhosts hc hv⟩
  | no hv =>
      cases he with
      | ternary hc _ hn => exact ⟨env, n, hn, hs.evaluated hhosts hc hv⟩
  | assigned =>
      cases he with
      | assign _ he => exact ⟨env, n, he, hs⟩

theorem Comes.fits_args (hhosts : h.Twins B h) {es : List Expr}
    (hcomes : Comes h (.args es) s task' t) (hes : ∀ e ∈ es, e.Scoped env) (hs : s.Fits B env n) :
    task'.FitsIn B names t := by
  cases hcomes with
  | headArg => exact ⟨env, n, hes _ List.mem_cons_self, hs⟩
  | tailArgs hv =>
      exact ⟨env, n, fun e he => hes e (List.mem_cons_of_mem _ he),
        hs.evaluated hhosts (hes _ List.mem_cons_self) hv⟩

theorem Comes.fits_simple (hhosts : h.Twins B h) {x : Simple}
    (hcomes : Comes h (.simple x) s task' t) (hx : x.Scoped env) (hs : s.Fits B env n) :
    task'.FitsIn B names t := by
  cases hcomes with
  | init hp hc hi =>
      cases hx with
      | declare hd =>
          exact ⟨env, n, hd.init _ hi, (meets_checkType hhosts _).ok (hs.polled hhosts hp) hc⟩
  | simpleExpr hp =>
      cases hx with
      | expr he => exact ⟨env, n, he, hs.polled hhosts hp⟩

theorem Comes.fits_stmt (hhosts : h.Twins B h) {x : Stmt} (hcomes : Comes h (.stmt x) s task' t)
    (hx : x.Scoped env) (hs : s.Fits B env n) : task'.FitsIn B names t := by
  cases hcomes with
  | simple =>
      cases hx with
      | simple hx => exact ⟨env, n, hx, hs⟩
  | block hp =>
      cases hx with
      | block hss => exact ⟨env, n + 1, ⟨hss, Nat.succ_pos n⟩, (hs.polled hhosts hp).entered⟩
  | ifThenCond hp =>
      cases hx with
      | ifThen hc _ => exact ⟨env, n, hc, hs.polled hhosts hp⟩
  | ifThenYes hp hv =>
      cases hx with
      | ifThen hc hy =>
          exact ⟨env, n + 1, hy, ((hs.polled hhosts hp).tested hhosts hc hv).entered⟩
  | ifElseCond hp =>
      cases hx with
      | ifElse hc _ _ => exact ⟨env, n, hc, hs.polled hhosts hp⟩
  | ifElseYes hp hv =>
      cases hx with
      | ifElse hc hy _ =>
          exact ⟨env, n + 1, hy, ((hs.polled hhosts hp).tested hhosts hc hv).entered⟩
  | ifElseNo hp hv =>
      cases hx with
      | ifElse hc _ hn =>
          exact ⟨env, n + 1, hn, ((hs.polled hhosts hp).tested hhosts hc hv).entered⟩
  | «while» hp =>
      cases hx with
      | «while» hc hb =>
          refine ⟨env, n, ⟨fun e he => ?_, fun e he => (by cases he), hb⟩, hs.polled hhosts hp⟩
          cases he
          exact hc
  | forInit hp =>
      cases hx with
      | «for» hinit _ _ _ => exact ⟨env, n + 1, hinit _ rfl, (hs.polled hhosts hp).entered⟩
  | forLoop hp hi =>
      cases hx with
      | «for» hinit hc hu hb =>
          have hhead := (meets_execInit hhosts hinit).ok (hs.polled hhosts hp).entered hi
          exact ⟨_, n + 1, ⟨hc, hu, hb⟩, hhead⟩

theorem Comes.fits_stmts (hhosts : h.Twins B h) {ss : List Stmt}
    (hcomes : Comes h (.stmts ss) s task' t) (hss : Stmt.AllScoped env ss) (hn : 0 < n)
    (hs : s.Fits B env n) : task'.FitsIn B names t := by
  cases hcomes with
  | headStmt =>
      cases hss with
      | cons hx _ => exact ⟨env, n, hx, hs⟩
  | tailStmts hx =>
      cases hss with
      | cons hscoped hss =>
          exact ⟨_, n, ⟨hss, hn⟩, ((meets_exec hhosts hscoped).ok hs hx).2 rfl hn⟩

theorem Comes.fits_loop (hhosts : h.Twins B h) {c u : Option Expr} {b : Stmt}
    (hcomes : Comes h (.loop c b u) s task' t) (hc : ∀ e ∈ c, e.Scoped env)
    (hu : ∀ e ∈ u, e.Scoped env) (hb : b.Scoped env.looping) (hs : s.Fits B env n) :
    task'.FitsIn B names t := by
  cases hcomes with
  | loopCond => exact ⟨env, n, hc _ rfl, hs⟩
  | loopBody hv =>
      have ht := ((meets_evalCondition hhosts hc).ok hs hv).entered
      exact ⟨env.looping, n + 1, hb, ht.weaken id⟩
  | loopUpdate hv hbody _ =>
      have ht := (meets_evalCondition hhosts hc).ok hs hv
      exact ⟨env, n, hu _ rfl,
        (meets_body (completes_exec hhosts hb) (assembled_exec roomy_outer _)).ok ht hbody⟩
  | loopAgain hround =>
      have hkeeps := meets_round (n := n) hhosts hc hu (completes_exec hhosts hb)
        (assembled_exec roomy_outer _)
      exact ⟨env, n, ⟨hc, hu, hb⟩, hkeeps.ok hs hround⟩

theorem Comes.fits_top (hhosts : h.Twins B h) {p : TopLevel} (hcomes : Comes h (.top p) s task' t)
    (hp : p.Scoped names) (hs : s.Fits B ⟨names, [], false⟩ 0) : task'.FitsIn B names t := by
  cases hcomes with
  | topInit hpoll hc hi =>
      cases hp with
      | declare hd =>
          exact ⟨_, 0, hd.init _ hi, (meets_checkType hhosts _).ok (hs.polled hhosts hpoll) hc⟩
  | topExpr hpoll =>
      cases hp with
      | expr he => exact ⟨_, 0, he, hs.polled hhosts hpoll⟩
  | topStmt =>
      cases hp with
      | stmt hx => exact ⟨_, 0, hx, hs⟩

/-- The next part is scoped where it stands, too, and it is started in a state that fits there. -/
theorem Comes.fits {task : Task} (hhosts : h.Twins B h) (hcomes : Comes h task s task' t)
    (htask : task.FitsIn B names s) : task'.FitsIn B names t := by
  obtain ⟨env, n, htask, hs⟩ := htask
  cases task with
  | expr e => exact hcomes.fits_expr hhosts htask hs
  | args es => exact hcomes.fits_args hhosts htask hs
  | simple x => exact hcomes.fits_simple hhosts htask hs
  | stmt x => exact hcomes.fits_stmt hhosts htask hs
  | stmts ss => exact hcomes.fits_stmts hhosts htask.1 htask.2 hs
  | loop c b u => exact hcomes.fits_loop hhosts htask.1 htask.2.1 htask.2.2 hs
  | top p =>
      obtain ⟨hp, rfl, rfl⟩ := htask
      exact hcomes.fits_top hhosts hp hs

end Fitting

/-- Every part is scoped where it stands and started in a state that fits its place. -/
theorem Visits.fits {B : Barrier} {h : Host} {names : Names} {p : TopLevel} {task : Task}
    {s t : State} (hhosts : h.Twins B h) (hp : p.Scoped names)
    (hs : s.Fits B ⟨names, [], false⟩ 0) (hvisits : Visits h (.top p) s task t) :
    task.FitsIn B names t := by
  induction hvisits with
  | start => exact ⟨_, 0, ⟨hp, rfl, rfl⟩, hs⟩
  | next _ hcomes ih => exact hcomes.fits hhosts ih

/-- Every expression that is evaluated has a permitted value. -/
theorem Visits.permitted {B : Barrier} {h : Host} {names : Names} {p : TopLevel} {e : Expr}
    {s t u : State} {v : Value} (hhosts : h.Twins B h) (hp : p.Scoped names)
    (hs : s.Fits B ⟨names, [], false⟩ 0) (hvisits : Visits h (.top p) s (.expr e) t)
    (hv : eval e h t = (.ok v, u)) : v.Permitted B := by
  obtain ⟨env, n, he, ht⟩ := hvisits.fits hhosts hp hs
  exact ((meets_eval hhosts he).ok ht hv).2

/-- What an expression stands for is there: its variable, or its class and member. -/
def Ready (s : State) : Expr → Prop
  | .var name => (s.lookup name).isSome
  | .assign name _ _ => ∀ v, (s.assign name v).isSome
  | .step name _ => (s.lookup name).isSome ∧ ∀ v, (s.assign name v).isSome
  | .staticField f => Known f.owner ∧ StaticField.find? f.owner f.name = some f
  | .staticCall m _ => Known m.owner ∧ StaticMethod.find? m.owner m.name = some m
  | .construct c _ => Known c ∧ c.isConstructible = true
  | _ => True

/-- What a part stands for is there. -/
def Task.Ready (s : State) : Task → Prop
  | .expr e => Machine.Ready s e
  | .simple (.declare d) => d.type.IsKnown
  | .top (.declare d) => d.type.IsKnown
  | _ => True

/-- No part that is run stands for something that is missing. -/
theorem Visits.ready {B : Barrier} {h : Host} {names : Names} {p : TopLevel} {task : Task}
    {s t : State} (hhosts : h.Twins B h) (hp : p.Scoped names)
    (hs : s.Fits B ⟨names, [], false⟩ 0) (hvisits : Visits h (.top p) s task t) :
    task.Ready t := by
  obtain ⟨env, n, htask, ht⟩ := hvisits.fits hhosts hp hs
  have hslot {name : String} (hname : env.isVariable name = true) (v : Value) :
      (t.assign name v).isSome := by
    rw [isSome_assign]
    exact ht.bound hname
  cases task with
  | expr e =>
      cases htask with
      | var hname => exact ht.bound hname
      | assign hname _ => exact hslot hname
      | step hname => exact ⟨ht.bound hname, hslot hname⟩
      | staticField hknown hfind => exact ⟨hknown, hfind⟩
      | staticCall hknown hfind _ => exact ⟨hknown, hfind⟩
      | construct hknown hc _ => exact ⟨hknown, hc⟩
      | _ => trivial
  | simple x =>
      cases htask with
      | declare hd => exact hd.type
      | expr _ => trivial
  | top p =>
      obtain ⟨hp, -, -⟩ := htask
      cases hp with
      | declare hd => exact hd.type
      | _ => trivial
  | _ => trivial

end Machine
end GuardedRepl
