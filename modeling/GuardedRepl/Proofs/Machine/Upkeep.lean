import GuardedRepl.Proofs.Machine.Calls
import GuardedRepl.Proofs.Machine.Visits

/-!
# What a run keeps up

A property of states and a property of values that hold throughout a run, as long as the parts that
the run comes by are of some kind.  What has to be shown for them is put into one structure: how the
variables are read and written, and which values the operations and calls yield.

**Results.**
* `Upkeep.eval`, `Upkeep.exec`, `Upkeep.runTop`: expressions, statements and snippets keep the
  property of states up.
* `Upkeep.visits`: it holds wherever the run comes by.
-/

namespace GuardedRepl
namespace Machine

open Program Run

/-- Every part that a run comes by is of some kind. -/
def Throughout (h : Host) (L : Task → State → Prop) (task : Task) (s : State) : Prop :=
  ∀ task' t, Visits h task s task' t → L task' t

theorem Visits.trans {h : Host} {task task' task'' : Task} {s t u : State}
    (hfirst : Visits h task s task' t) (hsecond : Visits h task' t task'' u) :
    Visits h task s task'' u := by
  induction hsecond with
  | start => exact hfirst
  | next _ hcomes ih => exact .next ih hcomes

namespace Throughout

variable {h : Host} {L : Task → State → Prop} {task task' : Task} {s t : State}

theorem here (hL : Throughout h L task s) : L task s :=
  hL _ _ .start

theorem step (hL : Throughout h L task s) (hcomes : Comes h task s task' t) :
    Throughout h L task' t :=
  fun _ _ hvisits => hL _ _ (.trans (.next .start hcomes) hvisits)

end Throughout

/-- What has to be shown of a property `P` of states and a property `Q` of values, if every part
that is run is of the kind `L`. -/
structure Upkeep (h : Host) (L : Task → State → Prop) (P : State → Prop) (Q : Value → Prop) :
    Prop where
  /-- Only the variables count. -/
  same : ∀ {s t : State}, t.session.vars = s.session.vars → t.frames = s.frames → P s → P t
  enter : ∀ {s : State}, P s → P s.enter
  leave : ∀ {s : State}, P s → P s.leave
  lookup : ∀ {s : State} {name : String} {v : Value}, P s → s.lookup name = some v → Q v
  declareLocal : ∀ {s : State} {name : String} {v : Value}, P s → Q v → P (s.declareLocal name v)
  declare : ∀ {s : State} {d : Declaration} {v w : Value} {snippet : Snippet}, P s → Q v →
    fitted d.type v = .ok w →
    P { s with session := s.session.declare ⟨d.name, d.type, w, snippet⟩ }
  assign : ∀ {s t u : State} {name : String} {op : Option Syntax.ArithOp} {e : Expr} {v : Value},
    P t → Q v → L (.expr (.assign name op e)) s →
    Machine.eval (.assign name op e) h s = (.ok v, u) → t.assign name v = some u → P u
  step : ∀ {s t : State} {name : String} {m n : Int64}, P s → s.lookup name = some (.int m) →
    s.assign name (.int n) = some t → P t
  /-- What is no string may be anything. -/
  plain : ∀ {v : Value}, (∀ s, v ≠ .str s) → Q v
  literal : ∀ {text : String} {s : State}, L (.expr (.str text)) s → Q (.str text)
  default : ∀ type : DeclaredType, Q type.default
  arith : ∀ {op : Syntax.ArithOp} {v w u : Value}, v.arith op w = .ok u → Q u
  staticCall : ∀ {m : Library.StaticMethod} {es : List Expr} {args : List Value} {s t u : State}
    {v : Value}, L (.expr (.staticCall m es)) s →
    Machine.eval (.staticCall m es) h s = (.ok v, u) → callStatic m args h t = (.ok v, u) → Q v
  call : ∀ {e : Expr} {name : String} {es : List Expr} {target : Value} {args : List Value}
    {s t u : State} {v : Value}, Q target → L (.expr (.call e name es)) s →
    Machine.eval (.call e name es) h s = (.ok v, u) →
    callMethod target name args h t = (.ok v, u) → Q v

namespace Upkeep

variable {h : Host} {L : Task → State → Prop} {P : State → Prop} {Q : Value → Prop} {s : State}

/-- The run keeps the property of states up. -/
abbrev Stays {α : Type} (P : State → Prop) (x : Run α) (h : Host) (s : State) : Prop :=
  Leads x h s (fun _ => P) P

/-- The run keeps the property of states up and yields a value with the other one. -/
abbrev Yields (P : State → Prop) (Q : Value → Prop) (x : Run Value) (h : Host) (s : State) : Prop :=
  Leads x h s (fun v t => P t ∧ Q v) P

theorem observes {α : Type} {x : Run α} {F : α → Prop} (hU : Upkeep h L P Q) (hx : Observes x F)
    (hs : P s) : Leads x h s (fun a t => P t ∧ F a) P :=
  (hx h s).mono (fun _ _ ht => ⟨hU.same (by rw [ht.1.1]) ht.1.2 hs, ht.2⟩)
    fun _ ht => hU.same (by rw [ht.1]) ht.2 hs

theorem poll (hU : Upkeep h L P Q) (hs : P s) : Stays P Run.poll h s :=
  (hU.observes .poll hs).mono (fun _ _ ht => ht.1) fun _ ht => ht

theorem check (hU : Upkeep h L P Q) (hs : P s) (a : Access) : Stays P (Run.check a) h s :=
  (hU.observes (.check a) hs).mono (fun _ _ ht => ht.1) fun _ ht => ht

theorem plainly {v : Value} (hU : Upkeep h L P Q) (hv : ∀ s, v ≠ .str s) (hs : P s) :
    Yields P Q (pure v) h s :=
  .result ⟨hs, hU.plain hv⟩

/-- A computation without the host before another run. -/
theorem lift {α β : Type} {x : Except Exception α} {f : α → Run β} {R : β → State → Prop}
    (hs : P s) (hf : ∀ a, x = .ok a → Leads (f a) h s R P) :
    Leads (Run.lift x >>= f) h s R P := by
  cases x with
  | error e => exact .bind (Q := fun _ _ => False) (.thrown hs) fun _ _ _ hfalse => hfalse.elim
  | ok a =>
      refine .bind (Q := fun b t => b = a ∧ t = s) (.result ⟨rfl, rfl⟩) fun b t _ ht => ?_
      obtain ⟨rfl, rfl⟩ := ht
      exact hf b rfl

theorem readVariable (hU : Upkeep h L P Q) (hs : P s) (name : String) :
    Leads (Run.lookup name) h s (fun v t => t = s ∧ s.lookup name = some v ∧ Q v) P := by
  cases hfound : s.lookup name with
  | none =>
      refine ⟨fun v t ht => ?_, fun e t ht => ?_⟩ <;> rw [lookup_eq_unbound hfound] at ht <;>
        cases ht
      exact hs
  | some w =>
      refine ⟨fun v t ht => ?_, fun e t ht => ?_⟩ <;> rw [lookup_eq_ok hfound] at ht <;> cases ht
      exact ⟨rfl, rfl, hU.lookup hs hfound⟩

theorem writeVariable {name : String} {v : Value} (hs : P s) :
    Leads (Run.assign name v) h s (fun _ t => s.assign name v = some t) P := by
  refine ⟨fun _ t ht => ?_, fun e t ht => ?_⟩ <;> unfold Run.assign at ht <;> split at ht <;>
    cases ht
  · assumption
  · exact hs

theorem asBool_ok {v : Value} {b : Bool} (hv : v.asBool = .ok b) : v = .bool b := by
  cases v <;> cases hv
  rfl

/-! ### Expressions -/

/-- From wherever an expression is evaluated, it keeps the property of states up and yields a value
with the other one. -/
abbrev Keeps (h : Host) (L : Task → State → Prop) (P : State → Prop) (Q : Value → Prop) (e : Expr) :
    Prop :=
  ∀ {s : State}, P s → Throughout h L (.expr e) s → Yields P Q (Machine.eval e) h s

/-- From wherever arguments are evaluated, they keep the property of states up. -/
abbrev KeepsAll (h : Host) (L : Task → State → Prop) (P : State → Prop) (es : List Expr) : Prop :=
  ∀ {s : State}, P s → Throughout h L (.args es) s → Stays P (Machine.evalAll es) h s

section Kinds

variable {e l r c yes no : Expr} {es : List Expr}

/-! #### Literals and variables -/

theorem keeps_str (hU : Upkeep h L P Q) (text : String) : Keeps h L P Q (.str text) := by
  intro s hs hL
  rw [Machine.eval]
  exact .result ⟨hs, hU.literal hL.here⟩

theorem keeps_var (hU : Upkeep h L P Q) (name : String) : Keeps h L P Q (.var name) := by
  intro s hs _
  rw [Machine.eval]
  refine (hU.readVariable hs name).mono (fun v t ht => ?_) fun _ ht => ht
  obtain ⟨rfl, -, hv⟩ := ht
  exact ⟨hs, hv⟩

theorem keeps_assign (hU : Upkeep h L P Q) (name : String) (he : Keeps h L P Q e) :
    Keeps h L P Q (.assign name none e) := by
  intro s hs hL
  refine .remember ?_
  rw [Machine.eval]
  refine .bind (he hs (hL.step .assigned)) fun v t _ ht =>
    .bind (writeVariable ht.1) fun _ u _ hu => .result fun heval => ?_
  rw [← Machine.eval] at heval
  exact ⟨hU.assign ht.1 ht.2 hL.here heval hu, ht.2⟩

theorem keeps_compound (hU : Upkeep h L P Q) (name : String) (op : Syntax.ArithOp)
    (he : Keeps h L P Q e) : Keeps h L P Q (.assign name (some op) e) := by
  intro s hs hL
  refine .remember ?_
  rw [Machine.eval]
  refine .bind (he hs (hL.step .assigned)) fun w t _ ht =>
    .bind (hU.readVariable ht.1 name) fun v t' _ hv => lift (hv.1 ▸ ht.1) fun x hx => ?_
  obtain ⟨rfl, -, -⟩ := hv
  refine .bind (writeVariable ht.1) fun _ u _ hu => .result fun heval => ?_
  rw [← Machine.eval] at heval
  exact ⟨hU.assign ht.1 (hU.arith hx) hL.here heval hu, hU.arith hx⟩

theorem keeps_step (hU : Upkeep h L P Q) (name : String) (op : Syntax.StepOp) :
    Keeps h L P Q (.step name op) := by
  intro s hs _
  rw [Machine.eval]
  refine .bind (hU.readVariable hs name) fun v t _ hv => ?_
  obtain ⟨rfl, hfound, -⟩ := hv
  cases v
  case int n =>
      exact .bind (writeVariable hs) fun _ u _ hu => hU.plainly (by simp) (hU.step hs hfound hu)
  all_goals exact .thrown hs

/-! #### Accesses and calls -/

theorem keeps_staticField (hU : Upkeep h L P Q) (f : Library.StaticField) :
    Keeps h L P Q (.staticField f) := by
  intro s hs _
  rw [Machine.eval]
  exact .bind (hU.check hs _) fun _ t _ ht => hU.plainly (by cases f <;> simp [staticValue]) ht

theorem keeps_field (name : String) (he : Keeps h L P Q e) : Keeps h L P Q (.field e name) := by
  intro s hs hL
  rw [Machine.eval]
  refine .bind (he hs (hL.step .fieldTarget)) fun v t _ ht => ?_
  cases v <;> exact .thrown ht.1

/-- What is known of a call is known of the evaluation of the whole expression, which is therefore
kept in mind until the call has been made. -/
theorem keeps_call (hU : Upkeep h L P Q) (method : String) (he : Keeps h L P Q e)
    (hes : KeepsAll h L P es) : Keeps h L P Q (.call e method es) := by
  intro s hs hL
  refine .remember ?_
  rw [Machine.eval]
  refine .bind (hU.poll hs) fun _ t hpoll ht =>
    .bind (he ht (hL.step (.callTarget hpoll))) fun v u hv hu =>
    .bind (hes hu.1 (hL.step (.callArgs hpoll hv))) fun args w _ hw => ?_
  refine .remember ((hU.observes (observes_callMethod v method args) hw).mono
    (fun a x hx hcall heval => ⟨hx.1, ?_⟩) fun _ hx => hx)
  rw [← Machine.eval] at heval
  exact hU.call hu.2 hL.here heval hcall

theorem keeps_staticCall (hU : Upkeep h L P Q) (m : Library.StaticMethod)
    (hes : KeepsAll h L P es) : Keeps h L P Q (.staticCall m es) := by
  intro s hs hL
  refine .remember ?_
  rw [Machine.eval]
  refine .bind (hU.poll hs) fun _ t hpoll ht =>
    .bind (hU.check ht _) fun _ u hcls hu =>
    .bind (hU.check hu _) fun _ w hmethod hw =>
    .bind (hes hw (hL.step (.staticArgs hpoll hcls hmethod))) fun args x _ hx => ?_
  refine .remember ((hU.observes (observes_callStatic m args) hx).mono
    (fun a y hy hcall heval => ⟨hy.1, ?_⟩) fun _ hy => hy)
  rw [← Machine.eval] at heval
  exact hU.staticCall hL.here heval hcall

theorem keeps_construct (hU : Upkeep h L P Q) (cls : Library.HostClass)
    (hes : KeepsAll h L P es) : Keeps h L P Q (.construct cls es) := by
  intro s hs hL
  rw [Machine.eval]
  exact .bind (hU.poll hs) fun _ t hpoll ht =>
    .bind (hU.check ht _) fun _ u hcls hu =>
    .bind (hU.check hu _) fun _ w hmethod hw =>
    .bind (hes hw (hL.step (.constructArgs hpoll hcls hmethod))) fun args x _ hx =>
    .lifted (fun v hv => ⟨hx, hU.plain (construct_ne_str hv)⟩) hx

/-! #### Operators -/

theorem keeps_unary (hU : Upkeep h L P Q) (op : Syntax.UnaryOp) (he : Keeps h L P Q e) :
    Keeps h L P Q (.unary op e) := by
  intro s hs hL
  rw [Machine.eval]
  exact .bind (he hs (hL.step .operand)) fun v t _ ht =>
    .lifted (fun u hu => ⟨ht.1, hU.plain (Value.unary_ne_str hu)⟩) ht.1

theorem keeps_arith (hU : Upkeep h L P Q) (op : Syntax.ArithOp) (hl : Keeps h L P Q l)
    (hr : Keeps h L P Q r) : Keeps h L P Q (.arith op l r) := by
  intro s hs hL
  rw [Machine.eval]
  exact .bind (hl hs (hL.step .arithLeft)) fun v t hv ht =>
    .bind (hr ht.1 (hL.step (.arithRight hv))) fun w u _ hu =>
    .lifted (fun x hx => ⟨hu.1, hU.arith hx⟩) hu.1

theorem keeps_compare (hU : Upkeep h L P Q) (op : Syntax.RelOp) (hl : Keeps h L P Q l)
    (hr : Keeps h L P Q r) : Keeps h L P Q (.compare op l r) := by
  intro s hs hL
  rw [Machine.eval]
  exact .bind (hl hs (hL.step .compareLeft)) fun v t hv ht =>
    .bind (hr ht.1 (hL.step (.compareRight hv))) fun w u _ hu =>
    lift hu.1 fun _ _ => hU.plainly (by simp) hu.1

/-- The right operand is evaluated only where the left one does not decide. -/
theorem keeps_logic (hU : Upkeep h L P Q) (op : Syntax.LogicOp) (hl : Keeps h L P Q l)
    (hr : Keeps h L P Q r) : Keeps h L P Q (.logic op l r) := by
  intro s hs hL
  have hright {t : State} (hv : Machine.eval l h s = (.ok (.bool (op = .and)), t)) (ht : P t) :
      Yields P Q (Machine.eval r >>= fun w => Run.lift w.asBool >>= fun b => pure (.bool b)) h t :=
    .bind (hr ht (hL.step (.logicRight hv))) fun w u _ hu =>
      lift hu.1 fun _ _ => hU.plainly (by simp) hu.1
  cases op with
  | and =>
      rw [Machine.eval]
      refine .bind (hl hs (hL.step .logicLeft)) fun v t hv ht => lift ht.1 fun b hb => ?_
      obtain rfl := asBool_ok hb
      cases b
      · exact hU.plainly (by simp) ht.1
      · exact hright hv ht.1
  | or =>
      rw [Machine.eval]
      refine .bind (hl hs (hL.step .logicLeft)) fun v t hv ht => lift ht.1 fun b hb => ?_
      obtain rfl := asBool_ok hb
      cases b
      · exact hright hv ht.1
      · exact hU.plainly (by simp) ht.1

theorem keeps_ternary (hc : Keeps h L P Q c) (hyes : Keeps h L P Q yes) (hno : Keeps h L P Q no) :
    Keeps h L P Q (.ternary c yes no) := by
  intro s hs hL
  rw [Machine.eval]
  refine .bind (hc hs (hL.step .cond)) fun v t hv ht => lift ht.1 fun b hb => ?_
  obtain rfl := asBool_ok hb
  cases b
  · exact hno ht.1 (hL.step (.no hv))
  · exact hyes ht.1 (hL.step (.yes hv))

end Kinds

mutual

/-- An expression keeps the property of states up, and its value has the property of values. -/
theorem eval (hU : Upkeep h L P Q) : ∀ {e : Expr} {s : State}, P s → Throughout h L (.expr e) s →
    Yields P Q (Machine.eval e) h s
  | .int _, s, hs, _ => by
      rw [Machine.eval]
      exact hU.plainly (by simp) hs
  | .str text, s, hs, hL => hU.keeps_str text hs hL
  | .bool _, s, hs, _ => by
      rw [Machine.eval]
      exact hU.plainly (by simp) hs
  | .null, s, hs, _ => by
      rw [Machine.eval]
      exact hU.plainly (by simp) hs
  | .var name, s, hs, hL => hU.keeps_var name hs hL
  | .staticField f, s, hs, hL => hU.keeps_staticField f hs hL
  | .field _ name, s, hs, hL => keeps_field name (eval hU) hs hL
  | .call _ method _, s, hs, hL => hU.keeps_call method (eval hU) (evalAll hU) hs hL
  | .staticCall m _, s, hs, hL => hU.keeps_staticCall m (evalAll hU) hs hL
  | .construct cls _, s, hs, hL => hU.keeps_construct cls (evalAll hU) hs hL
  | .unary op _, s, hs, hL => hU.keeps_unary op (eval hU) hs hL
  | .arith op _ _, s, hs, hL => hU.keeps_arith op (eval hU) (eval hU) hs hL
  | .compare op _ _, s, hs, hL => hU.keeps_compare op (eval hU) (eval hU) hs hL
  | .logic op _ _, s, hs, hL => hU.keeps_logic op (eval hU) (eval hU) hs hL
  | .ternary _ _ _, s, hs, hL => keeps_ternary (eval hU) (eval hU) (eval hU) hs hL
  | .assign name none _, s, hs, hL => hU.keeps_assign name (eval hU) hs hL
  | .assign name (some op) _, s, hs, hL => hU.keeps_compound name op (eval hU) hs hL
  | .step name op, s, hs, hL => hU.keeps_step name op hs hL

theorem evalAll (hU : Upkeep h L P Q) : ∀ {es : List Expr} {s : State}, P s →
    Throughout h L (.args es) s → Stays P (Machine.evalAll es) h s
  | [], s, hs, _ => by
      rw [Machine.evalAll]
      exact .result hs
  | e :: es, s, hs, hL => by
      rw [Machine.evalAll]
      exact .bind (eval hU hs (hL.step .headArg)) fun v t hv ht =>
        .bind (evalAll hU ht.1 (hL.step (.tailArgs hv))) fun _ u _ hu => .result hu

end

theorem evalBool (hU : Upkeep h L P Q) {e : Expr} (hs : P s) (hL : Throughout h L (.expr e) s) :
    Stays P (Machine.evalBool e) h s :=
  .bind (hU.eval hs hL) fun _ _ _ ht => .lifted (fun _ _ => ht.1) ht.1

theorem evalCondition (hU : Upkeep h L P Q) {c : Option Expr} (hs : P s)
    (hL : ∀ e ∈ c, Throughout h L (.expr e) s) : Stays P (Machine.evalCondition c) h s := by
  cases c with
  | none => exact .result hs
  | some e => exact hU.evalBool hs (hL e rfl)

theorem evalUpdate (hU : Upkeep h L P Q) {e : Option Expr} (hs : P s)
    (hL : ∀ e' ∈ e, Throughout h L (.expr e') s) : Stays P (Machine.evalUpdate e) h s := by
  cases e with
  | none => exact .result hs
  | some e => exact .bind (hU.eval hs (hL e rfl)) fun _ _ _ ht => .result ht.1

theorem checkType (hU : Upkeep h L P Q) (hs : P s) (type : DeclaredType) :
    Stays P (Machine.checkType type) h s := by
  cases type with
  | cls c => exact hU.check hs _
  | inferred => exact .result hs
  | primitive p => exact .result hs

/-- A declared variable begins with a value that its type accepts. -/
theorem initialValue (hU : Upkeep h L P Q) {d : Declaration} (hs : P s)
    (hL : ∀ {e t}, d.init = some e → Machine.checkType d.type h s = (.ok (), t) →
      Throughout h L (.expr e) t) :
    Leads (Machine.initialValue d) h s (fun w t => P t ∧ ∃ v, Q v ∧ fitted d.type v = .ok w) P := by
  refine .bind (hU.checkType hs _) fun _ t hcheck ht =>
    .bind (Q := fun v t => P t ∧ Q v) ?_ fun v u _ hu =>
      .lifted (fun w hw => ⟨hu.1, v, hu.2, hw⟩) hu.1
  cases hinit : d.init with
  | none => exact .result ⟨ht, hU.default d.type⟩
  | some e => exact hU.eval ht (hL hinit hcheck)

/-! ### Statements -/

theorem fitted_eq {type : DeclaredType} {v w : Value} (hw : fitted type v = .ok w) :
    w = v ∧ v ≠ .void ∧ type.accepts v = true := by
  unfold fitted at hw
  split at hw
  · cases hw
  · split at hw <;> cases hw
    exact ⟨rfl, ‹_›, ‹_›⟩

theorem execSimple (hU : Upkeep h L P Q) {x : Simple} (hs : P s)
    (hL : Throughout h L (.simple x) s) : Stays P (Machine.execSimple x) h s := by
  refine .bind (hU.poll hs) fun _ t hpoll ht => ?_
  cases x with
  | declare d =>
      refine .bind (hU.initialValue ht fun hinit hcheck => hL.step (.init hpoll hcheck hinit))
        fun w u _ hu => ?_
      obtain ⟨hu, v, hv, hw⟩ := hu
      obtain ⟨rfl, -, -⟩ := fitted_eq hw
      refine ⟨fun _ x hx => ?_, fun _ x hx => by cases hx⟩
      cases hx
      exact hU.declareLocal hu hv
  | expr e =>
      exact .bind (hU.eval ht (hL.step (.simpleExpr hpoll))) fun _ u _ hu => .result hu.1

theorem execInit (hU : Upkeep h L P Q) {x : Option Simple} (hs : P s)
    (hL : ∀ y ∈ x, Throughout h L (.simple y) s) : Stays P (Machine.execInit x) h s := by
  cases x with
  | none => exact .result hs
  | some y => exact hU.execSimple hs (hL y rfl)

theorem inBlock {α : Type} {x : Run α} (hU : Upkeep h L P Q) (hx : Stays P x h s.enter) :
    Stays P (Run.inBlock x) h s :=
  .inBlock hx (fun _ _ ht => hU.leave ht) fun _ ht => hU.leave ht

theorem round (hU : Upkeep h L P Q) {c update : Option Expr} {body : Stmt} (hs : P s)
    (hbody : ∀ {s}, P s → Throughout h L (.stmt body) s → Stays P (Machine.exec body) h s)
    (hL : Throughout h L (.loop c body update) s) :
    Stays P (loopRound (Machine.evalCondition c) (Machine.exec body)
      (Machine.evalUpdate update)) h s := by
  unfold loopRound
  refine .bind (hU.evalCondition hs ?_) fun again t hcond ht => ?_
  · rintro e rfl
    exact hL.step .loopCond
  · split
    · rename_i htrue
      subst htrue
      refine .bind (hU.inBlock (hbody (hU.enter ht) (hL.step (.loopBody hcond))))
        fun k u hbody hu => ?_
      have hupdate (hk : k ≠ .broke) : Stays P (do
          Machine.evalUpdate update
          Run.poll
          return true) h u := by
        refine .bind (hU.evalUpdate hu ?_) fun _ v _ hv =>
          .bind (hU.poll hv) fun _ w _ hw => .result hw
        rintro e rfl
        exact hL.step (.loopUpdate hcond hbody hk)
      cases k
      case broke => exact .result hu
      all_goals exact hupdate (by simp)
    · exact .result ht

/-- A loop comes by itself again after every round. -/
theorem loop (hU : Upkeep h L P Q) {c update : Option Expr} {body : Stmt} (hs : P s)
    (hbody : ∀ {s}, P s → Throughout h L (.stmt body) s → Stays P (Machine.exec body) h s)
    (hL : Throughout h L (.loop c body update) s) :
    Stays P (Run.repeated (loopRound (Machine.evalCondition c) (Machine.exec body)
      (Machine.evalUpdate update))) h s := by
  refine .repeated (P := fun s => P s ∧ Throughout h L (.loop c body update) s)
    (fun s hs => .remember ((hU.round hs.1 hbody hs.2).mono
      (fun again t ht hround => ⟨ht, fun htrue => ⟨ht, ?_⟩⟩) fun _ ht => ht))
    (fun s hs => hs.1) ⟨hs, hL⟩
  subst htrue
  exact hs.2.step (.loopAgain hround)

mutual

/-- A statement keeps the property of states up. -/
theorem exec (hU : Upkeep h L P Q) : ∀ {x : Stmt} {s : State}, P s →
    Throughout h L (.stmt x) s → Stays P (Machine.exec x) h s
  | .simple x, s, hs, hL => by
      rw [Machine.exec]
      exact .bind (hU.execSimple hs (hL.step .simple)) fun _ t _ ht => .result ht
  | .block body, s, hs, hL => by
      rw [Machine.exec]
      exact .bind (hU.poll hs) fun _ t hpoll ht =>
        hU.inBlock (execAll hU (hU.enter ht) (hL.step (.block hpoll)))
  | .ifThen c yes, s, hs, hL => by
      rw [Machine.exec]
      refine .bind (hU.poll hs) fun _ t hpoll ht =>
        .bind (hU.evalBool ht (hL.step (.ifThenCond hpoll))) fun b u hb hu => ?_
      cases b
      · exact .result hu
      · exact hU.inBlock (exec hU (hU.enter hu) (hL.step (.ifThenYes hpoll hb)))
  | .ifElse c yes no, s, hs, hL => by
      rw [Machine.exec]
      refine .bind (hU.poll hs) fun _ t hpoll ht =>
        .bind (hU.evalBool ht (hL.step (.ifElseCond hpoll))) fun b u hb hu => ?_
      cases b
      · exact hU.inBlock (exec hU (hU.enter hu) (hL.step (.ifElseNo hpoll hb)))
      · exact hU.inBlock (exec hU (hU.enter hu) (hL.step (.ifElseYes hpoll hb)))
  | .while c body, s, hs, hL => by
      rw [Machine.exec]
      exact .bind (hU.poll hs) fun _ t hpoll ht =>
        .bind (hU.loop ht (exec hU) (hL.step (.while hpoll))) fun _ u _ hu => .result hu
  | .for init c update body, s, hs, hL => by
      rw [Machine.exec]
      refine .bind (hU.poll hs) fun _ t hpoll ht =>
        .bind (hU.inBlock (.bind (hU.execInit (hU.enter ht) ?_) fun _ u hinit hu =>
          hU.loop hu (exec hU) (hL.step (.forLoop hpoll hinit)))) fun _ u _ hu => .result hu
      rintro x rfl
      exact hL.step (.forInit hpoll)
  | .break, s, hs, _ => by
      rw [Machine.exec]
      exact .bind (hU.poll hs) fun _ t _ ht => .result ht
  | .continue, s, hs, _ => by
      rw [Machine.exec]
      exact .bind (hU.poll hs) fun _ t _ ht => .result ht
  | .empty, s, hs, _ => by
      rw [Machine.exec]
      exact .bind (hU.poll hs) fun _ t _ ht => .result ht

theorem execAll (hU : Upkeep h L P Q) : ∀ {xs : List Stmt} {s : State}, P s →
    Throughout h L (.stmts xs) s → Stays P (Machine.execAll xs) h s
  | [], s, hs, _ => by
      rw [Machine.execAll]
      exact .result hs
  | x :: xs, s, hs, hL => by
      rw [Machine.execAll]
      refine .bind (exec hU hs (hL.step .headStmt)) fun k t hk ht => ?_
      cases k
      case next => exact execAll hU ht (hL.step (.tailStmts hk))
      all_goals exact .result ht

end

/-! ### Snippets -/

/-- A snippet keeps the property of states up. -/
theorem runTop (hU : Upkeep h L P Q) (snippet : Snippet) {p : TopLevel} (hs : P s)
    (hL : Throughout h L (.top p) s) : Stays P (Machine.runTop snippet p) h s := by
  have hmodify {f : State → State} {t : State} (hf : P (f t)) : Stays P (Run.modify f) h t := by
    refine ⟨fun _ u hu => ?_, fun _ u hu => by cases hu⟩
    cases hu
    exact hf
  cases p with
  | importClass c =>
      exact .bind (hU.poll hs) fun _ t _ ht => .bind (hU.poll ht) fun _ u _ hu =>
        .bind (hU.check hu _) fun _ v _ hv => .bind (hU.check hv _) fun _ w _ hw =>
        .bind (hmodify (hU.same (vars_importClass _ c) rfl hw)) fun _ x _ hx => .result hx
  | importPackage p =>
      exact .bind (hU.poll hs) fun _ t _ ht => .bind (hU.poll ht) fun _ u _ hu =>
        .bind (hU.check hu _) fun _ v _ hv =>
        .bind (hmodify (hU.same (vars_importPackage _ p) rfl hv)) fun _ x _ hx => .result hx
  | declare d =>
      refine .bind (hU.poll hs) fun _ t hpoll ht =>
        .bind (hU.initialValue ht fun hinit hcheck => hL.step (.topInit hpoll hcheck hinit))
        fun w u _ hu => .bind (hU.observes .gets hu.1) fun _ x _ hx => ?_
      obtain ⟨-, v, hv, hw⟩ := hu
      exact .bind (hmodify (hU.declare hx.1 hv hw)) fun _ y _ hy => .result hy
  | expr e =>
      exact .bind (hU.poll hs) fun _ t hpoll ht =>
        .bind (hU.eval ht (hL.step (.topExpr hpoll))) fun _ u _ hu => .result hu.1
  | stmt x =>
      exact .bind (hU.exec hs (hL.step .topStmt)) fun _ t _ ht => .result ht

/-- The next part is started in a state that has the property, too. -/
theorem comes (hU : Upkeep h L P Q) {task task' : Task} {t : State} (hs : P s)
    (hL : Throughout h L task s) (hcomes : Comes h task s task' t) : P t := by
  have hpoll {s t : State} (hs : P s) (ht : Run.poll h s = (.ok (), t)) : P t :=
    (hU.poll hs).ok () t ht
  have hcheck {s t : State} {a : Access} (hs : P s) (ht : Run.check a h s = (.ok (), t)) : P t :=
    (hU.check hs a).ok () t ht
  have hinit {d : Declaration} {s t : State} (hs : P s)
      (ht : Machine.checkType d.type h s = (.ok (), t)) : P t :=
    (hU.checkType hs d.type).ok () t ht
  have heval {e : Expr} {s t : State} {v : Value} (hs : P s) (hL : Throughout h L (.expr e) s)
      (ht : Machine.eval e h s = (.ok v, t)) : P t :=
    ((hU.eval hs hL).ok v t ht).1
  have hcond {c : Option Expr} {body : Stmt} {update : Option Expr} {s t : State} {b : Bool}
      (hs : P s) (hL : Throughout h L (.loop c body update) s)
      (ht : Machine.evalCondition c h s = (.ok b, t)) : P t := by
    refine (hU.evalCondition hs ?_).ok b t ht
    rintro e rfl
    exact hL.step .loopCond
  cases hcomes with
  | fieldTarget => exact hs
  | callTarget hp => exact hpoll hs hp
  | callArgs hp hv => exact heval (hpoll hs hp) (hL.step (.callTarget hp)) hv
  | staticArgs hp hc hm => exact hcheck (hcheck (hpoll hs hp) hc) hm
  | constructArgs hp hc hm => exact hcheck (hcheck (hpoll hs hp) hc) hm
  | operand => exact hs
  | arithLeft => exact hs
  | arithRight hv => exact heval hs (hL.step .arithLeft) hv
  | compareLeft => exact hs
  | compareRight hv => exact heval hs (hL.step .compareLeft) hv
  | logicLeft => exact hs
  | logicRight hv => exact heval hs (hL.step .logicLeft) hv
  | cond => exact hs
  | yes hv => exact heval hs (hL.step .cond) hv
  | no hv => exact heval hs (hL.step .cond) hv
  | assigned => exact hs
  | headArg => exact hs
  | tailArgs hv => exact heval hs (hL.step .headArg) hv
  | init hp hc _ => exact hinit (hpoll hs hp) hc
  | simpleExpr hp => exact hpoll hs hp
  | simple => exact hs
  | block hp => exact hU.enter (hpoll hs hp)
  | ifThenCond hp => exact hpoll hs hp
  | ifThenYes hp hv =>
      exact hU.enter ((hU.evalBool (hpoll hs hp) (hL.step (.ifThenCond hp))).ok _ _ hv)
  | ifElseCond hp => exact hpoll hs hp
  | ifElseYes hp hv =>
      exact hU.enter ((hU.evalBool (hpoll hs hp) (hL.step (.ifElseCond hp))).ok _ _ hv)
  | ifElseNo hp hv =>
      exact hU.enter ((hU.evalBool (hpoll hs hp) (hL.step (.ifElseCond hp))).ok _ _ hv)
  | «while» hp => exact hpoll hs hp
  | forInit hp => exact hU.enter (hpoll hs hp)
  | forLoop hp hi =>
      refine (hU.execInit (hU.enter (hpoll hs hp)) ?_).ok _ _ hi
      rintro x rfl
      exact hL.step (.forInit hp)
  | loopCond => exact hs
  | loopBody hv => exact hU.enter (hcond hs hL hv)
  | loopUpdate hv hbody _ =>
      have ht := hU.enter (hcond hs hL hv)
      exact (hU.inBlock (hU.exec ht (hL.step (.loopBody hv)))).ok _ _ hbody
  | loopAgain hround => exact (hU.round hs (hU.exec) hL).ok _ _ hround
  | headStmt => exact hs
  | tailStmts hx => exact (hU.exec hs (hL.step .headStmt)).ok _ _ hx
  | topInit hp hc _ => exact hinit (hpoll hs hp) hc
  | topExpr hp => exact hpoll hs hp
  | topStmt => exact hs

/-- The property of states holds wherever a run comes by. -/
theorem visits (hU : Upkeep h L P Q) {task task' : Task} {t : State} (hs : P s)
    (hL : Throughout h L task s) (hvisits : Visits h task s task' t) : P t := by
  induction hvisits with
  | start => exact hs
  | next hvisits hcomes ih => exact hU.comes ih (fun _ _ h => hL _ _ (hvisits.trans h)) hcomes

end Upkeep
end Machine
end GuardedRepl
