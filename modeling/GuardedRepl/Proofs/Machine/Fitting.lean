import GuardedRepl.Proofs.Machine.Confinement
import GuardedRepl.Proofs.Machine.Frames
import GuardedRepl.Proofs.Machine.Programs

/-!
# Programs keep the state fitting

A scoped program that is started in a state that fits its place leaves a state that fits.  The
places that the look-up of names goes through and the states that the run goes through stay in step,
over every statement and every way out of one.

**Results.**
* `meets_eval`, `meets_exec`: expressions and statements keep the state fitting and miss no
  variable.
* `meets_runTop`: so does a snippet, and the session it leaves holds permitted values only.
-/

namespace GuardedRepl
namespace Machine

open Program Run

variable {B : Barrier} {h g : Host} {env : Env} {n : Nat}

/-! ### Variables -/

theorem mem_of_lookup {name : String} {v : Value} {frame : Frame}
    (hv : frame.lookup name = some v) : (name, v) ∈ frame := by
  induction frame with
  | nil => cases hv
  | cons p frame ih =>
      obtain ⟨other, w⟩ := p
      rw [List.lookup_cons] at hv
      by_cases hname : name = other
      · subst hname
        rw [beq_self_eq_true] at hv
        cases hv
        exact List.mem_cons_self
      · rw [show (name == other) = false by simpa using hname] at hv
        exact List.mem_cons_of_mem _ (ih hv)

theorem mem_of_lookupIn {name : String} {v : Value} {frames : List Frame}
    (hv : State.lookupIn name frames = some v) : ∃ frame ∈ frames, (name, v) ∈ frame := by
  induction frames with
  | nil => cases hv
  | cons frame frames ih =>
      unfold State.lookupIn at hv
      split at hv
      · rename_i w hw
        cases hv
        exact ⟨frame, List.mem_cons_self, mem_of_lookup hw⟩
      · obtain ⟨frame', hmem, hv'⟩ := ih hv
        exact ⟨frame', List.mem_cons_of_mem _ hmem, hv'⟩

/-- Every variable of a fitting state has a permitted value. -/
theorem State.Fits.lookup_permitted {s : State} (hs : s.Fits B env n) {name : String} {v : Value}
    (hv : s.lookup name = some v) : v.Permitted B := by
  unfold State.lookup at hv
  split at hv
  · rename_i w hw
    cases hv
    obtain ⟨frame, hframe, hmem⟩ := mem_of_lookupIn hw
    exact hs.locals hframe hmem
  · obtain ⟨x, hx, rfl⟩ := Option.map_eq_some_iff.mp hv
    exact hs.vars (List.mem_of_find?_eq_some hx)

theorem assignIn_mem {name : String} {v : Value} : ∀ {frames frames' : List Frame},
    State.assignIn name v frames = some frames' →
      frames'.length = frames.length ∧
        ∀ frame' ∈ frames', ∀ p ∈ frame', p.2 = v ∨ ∃ frame ∈ frames, p ∈ frame
  | [], _, hv => by
      cases hv
  | frame :: frames, _, hv => by
      unfold State.assignIn at hv
      split at hv
      · cases hv
        refine ⟨rfl, fun frame' hframe p hp => ?_⟩
        rcases List.mem_cons.mp hframe with rfl | hframe
        · obtain ⟨⟨other, w⟩, hq, rfl⟩ := List.mem_map.mp hp
          simp only
          split
          · exact Or.inl rfl
          · exact Or.inr ⟨frame, List.mem_cons_self, hq⟩
        · exact Or.inr ⟨frame', List.mem_cons_of_mem _ hframe, hp⟩
      · obtain ⟨rest, hrest, rfl⟩ := Option.map_eq_some_iff.mp hv
        obtain ⟨hlen, hmem⟩ := assignIn_mem hrest
        refine ⟨by rw [List.length_cons, List.length_cons, hlen], fun frame' hframe p hp => ?_⟩
        rcases List.mem_cons.mp hframe with rfl | hframe
        · exact Or.inr ⟨frame', List.mem_cons_self, hp⟩
        · rcases hmem frame' hframe p hp with heq | ⟨frame'', hmem', hp'⟩
          · exact Or.inl heq
          · exact Or.inr ⟨frame'', List.mem_cons_of_mem _ hmem', hp'⟩

theorem State.Fits.assigned {s t : State} (hs : s.Fits B env n) {name : String} {v : Value}
    (hv : v.Permitted B) (ht : s.assign name v = some t) : t.Fits B env n := by
  have hnames := assign_names ht
  have hbound : ∀ {x}, env.isVariable x = true → (t.lookup x).isSome := by
    intro x hx
    have hold := hs.bound hx
    rw [isSome_lookup_iff] at hold ⊢
    rwa [hnames]
  obtain ⟨-, heffects⟩ := State.assign_eq ht
  have hsilent : B.Mutes → ∀ {e}, e ∈ t.effects → ¬ e.effect.Writes := by
    rw [heffects]
    exact hs.silent
  rcases State.assign_cases ht with ⟨frames, hframes, rfl⟩ | ⟨-, rfl⟩
  · obtain ⟨hlen, hmem⟩ := assignIn_mem hframes
    refine ⟨by rw [← hs.depth, hlen], hbound, fun hframe x w hw => ?_, hs.vars, hsilent⟩
    rcases hmem _ hframe _ hw with heq | ⟨frame, hframe', hw'⟩
    · obtain rfl : w = v := heq
      exact hv
    · exact hs.locals hframe' hw'
  · refine ⟨hs.depth, hbound, hs.locals, fun {x} hx => ?_, hsilent⟩
    obtain ⟨w, hw, rfl⟩ := List.mem_map.mp hx
    split
    · exact hv
    · exact hs.vars hw

theorem isVariable_declaring {name x : String} :
    (env.declaring name).isVariable x = true ↔ x = name ∨ env.isVariable x = true := by
  simp [Env.isVariable, Env.declaring, or_assoc]

/-- A declaration in a block binds its variable. -/
theorem State.Fits.declared {s : State} (hs : s.Fits B env (n + 1)) (name : String) {v : Value}
    (hv : v.Permitted B) : (s.declareLocal name v).Fits B (env.declaring name) (n + 1) := by
  obtain ⟨frame, frames, hframes⟩ := List.exists_cons_of_length_eq_add_one hs.depth
  have hnew : (s.declareLocal name v).frames =
      ((name, v) :: frame.filter fun p => p.1 ≠ name) :: frames := by
    simp only [State.declareLocal, hframes]
  refine ⟨?_, fun {x} hx => ?_, fun {f} hf x w hw => ?_, hs.vars, hs.silent⟩
  · rw [hnew, List.length_cons, ← hs.depth, hframes, List.length_cons]
  · rw [isSome_lookup_iff]
    simp only [State.names, hnew, List.map_cons]
    by_cases hname : x = name
    · exact Or.inl ⟨_, List.mem_cons_self, hname ▸ List.mem_cons_self⟩
    · have hold := hs.bound ((isVariable_declaring.mp hx).resolve_left hname)
      rw [isSome_lookup_iff] at hold
      simp only [State.names, hframes, List.map_cons] at hold
      rcases hold with ⟨names, hmem, hin⟩ | hsession
      · rcases List.mem_cons.mp hmem with rfl | hmem
        · refine Or.inl ⟨_, List.mem_cons_self, List.mem_cons_of_mem _ ?_⟩
          obtain ⟨p, hp, rfl⟩ := List.mem_map.mp hin
          exact List.mem_map.mpr ⟨p, List.mem_filter.mpr ⟨hp, by simpa using hname⟩, rfl⟩
        · exact Or.inl ⟨names, List.mem_cons_of_mem _ hmem, hin⟩
      · exact Or.inr hsession
  · rw [hnew] at hf
    rcases List.mem_cons.mp hf with rfl | hf
    · rcases List.mem_cons.mp hw with heq | hw
      · cases heq
        exact hv
      · exact hs.locals (hframes ▸ List.mem_cons_self) (List.mem_filter.mp hw).1
    · exact hs.locals (hframes ▸ List.mem_cons_of_mem _ hf) hw

theorem State.Fits.entered {s : State} (hs : s.Fits B env n) : s.enter.Fits B env (n + 1) := by
  refine ⟨by rw [← hs.depth]; rfl, fun hx => hs.bound hx, fun hframe _ _ hw => ?_, hs.vars,
    hs.silent⟩
  rcases List.mem_cons.mp hframe with rfl | hframe
  · cases hw
  · exact hs.locals hframe hw

/-- Behind a block everything is bound that was bound before it. -/
theorem State.Fits.left {s t : State} {env' : Env} (hs : s.Fits B env n) (houter : Outer s.enter t)
    (ht : t.Fits B env' (n + 1)) : t.leave.Fits B env n := by
  have hnames : t.leave.names = s.names := by
    obtain ⟨hblocks, hsession⟩ := houter
    refine Prod.ext ?_ hsession
    show t.frames.tail.map (·.map Prod.fst) = s.frames.map (·.map Prod.fst)
    rw [List.map_tail]
    exact hblocks
  refine ⟨?_, fun {x} hx => ?_, fun hframe => ht.locals (List.mem_of_mem_tail hframe), ht.vars,
    ht.silent⟩
  · show t.frames.tail.length = n
    rw [List.length_tail, ht.depth, Nat.add_sub_cancel]
  · have hold := hs.bound hx
    rw [isSome_lookup_iff] at hold ⊢
    rwa [hnames]

theorem meets_lookup {name : String} (hname : env.isVariable name = true) :
    Yields B h g env n (Run.lookup name) := by
  intro s hs
  obtain ⟨v, hv⟩ := Option.isSome_iff_exists.mp (hs.bound hname)
  rw [Run.lookup_eq_ok hv, Run.lookup_eq_ok hv]
  refine ⟨rfl, fun w t ht => ?_, fun e t ht => by cases ht⟩
  cases ht
  exact ⟨hs, hs.lookup_permitted hv⟩

theorem meets_assign {name : String} (hname : env.isVariable name = true) {v : Value}
    (hv : v.Permitted B) : Stays B h g env n (Run.assign name v) := by
  intro s hs
  have hfound : (s.assign name v).isSome := by
    rw [isSome_assign]
    exact hs.bound hname
  obtain ⟨t, ht⟩ := Option.isSome_iff_exists.mp hfound
  rw [Run.assign_eq_ok ht, Run.assign_eq_ok ht]
  refine ⟨rfl, fun _ u hu => ?_, fun e u hu => by cases hu⟩
  cases hu
  exact hs.assigned hv ht

/-! ### Expressions -/

/-- A value with a condition, out of a run that yields one. -/
theorem yields_asBool {β : Type} {x : Run Value} {f : Bool → Run β} {Q : β → State → Prop}
    (hx : Yields B h g env n x)
    (hf : ∀ b, Meets h g (State.Fits B env n) (f b) Q (State.Fits B env n)) :
    Meets h g (State.Fits B env n) (x >>= fun v => Run.lift v.asBool >>= f) Q
      (State.Fits B env n) := by
  refine .bind hx fun v => .bind (Q := fun _ => State.Fits B env n) ?_ hf
  exact .lifted (fun _ _ _ hs => hs.1) fun _ hs => hs.1

theorem arith_source {op : Syntax.ArithOp} {v w u : Value} (hu : v.arith op w = .ok u) :
    u.source? = none := by
  have hconcat {a b : String} (hu : Value.concat a b = .ok u) : u.source? = none := by
    unfold Value.concat at hu
    split at hu
    · cases hu
    · cases hu
      rfl
  have hint {x : Except Exception Int64} (hu : x.map Value.int = .ok u) : u.source? = none := by
    cases x with
    | error e => cases hu
    | ok c =>
        cases hu
        rfl
  unfold Value.arith at hu
  split at hu
  · exact hconcat hu
  · cases hu
  · exact hconcat hu
  · exact hint hu
  · cases hu

theorem unary_source {op : Syntax.UnaryOp} {v u : Value} (hu : v.unary op = .ok u) :
    u.source? = none := by
  unfold Value.unary at hu
  split at hu <;> cases hu <;> rfl

section Kinds

variable {e l r c yes no : Expr} {es : List Expr}

/-! #### Accesses and calls -/

theorem yields_staticField (hhosts : h.Twins B g) (f : Library.StaticField) :
    Yields B h g env n (eval (.staticField f)) := by
  rw [eval]
  refine .bind (.check hhosts (State.Fits.stable B env n) _) fun _ => .assume fun hf => ?_
  refine yields_result fun c hc => ?_
  cases f <;> cases hc <;> exact hf

theorem yields_field (he : Yields B h g env n (eval e)) (name : String) :
    Yields B h g env n (eval (.field e name)) := by
  rw [eval]
  refine .bind he fun v => .assume fun _ => ?_
  cases v <;> exact yields_thrown

theorem yields_call (hhosts : h.Twins B g) (he : Yields B h g env n (eval e))
    (hes : Stays B h g env n (evalAll es)) (method : String) :
    Yields B h g env n (eval (.call e method es)) := by
  rw [eval]
  exact .bind (.poll hhosts (State.Fits.stable B env n)) fun _ =>
    .bind he fun _ => .assume fun hv => .bind hes fun _ => meets_callMethod hhosts hv method _

/-- The class of a static method is checked before its arguments are evaluated, so the call may rely
on it. -/
theorem yields_staticCall (hhosts : h.Twins B g) (hes : Stays B h g env n (evalAll es))
    (m : Library.StaticMethod) : Yields B h g env n (eval (.staticCall m es)) := by
  have hstable := State.Fits.stable B env n
  rw [eval]
  exact .bind (.poll hhosts hstable) fun _ =>
    .bind (.check hhosts hstable _) fun _ => .assume fun hm =>
    .bind (.check hhosts hstable _) fun _ => .assume fun _ =>
    .bind hes fun _ => meets_callStatic hhosts m _ hm

theorem yields_construct (hhosts : h.Twins B g) (hes : Stays B h g env n (evalAll es))
    (cls : Library.HostClass) : Yields B h g env n (eval (.construct cls es)) := by
  have hstable := State.Fits.stable B env n
  rw [eval]
  exact .bind (.poll hhosts hstable) fun _ =>
    .bind (.check hhosts hstable _) fun _ => .assume fun hcls =>
    .bind (.check hhosts hstable _) fun _ => .assume fun _ =>
    .bind hes fun _ => meets_construct cls _ hcls

/-! #### Operators -/

theorem yields_unary (he : Yields B h g env n (eval e)) (op : Syntax.UnaryOp) :
    Yields B h g env n (eval (.unary op e)) := by
  rw [eval]
  exact .bind he fun _ => .assume fun _ =>
    yields_lifted fun _ hu => Value.permitted_of_source (unary_source hu)

theorem yields_arith (hl : Yields B h g env n (eval l)) (hr : Yields B h g env n (eval r))
    (op : Syntax.ArithOp) : Yields B h g env n (eval (.arith op l r)) := by
  rw [eval]
  exact .bind hl fun _ => .assume fun _ => .bind hr fun _ => .assume fun _ =>
    yields_lifted fun _ hu => Value.permitted_of_source (arith_source hu)

theorem yields_compare (hl : Yields B h g env n (eval l)) (hr : Yields B h g env n (eval r))
    (op : Syntax.RelOp) : Yields B h g env n (eval (.compare op l r)) := by
  rw [eval]
  exact .bind hl fun _ => .assume fun _ => .bind hr fun _ => .assume fun _ =>
    yields_lift fun _ _ => yields_plain rfl

theorem yields_logic (hl : Yields B h g env n (eval l)) (hr : Yields B h g env n (eval r))
    (op : Syntax.LogicOp) : Yields B h g env n (eval (.logic op l r)) := by
  have hright := yields_asBool hr fun b => yields_plain (v := .bool b) rfl
  cases op with
  | and =>
      rw [eval]
      refine yields_asBool hl fun b => ?_
      split
      · exact hright
      · exact yields_plain rfl
  | or =>
      rw [eval]
      refine yields_asBool hl fun b => ?_
      split
      · exact yields_plain rfl
      · exact hright

theorem yields_ternary (hc : Yields B h g env n (eval c)) (hyes : Yields B h g env n (eval yes))
    (hno : Yields B h g env n (eval no)) : Yields B h g env n (eval (.ternary c yes no)) := by
  rw [eval]
  refine yields_asBool hc fun b => ?_
  split
  · exact hyes
  · exact hno

/-! #### Variables -/

theorem yields_assign {name : String} (hname : env.isVariable name = true)
    (he : Yields B h g env n (eval e)) (op : Option Syntax.ArithOp) :
    Yields B h g env n (eval (.assign name op e)) := by
  cases op with
  | none =>
      rw [eval]
      exact .bind he fun _ => .assume fun hv =>
        .bind (meets_assign hname hv) fun _ => yields_result hv
  | some op =>
      rw [eval]
      refine .bind he fun w => .assume fun _ =>
        .bind (meets_lookup hname) fun v => .assume fun _ => yields_lift fun u hu => ?_
      have hpermitted : u.Permitted B := Value.permitted_of_source (arith_source hu)
      exact .bind (meets_assign hname hpermitted) fun _ => yields_result hpermitted

theorem yields_step {name : String} (hname : env.isVariable name = true) (op : Syntax.StepOp) :
    Yields B h g env n (eval (.step name op)) := by
  rw [eval]
  refine .bind (meets_lookup hname) fun v => .assume fun _ => ?_
  cases v
  case int k =>
      exact .bind (meets_assign hname (Value.permitted_of_source rfl)) fun _ => yields_plain rfl
  all_goals exact yields_thrown

end Kinds

mutual

/-- An expression keeps the state fitting and yields a permitted value. -/
theorem meets_eval (hhosts : h.Twins B g) : ∀ {e : Expr}, e.Scoped env → Yields B h g env n (eval e)
  | .int _, _ => by
      rw [eval]
      exact yields_plain rfl
  | .str _, _ => by
      rw [eval]
      exact yields_plain rfl
  | .bool _, _ => by
      rw [eval]
      exact yields_plain rfl
  | .null, _ => by
      rw [eval]
      exact yields_plain rfl
  | .var _, .var hname => by
      rw [eval]
      exact meets_lookup hname
  | .staticField f, _ => yields_staticField hhosts f
  | .field _ name, .field he => yields_field (meets_eval hhosts he) name
  | .call _ method _, .call he hes =>
      yields_call hhosts (meets_eval hhosts he) (meets_evalAll hhosts hes) method
  | .staticCall m _, .staticCall _ _ hes => yields_staticCall hhosts (meets_evalAll hhosts hes) m
  | .construct cls _, .construct _ _ hes => yields_construct hhosts (meets_evalAll hhosts hes) cls
  | .unary op _, .unary he => yields_unary (meets_eval hhosts he) op
  | .arith op _ _, .arith hl hr => yields_arith (meets_eval hhosts hl) (meets_eval hhosts hr) op
  | .compare op _ _, .compare hl hr =>
      yields_compare (meets_eval hhosts hl) (meets_eval hhosts hr) op
  | .logic op _ _, .logic hl hr => yields_logic (meets_eval hhosts hl) (meets_eval hhosts hr) op
  | .ternary _ _ _, .ternary hc hyes hno =>
      yields_ternary (meets_eval hhosts hc) (meets_eval hhosts hyes) (meets_eval hhosts hno)
  | .assign _ op _, .assign hname he => yields_assign hname (meets_eval hhosts he) op
  | .step _ op, .step hname => yields_step hname op

theorem meets_evalAll (hhosts : h.Twins B g) : ∀ {es : List Expr}, (∀ e ∈ es, e.Scoped env) →
    Stays B h g env n (evalAll es)
  | [], _ => by
      rw [evalAll]
      exact .result fun _ hs => hs
  | e :: es, hes => by
      rw [evalAll]
      exact .bind (meets_eval hhosts (hes e List.mem_cons_self)) fun _ => .assume fun _ =>
        .bind (meets_evalAll hhosts fun e he => hes e (List.mem_cons_of_mem _ he)) fun _ =>
        .result fun _ hs => hs

end

theorem meets_evalBool (hhosts : h.Twins B g) {e : Expr} (he : e.Scoped env) :
    Stays B h g env n (evalBool e) :=
  .bind (meets_eval hhosts he) fun _ => .assume fun _ =>
    .lifted (fun _ _ _ hs => hs) fun _ hs => hs

theorem meets_evalCondition (hhosts : h.Twins B g) {c : Option Expr}
    (hc : ∀ e ∈ c, e.Scoped env) : Stays B h g env n (evalCondition c) := by
  cases c with
  | none => exact .result fun _ hs => hs
  | some e => exact meets_evalBool hhosts (hc e rfl)

theorem meets_evalUpdate (hhosts : h.Twins B g) {e : Option Expr}
    (he : ∀ e' ∈ e, e'.Scoped env) : Stays B h g env n (evalUpdate e) := by
  cases e with
  | none => exact .result fun _ hs => hs
  | some e => exact .bind (meets_eval hhosts (he e rfl)) fun _ => .result fun _ hs => hs.1

theorem default_source (type : DeclaredType) : type.default.source? = none := by
  unfold DeclaredType.default
  split <;> rfl

theorem meets_checkType (hhosts : h.Twins B g) (type : DeclaredType) :
    Stays B h g env n (checkType type) := by
  cases type with
  | cls c =>
      exact (Meets.check hhosts (State.Fits.stable B env n) _).mono (fun _ hs => hs)
        (fun _ _ hs => hs.1) fun _ hs => hs
  | inferred => exact .result fun _ hs => hs
  | primitive p => exact .result fun _ hs => hs

theorem meets_initialValue (hhosts : h.Twins B g) {d : Declaration} (hd : d.Scoped env) :
    Yields B h g env n (initialValue d) := by
  refine .bind (meets_checkType hhosts d.type) fun _ => .bind (Q := fun v s =>
    s.Fits B env n ∧ v.Permitted B) ?_ fun v => .assume fun hv => yields_lifted fun w hw => ?_
  · have hinit := hd.init
    cases hi : d.init with
    | none => exact yields_plain (default_source d.type)
    | some e => exact meets_eval hhosts (hinit e hi)
  · unfold fitted at hw
    split at hw
    · cases hw
    · split at hw
      · cases hw
        exact hv
      · cases hw

/-! ### Statements -/

theorem isVariable_after {s : Stmt} {name : String} (hname : env.isVariable name = true) :
    (s.after env).isVariable name = true := by
  cases s with
  | simple s =>
      cases s with
      | declare d => exact isVariable_declaring.mpr (Or.inr hname)
      | expr e => exact hname
  | _ => exact hname

theorem isVariable_afterInit (init : Option Simple) {name : String}
    (hname : env.isVariable name = true) :
    (Simple.afterInit env init).isVariable name = true := by
  cases init with
  | none => exact hname
  | some s => exact isVariable_after (s := .simple s) hname

theorem inLoop_after (env : Env) (s : Stmt) : (s.after env).inLoop = env.inLoop := by
  cases s with
  | simple s => cases s <;> rfl
  | _ => rfl

theorem meets_execSimple (hhosts : h.Twins B g) {s : Simple} (hs : s.Scoped env) :
    Meets h g (State.Fits B env n) (execSimple s)
      (fun _ t => t.Fits B env n ∧ (0 < n → t.Fits B (s.after env) n)) (State.Fits B env n) := by
  refine .bind (.poll hhosts (State.Fits.stable B env n)) fun _ => ?_
  cases hs with
  | @declare d hd =>
      refine .bind (meets_initialValue hhosts hd) fun v => .assume fun hv => .modify fun s hs => ?_
      cases n with
      | zero =>
          -- Outside of every block there is nowhere to put the variable.
          have hnil : s.frames = [] := List.eq_nil_of_length_eq_zero hs.depth
          have hsame : s.declareLocal d.name v = s := by
            simp only [State.declareLocal, hnil]
            rw [← hnil]
          rw [hsame]
          exact ⟨hs, fun hpos => absurd hpos (Nat.lt_irrefl 0)⟩
      | succ n =>
          have hnew := hs.declared d.name hv
          exact ⟨hnew.weaken fun hx => isVariable_declaring.mpr (Or.inr hx), fun _ => hnew⟩
  | expr he =>
      exact .bind (meets_eval hhosts he) fun _ => .assume fun _ =>
        .result fun _ hs => ⟨hs, fun _ => hs⟩

theorem meets_execInit (hhosts : h.Twins B g) {init : Option Simple}
    (hinit : ∀ s ∈ init, s.Scoped env) :
    Meets h g (State.Fits B env (n + 1)) (execInit init)
      (fun _ => State.Fits B (Simple.afterInit env init) (n + 1)) (State.Fits B env (n + 1)) := by
  cases init with
  | none => exact .result fun _ hs => hs
  | some s =>
      exact (meets_execSimple hhosts (hinit s rfl)).mono (fun _ hs => hs)
        (fun _ _ hs => hs.2 (Nat.succ_pos n)) fun _ hs => hs

/-- A statement keeps the state fitting, and it only breaks out of a loop that is around it. -/
abbrev Completes (B : Barrier) (h g : Host) (env : Env) (n : Nat) (x : Run Completion) : Prop :=
  Meets h g (State.Fits B env n) x
    (fun c t => t.Fits B env n ∧ (c ≠ .next → env.inLoop = true)) (State.Fits B env n)

theorem completes_next : Completes B h g env n (pure .next) :=
  .result fun _ hs => ⟨hs, fun hne => absurd rfl hne⟩

theorem completes_inBlock {x : Run Completion} (hx : Completes B h g env (n + 1) x)
    (hk : Assembled Outer x) : Completes B h g env n (Run.inBlock x) :=
  .inBlock hx (hk.keeps roomy_outer.toTolerant) (fun _ hs => hs.entered)
    (fun _ _ _ hs houter ht => ⟨hs.left houter ht.1, ht.2⟩)
    fun _ _ hs houter ht => hs.left houter ht

/-- A statement completes, and what it declares is bound at the place behind it. -/
abbrev Executes (B : Barrier) (h g : Host) (env behind : Env) (n : Nat) (x : Run Completion) :
    Prop :=
  Meets h g (State.Fits B env n) x
    (fun c t => (t.Fits B env n ∧ (c ≠ .next → env.inLoop = true)) ∧
      (c = .next → 0 < n → t.Fits B behind n)) (State.Fits B env n)

/-- A statement that declares nothing has only to complete. -/
theorem executes_of_completes {x : Run Completion} (hx : Completes B h g env n x) :
    Executes B h g env env n x :=
  hx.mono (fun _ hs => hs) (fun _ _ ht => ⟨ht, fun _ _ => ht.1⟩) fun _ ht => ht

/-- The body of a loop, which may break out. -/
theorem meets_body {x : Run Completion} (hx : Completes B h g env.looping (n + 1) x)
    (hk : Assembled Outer x) : Stays B h g env n (Run.inBlock x) :=
  (completes_inBlock hx hk).mono (fun _ hs => hs.weaken id) (fun _ _ ht => ht.1.weaken id)
    fun _ ht => ht.weaken id

theorem meets_loopRound (hhosts : h.Twins B g) {cond : Run Bool} {body : Run Completion}
    {update : Run Unit} (hcond : Stays B h g env n cond)
    (hbody : Stays B h g env n (Run.inBlock body)) (hupdate : Stays B h g env n update) :
    Stays B h g env n (loopRound cond body update) := by
  unfold loopRound
  refine .bind hcond fun b => ?_
  split
  · refine .bind hbody fun c => ?_
    cases c
    case broke => exact .result fun _ hs => hs
    all_goals
      refine .bind hupdate fun _ => .bind (.poll hhosts (State.Fits.stable B env n)) fun _ => ?_
      exact .result fun _ hs => hs
  · exact .result fun _ hs => hs

/-- A round of a loop with what its head may leave out. -/
theorem meets_round (hhosts : h.Twins B g) {c update : Option Expr} {body : Run Completion}
    (hc : ∀ e ∈ c, e.Scoped env) (hupdate : ∀ e ∈ update, e.Scoped env)
    (hbody : Completes B h g env.looping (n + 1) body) (hk : Assembled Outer body) :
    Stays B h g env n (loopRound (evalCondition c) body (evalUpdate update)) :=
  meets_loopRound hhosts (meets_evalCondition hhosts hc) (meets_body hbody hk)
    (meets_evalUpdate hhosts hupdate)

mutual

/-- A statement keeps the state fitting, and what it declares is bound behind it. -/
theorem meets_exec (hhosts : h.Twins B g) : ∀ {s : Stmt} {env : Env} {n : Nat}, s.Scoped env →
    Executes B h g env (s.after env) n (exec s)
  | .simple s, env, n, hs => by
      rw [exec]
      cases hs with
      | simple hs =>
          exact .bind (meets_execSimple hhosts hs) fun _ => .result fun _ ht =>
            ⟨⟨ht.1, fun hne => absurd rfl hne⟩, fun _ => ht.2⟩
  | .block body, env, n, hs => by
      rw [exec]
      cases hs with
      | block hbody =>
          exact executes_of_completes <| .bind (.poll hhosts (State.Fits.stable B env n)) fun _ =>
            completes_inBlock (meets_execAll hhosts hbody) (assembled_execAll roomy_outer body)
  | .ifThen c yes, env, n, hs => by
      rw [exec]
      cases hs with
      | ifThen hc hyes =>
          refine executes_of_completes <| .bind (.poll hhosts (State.Fits.stable B env n)) fun _ =>
            .bind (meets_evalBool hhosts hc) fun b => ?_
          split
          · exact completes_inBlock (completes_exec hhosts hyes) (assembled_exec roomy_outer yes)
          · exact completes_next
  | .ifElse c yes no, env, n, hs => by
      rw [exec]
      cases hs with
      | ifElse hc hyes hno =>
          refine executes_of_completes <| .bind (.poll hhosts (State.Fits.stable B env n)) fun _ =>
            .bind (meets_evalBool hhosts hc) fun b => ?_
          split
          · exact completes_inBlock (completes_exec hhosts hyes) (assembled_exec roomy_outer yes)
          · exact completes_inBlock (completes_exec hhosts hno) (assembled_exec roomy_outer no)
  | .while c body, env, n, hs => by
      rw [exec]
      cases hs with
      | «while» hc hbody =>
          have hcond : ∀ e ∈ some c, e.Scoped env := by
            intro e he
            cases he
            exact hc
          have hupdate : ∀ e ∈ (none : Option Expr), e.Scoped env := fun _ he => nomatch he
          have hround := meets_round (n := n) hhosts hcond hupdate (completes_exec hhosts hbody)
            (assembled_exec roomy_outer body)
          exact executes_of_completes <| .bind (.poll hhosts (State.Fits.stable B env n)) fun _ =>
            .bind (.repeated hhosts hround) fun _ => completes_next
  | .for init c update body, env, n, hs => by
      rw [exec]
      cases hs with
      | «for» hinit hc hupdate hbody =>
          have hround := meets_round (n := n + 1) hhosts hc hupdate (completes_exec hhosts hbody)
            (assembled_exec roomy_outer body)
          have hkeeps := (Assembled.bind (assembled_execInit roomy_outer init) fun _ =>
            assembled_loop roomy_outer c update body).keeps roomy_outer.toTolerant
          -- If the loop is interrupted, only what is visible outside of its head has to be bound.
          have hloop := (Meets.repeated hhosts hround).mono (fun _ hs => hs) (fun _ _ ht => ht)
            fun _ ht => ht.weaken (isVariable_afterInit init)
          have hhead : Stays B h g env n (Run.inBlock do
              execInit init
              Run.repeated (loopRound (evalCondition c) (exec body) (evalUpdate update))) :=
            .inBlock (.bind (meets_execInit hhosts hinit) fun _ => hloop) hkeeps
              (fun _ hs => hs.entered) (fun _ _ _ hs houter ht => hs.left houter ht)
              fun _ _ hs houter ht => hs.left houter ht
          exact executes_of_completes <| .bind (.poll hhosts (State.Fits.stable B env n)) fun _ =>
            .bind hhead fun _ => completes_next
  | .break, env, n, hs => by
      rw [exec]
      cases hs with
      | «break» hloop =>
          exact executes_of_completes <| .bind (.poll hhosts (State.Fits.stable B env n)) fun _ =>
            .result fun _ hs => ⟨hs, fun _ => hloop⟩
  | .continue, env, n, hs => by
      rw [exec]
      cases hs with
      | «continue» hloop =>
          exact executes_of_completes <| .bind (.poll hhosts (State.Fits.stable B env n)) fun _ =>
            .result fun _ hs => ⟨hs, fun _ => hloop⟩
  | .empty, env, n, _ => by
      rw [exec]
      exact executes_of_completes <| .bind (.poll hhosts (State.Fits.stable B env n)) fun _ =>
        completes_next

theorem completes_exec (hhosts : h.Twins B g) {s : Stmt} {env : Env} {n : Nat}
    (hs : s.Scoped env) : Completes B h g env n (exec s) :=
  (meets_exec hhosts hs).mono (fun _ hs => hs) (fun _ _ ht => ht.1) fun _ ht => ht

theorem meets_execAll (hhosts : h.Twins B g) : ∀ {ss : List Stmt} {env : Env} {n : Nat},
    Stmt.AllScoped env ss → Completes B h g env (n + 1) (execAll ss)
  | [], env, n, _ => by
      rw [execAll]
      exact completes_next
  | s :: ss, env, n, hss => by
      rw [execAll]
      cases hss with
      | cons hs hss =>
          refine .bind (meets_exec hhosts hs) fun c => ?_
          cases c
          case next =>
              -- The rest is run where more is visible, and less has to be bound behind it.
              refine (meets_execAll (n := n) hhosts hss).mono
                (fun _ ht => ht.2 rfl (Nat.succ_pos n)) (fun _ _ ht => ?_) fun _ ht => ?_
              · rw [inLoop_after] at ht
                exact ⟨ht.1.weaken isVariable_after, ht.2⟩
              · exact ht.weaken isVariable_after
          all_goals exact .result fun _ ht => ht.1

end

/-! ### Snippets -/

/-- What lasts of a fitting state: the values of the session, and the silence. -/
structure State.Sealed (B : Barrier) (s : State) : Prop where
  vars : ∀ {x}, x ∈ s.session.vars → x.value.Permitted B
  silent : B.Mutes → ∀ {e}, e ∈ s.effects → ¬ e.effect.Writes

theorem State.Fits.kept {s : State} (hs : s.Fits B env n) : s.Sealed B :=
  ⟨hs.vars, hs.silent⟩

theorem State.Sealed.imported {s : State} (hs : s.Sealed B) {f : Session → Session}
    (hf : ∀ s, (f s).vars = s.vars) : State.Sealed B { s with session := f s.session } :=
  ⟨fun hx => hs.vars (hf s.session ▸ hx), hs.silent⟩

theorem vars_importClass (s : Session) (c : Library.HostClass) :
    (s.importClass c).vars = s.vars := by
  unfold Session.importClass
  split <;> rfl

theorem vars_importPackage (s : Session) (p : Library.Package) :
    (s.importPackage p).vars = s.vars := by
  unfold Session.importPackage
  split <;> rfl

/-- A snippet misses no variable, and the session it leaves holds permitted values only. -/
theorem meets_runTop (hhosts : h.Twins B g) (snippet : Snippet) {names : Names} {p : TopLevel}
    (hp : p.Scoped names) :
    Meets h g (State.Fits B ⟨names, [], false⟩ 0) (runTop snippet p)
      (fun _ => State.Sealed B) (State.Sealed B) := by
  have hstable := State.Fits.stable B ⟨names, [], false⟩ 0
  have hpoll := Meets.poll hhosts hstable
  have hcheck := Meets.check hhosts hstable
  have hend {α : Type} {x : Run α} {Q : α → State → Prop}
      (hx : Meets h g (State.Fits B ⟨names, [], false⟩ 0) x Q (State.Fits B ⟨names, [], false⟩ 0)) :
      Meets h g (State.Fits B ⟨names, [], false⟩ 0) x Q (State.Sealed B) :=
    hx.mono (fun _ hs => hs) (fun _ _ ht => ht) fun _ ht => ht.kept
  cases hp with
  | importClass _ =>
      exact .bind (hend hpoll) fun _ => .bind (hend hpoll) fun _ =>
        .bind (hend (hcheck _)) fun _ => .assume fun _ =>
        .bind (hend (hcheck _)) fun _ => .assume fun _ =>
        .bind (.modify fun _ hs => hs.kept.imported fun s => vars_importClass s _) fun _ =>
        .result fun _ hs => hs
  | importPackage _ =>
      exact .bind (hend hpoll) fun _ => .bind (hend hpoll) fun _ =>
        .bind (hend (hcheck _)) fun _ => .assume fun _ =>
        .bind (.modify fun _ hs => hs.kept.imported fun s => vars_importPackage s _) fun _ =>
        .result fun _ hs => hs
  | declare hd =>
      refine .bind (hend hpoll) fun _ => .bind (hend (meets_initialValue hhosts hd)) fun v =>
        .assume fun hv => .bind .gets fun _ => .bind (Q := fun _ => State.Sealed B)
        (.modify fun s hs => ⟨fun hx => ?_, hs.silent⟩) fun _ => .result fun _ hs => hs
      rcases List.mem_cons.mp hx with rfl | hx
      · exact hv
      · exact hs.vars (List.mem_filter.mp hx).1
  | expr he =>
      exact .bind (hend hpoll) fun _ => .bind (hend (meets_eval hhosts he)) fun _ =>
        .assume fun _ => .result fun _ hs => hs.kept
  | stmt hs =>
      exact .bind (hend (meets_exec hhosts hs)) fun _ => .result fun _ ht => ht.1.1.kept

end Machine
end GuardedRepl
