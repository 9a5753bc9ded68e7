import GuardedRepl.Proofs.Machine.Weaving

/-!
# Programs are assembled

Expressions, statements and snippets are put together from questions and local runs.  An expression
declares nothing; a statement declares nothing but local variables of the innermost block.

**Results.**
* `assembled_eval`, `assembled_exec`, `assembled_runTop`: programs are put together in this way.
* `Assembled.keeps`: a relation between states that the parts of a run keep is kept by the run.
* `runTop_settled`: a snippet that is interrupted declares and imports nothing.
-/

namespace GuardedRepl

/-- What a session declares and imports, the values of its variables apart. -/
def Session.outline (s : Session) :
    List (String × Program.DeclaredType × Snippet) × List Library.HostClass ×
      List Library.Package :=
  (s.vars.map fun v => (v.name, v.type, v.owner), s.imports, s.packages)

namespace Machine

open Program Run

section Programs

variable {R : State → State → Prop}

theorem assembled_eval (hR : Tolerant R) (e : Expr) : Assembled R (eval e) :=
  (wovenIn_eval (D := False) e).assembled hR False.elim

theorem assembled_initialValue (hR : Tolerant R) (d : Declaration) :
    Assembled R (initialValue d) :=
  (woven_initialValue (D := False) d).assembled hR False.elim

theorem assembled_execInit (hR : Roomy R) (s : Option Simple) : Assembled R (execInit s) :=
  (woven_execInit s).assembled hR.toTolerant fun _ => hR

theorem assembled_loop (hR : Roomy R) (c update : Option Expr) (body : Stmt) :
    Assembled R (Run.repeated (loopRound (evalCondition c) (exec body) (evalUpdate update))) :=
  (woven_loop c update (woven_exec body)).assembled hR.toTolerant fun _ => hR

theorem assembled_exec (hR : Roomy R) (s : Stmt) : Assembled R (exec s) :=
  (woven_exec s).assembled hR.toTolerant fun _ => hR

theorem assembled_execAll (hR : Roomy R) (ss : List Stmt) : Assembled R (execAll ss) :=
  (woven_execAll ss).assembled hR.toTolerant fun _ => hR

/-- A roomy relation that also allows the session to be changed. -/
structure Open (R : State → State → Prop) : Prop extends Roomy R where
  importClass : ∀ (s : State) (c : Library.HostClass),
    R s { s with session := s.session.importClass c }
  importPackage : ∀ (s : State) (p : Library.Package),
    R s { s with session := s.session.importPackage p }
  declareVar : ∀ (s : State) (v : Variable), R s { s with session := s.session.declare v }

/-- A snippet, with the changes of the session that it ends with. -/
theorem Open.assembled_runTop (hR : Open R) (snippet : Snippet) (p : TopLevel) :
    Assembled R (runTop snippet p) := by
  have hT := hR.toTolerant
  have hchange (f : Session → Session) (hf : ∀ s : State, R s { s with session := f s.session }) :
      Assembled R (Run.modify fun s => { s with session := f s.session }) :=
    .modify (fun _ => rfl) (fun _ => rfl) hf
  cases p with
  | importClass c =>
      exact .bind .poll fun _ => .bind .poll fun _ => .bind (.check _) fun _ =>
        .bind (.check _) fun _ =>
        .bind (hchange (·.importClass c) fun s => hR.importClass s c) fun _ => .result hT _
  | importPackage p =>
      exact .bind .poll fun _ => .bind .poll fun _ => .bind (.check _) fun _ =>
        .bind (hchange (·.importPackage p) fun s => hR.importPackage s p) fun _ => .result hT _
  | declare d =>
      exact .bind .poll fun _ => .bind (assembled_initialValue hT d) fun v =>
        .bind (.gets hT _) fun _ =>
        .bind (hchange (·.declare ⟨d.name, d.type, v, snippet⟩) fun s => hR.declareVar s _) fun _ =>
        .result hT _
  | expr e => exact .bind .poll fun _ => .bind (assembled_eval hT e) fun _ => .result hT _
  | stmt s => exact .bind (assembled_exec hR.toRoomy s) fun _ => .result hT _

theorem assembled_runTop (snippet : Snippet) (p : TopLevel) :
    Assembled (fun _ _ => True) (runTop snippet p) := by
  exact Open.assembled_runTop ⟨roomy_true, fun _ _ => trivial, fun _ _ => trivial,
    fun _ _ => trivial⟩ snippet p

end Programs

/-! ### What programs leave as it was -/

namespace Run

variable {α β : Type} {R : State → State → Prop}

theorem keeps_rounds (refl : ∀ s, R s s) (trans : ∀ {s t u}, R s t → R t u → R s u)
    {round : Run Bool} {h : Host} (hround : ∀ s, R s (round h s).2) (n : Nat) (s : State) :
    R s (rounds round n h s).2 := by
  induction n generalizing s with
  | zero => exact refl s
  | succ n ih =>
      have hr := hround s
      rcases rounds_succ_cases round n h s with ⟨t, ht, heq⟩ | ⟨t, ht, heq⟩ | ⟨e, t, ht, heq⟩ <;>
        rw [ht] at hr <;> rw [heq]
      · exact trans hr (ih t)
      · exact hr
      · exact hr

/-- What the parts of a run keep, the run keeps. -/
theorem Assembled.keeps (hR : Tolerant R) {x : Run α} (hx : Assembled R x) : Keeps R x := by
  intro h s
  induction hx generalizing s with
  | step _ hk => exact hk h s
  | poll =>
      simp only [Run.poll]
      split <;> exact hR.asked rfl rfl
  | check a =>
      simp only [Run.check]
      split <;> exact hR.asked rfl rfl
  | @bind α β x f _ _ ihx ihf =>
      have hr := ihx s
      rcases bind_cases x f h s with ⟨a, t, ht, heq⟩ | ⟨e, t, ht, heq⟩ <;>
        rw [ht] at hr <;> rw [heq]
      · exact hR.trans hr (ihf a t)
      · exact hr
  | inBlock _ ih => exact hR.block (ih _)
  | repeated _ _ ih => exact keeps_rounds hR.refl hR.trans ih h.fuel s

/-- A relation holds between the states before and after a run that is interrupted. -/
def KeepsOnError (R : State → State → Prop) (x : Run α) : Prop :=
  ∀ h s e, (x h s).1 = .error e → R s (x h s).2

theorem Keeps.bindOnError (hR : Tolerant R) {x : Run α} {f : α → Run β} (hx : Keeps R x)
    (hf : ∀ a, KeepsOnError R (f a)) : KeepsOnError R (x >>= f) := by
  intro h s e he
  have hr := hx h s
  rcases bind_cases x f h s with ⟨a, t, ht, heq⟩ | ⟨e', t, ht, heq⟩ <;>
    rw [ht] at hr <;> rw [heq] at he ⊢
  · exact hR.trans hr (hf a h t e he)
  · exact hr

end Run

/-- Two states agree on what the session declares and imports. -/
def Settled (s t : State) : Prop :=
  t.session.outline = s.session.outline

theorem outline_assign (s : Session) (name : String) (v : Value) :
    (s.assign name v).outline = s.outline := by
  have hvar : ∀ w : Variable, (fun w : Variable => (w.name, w.type, w.owner))
      (if w.name = name then { w with value := v } else w) = (w.name, w.type, w.owner) := by
    intro w
    by_cases hw : w.name = name <;> simp [hw]
  simp only [Session.outline, Session.assign, List.map_map]
  congr 1
  exact List.map_congr_left fun w _ => hvar w

theorem roomy_settled : Roomy Settled where
  trans hst htu := Eq.trans htu hst
  asked hs _ := congrArg Session.outline hs
  block hst := hst
  assign {s t name v} h := by
    rcases State.assign_cases h with ⟨frames, -, rfl⟩ | ⟨-, rfl⟩
    · rfl
    · exact outline_assign s.session name v
  declare _ _ _ := rfl

/-- A snippet that is interrupted declares and imports nothing. -/
theorem runTop_settled (snippet : Snippet) (p : TopLevel) :
    KeepsOnError Settled (runTop snippet p) := by
  have hR := roomy_settled.toTolerant
  have hdone {β : Type} (f : State → State) (b : β) :
      KeepsOnError Settled (Run.modify f >>= fun _ => pure b) := fun _ _ _ he => by cases he
  -- The session is changed last, when nothing is left that could interrupt the run.
  have hpoll : Keeps Settled Run.poll := Assembled.poll.keeps hR
  have hcheck (a : Access) : Keeps Settled (Run.check a) := (Assembled.check a).keeps hR
  cases p with
  | importClass c =>
      exact hpoll.bindOnError hR fun _ => hpoll.bindOnError hR fun _ =>
        (hcheck _).bindOnError hR fun _ => (hcheck _).bindOnError hR fun _ => hdone _ _
  | importPackage p =>
      exact hpoll.bindOnError hR fun _ => hpoll.bindOnError hR fun _ =>
        (hcheck _).bindOnError hR fun _ => hdone _ _
  | declare d =>
      refine hpoll.bindOnError hR fun _ =>
        ((assembled_initialValue hR d).keeps hR).bindOnError hR fun v =>
        ((Assembled.gets hR _).keeps hR).bindOnError hR fun _ => hdone _ _
  | expr e =>
      intro h s _ _
      exact (Assembled.bind .poll fun _ =>
        .bind (assembled_eval hR e) fun v => .result hR _).keeps hR h s
  | stmt st =>
      intro h s _ _
      exact (Assembled.bind (assembled_exec roomy_settled st) fun _ => .result hR _).keeps hR h s

end Machine
end GuardedRepl
