import Mathlib
import GuardedRepl.Proofs.Session.Course

/-!
# The types of session variables

A declaration checks the value that a variable begins with against the declared type, and an
increment makes an integer of an integer.  An assignment does not look at the type: it is the only
way in which a variable of a session comes by a value that its type does not accept, or by no value
at all.

**Results.**
* `upkeep_wellTyped`: whatever a snippet does but for such assignments keeps the variables well
  typed.
* `exists_illTyped`: an assignment stores a string in a variable of type `int`.
* `session_wellTyped`: without such assignments the variables of every session are well typed.
-/

namespace GuardedRepl

/-- A variable has a value, and its declared type accepts it. -/
def Variable.WellTyped (x : Variable) : Prop :=
  x.value ≠ .void ∧ x.type.accepts x.value = true

instance (x : Variable) : Decidable x.WellTyped :=
  inferInstanceAs (Decidable (_ ∧ _))

/-- No name is declared twice, and every variable is well typed. -/
structure Session.WellTyped (s : Session) : Prop where
  names : (s.vars.map Variable.name).Nodup
  vars : ∀ x ∈ s.vars, x.WellTyped

theorem Session.wellTyped_fresh : Session.WellTyped {} :=
  ⟨List.nodup_nil, fun _ hx => absurd hx List.not_mem_nil⟩

/-- A session stays well typed if what is assigned fits. -/
theorem Session.WellTyped.assign {s : Session} (hs : s.WellTyped) {name : String} {v : Value}
    (hv : ∀ x ∈ s.vars, x.name = name → v ≠ .void ∧ x.type.accepts v = true) :
    (s.assign name v).WellTyped := by
  refine ⟨?_, fun x hx => ?_⟩
  · rw [Machine.names_assign]
    exact hs.names
  · obtain ⟨y, hy, rfl⟩ := List.mem_map.mp hx
    split
    · exact hv y hy ‹_›
    · exact hs.vars y hy

theorem Session.WellTyped.declare {s : Session} (hs : s.WellTyped) {x : Variable}
    (hx : x.WellTyped) : (s.declare x).WellTyped := by
  refine ⟨nodup_declare hs.names x, fun y hy => ?_⟩
  rcases List.mem_cons.mp hy with rfl | hy
  · exact hx
  · exact hs.vars y (List.mem_filter.mp hy).1

/-- A type that accepts one integer accepts them all. -/
theorem Program.DeclaredType.accepts_int {type : DeclaredType} {m : Int64}
    (h : type.accepts (.int m) = true) (n : Int64) : type.accepts (.int n) = true := by
  cases type with
  | inferred => rfl
  | primitive p => exact h
  | cls c => exact h

namespace Machine

open Program

/-- What an assignment that is run stores in a variable of the session fits its declared type. -/
def AssignmentFits (h : Host) : Task → State → Prop
  | .expr (.assign name op e), s => ∀ v t, eval (.assign name op e) h s = (.ok v, t) →
      State.lookupIn name t.frames = none →
      ∀ x ∈ t.session.vars, x.name = name → v ≠ .void ∧ x.type.accepts v = true
  | _, _ => True

/-- An increment keeps the variables well typed. -/
theorem wellTyped_step {s t : State} {name : String} {m n : Int64} (hs : s.session.WellTyped)
    (hfound : s.lookup name = some (.int m)) (ht : s.assign name (.int n) = some t) :
    t.session.WellTyped := by
  rcases State.assign_cases ht with ⟨frames, -, rfl⟩ | ⟨hnone, rfl⟩
  · exact hs
  · refine hs.assign fun x hx hname => ⟨by simp, ?_⟩
    unfold State.lookup at hfound
    rw [lookupIn_of_assignIn hnone] at hfound
    obtain ⟨y, hy, hvalue⟩ := Option.map_eq_some_iff.mp hfound
    -- There is only one variable with the name.
    have hyname : y.name = name := by simpa using List.find?_some hy
    obtain rfl : x = y := List.inj_on_of_nodup_map hs.names hx (List.mem_of_find?_eq_some hy)
      (hname.trans hyname.symm)
    have haccepts := (hs.vars x hx).2
    rw [hvalue] at haccepts
    exact DeclaredType.accepts_int haccepts n

/-- The variables of the session stay well typed, as long as the assignments fit. -/
theorem upkeep_wellTyped (h : Host) :
    Upkeep h (AssignmentFits h) (fun s => s.session.WellTyped) fun _ => True where
  same hvars _ hs := ⟨hvars ▸ hs.names, hvars ▸ hs.vars⟩
  enter hs := hs
  leave hs := hs
  lookup _ _ := trivial
  declareLocal hs _ := hs
  declare hs _ hw := by
    obtain ⟨rfl, hvoid, haccepts⟩ := Upkeep.fitted_eq hw
    exact hs.declare ⟨hvoid, haccepts⟩
  assign {s t u name op e v} hs _ hfits heval ht := by
    have hfits := hfits v u heval
    rcases State.assign_cases ht with ⟨frames, -, rfl⟩ | ⟨hnone, rfl⟩
    · exact hs
    · refine hs.assign fun x hx hname => ?_
      have hmem : { x with value := v } ∈ t.session.vars.map fun y =>
          if y.name = name then { y with value := v } else y :=
        List.mem_map.mpr ⟨x, hx, if_pos hname⟩
      exact hfits (lookupIn_of_assignIn hnone) { x with value := v } hmem hname
  step hs hfound ht := wellTyped_step hs hfound ht
  plain _ := trivial
  literal _ := trivial
  default _ := trivial
  arith _ := trivial
  staticCall _ _ _ := trivial
  call _ _ _ _ := trivial

end Machine

namespace Interpreter

open Machine

/-- Without an assignment that does not fit, a command leaves the variables well typed. -/
theorem wellTyped_eval {i : Interpreter} {host : Host} {command : String}
    (hi : i.session.WellTyped)
    (hfits : ∀ task s, i.ComesBy host command task s → AssignmentFits host task s) :
    (i.eval host command).interpreter.session.WellTyped := by
  refine eval_keeps_course (fun {j text snippet p} _ hj _ hL => ?_) hi hfits
  have hrun := (upkeep_wellTyped host).runTop snippet (s := j.start) hj hL
  rcases heq : runTop snippet p host j.start with ⟨e | a, t⟩
  · exact hrun.error e t heq
  · exact hrun.ok a t heq

/-- An assignment stores a string in a variable of type `int`. -/
theorem exists_illTyped :
    ¬ ∀ i, Reachable (fun _ => True) i → ∀ x ∈ i.session.vars, x.WellTyped := by
  intro hall
  have htyped := hall _ (@Reachable.evaluated _ _ Host.bare "int x = 1; x = \"a\";" .fresh trivial)
  revert htyped
  decide +kernel

/-- **Session variables are well typed, as long as the assignments fit.**  In every session that
commands lead to under any hosts, if no assignment that is run stores a value in a variable of the
session that its declared type does not accept, every variable has a value, and its declared type
accepts it. -/
theorem session_wellTyped {i : Interpreter}
    (hi : ReachedBy (fun i host command =>
      ∀ task s, i.ComesBy host command task s → AssignmentFits host task s) i) :
    ∀ x ∈ i.session.vars, x.value ≠ .void ∧ x.type.accepts x.value = true :=
  (hi.session Session.wellTyped_fresh fun hi hfits => wellTyped_eval hi hfits).vars

/-! ### A session with an assignment -/

/-- An integer fits if every variable of the session accepts integers. -/
theorem fits_int {host : Host} {name : String} {n : Int64} {s : State}
    (hs : ∀ x ∈ s.session.vars, x.type.accepts (.int n) = true) :
    AssignmentFits host (.expr (.assign name none (.int n))) s := by
  intro v t heval _ x hx _
  rw [Machine.eval] at heval
  obtain ⟨w, u, hw, hrest⟩ := Run.bind_ok heval
  rw [Machine.eval] at hw
  cases hw
  obtain ⟨_, u, hassign, hresult⟩ := Run.bind_ok hrest
  cases hresult
  refine ⟨by simp, ?_⟩
  unfold Run.assign at hassign
  split at hassign <;> cases hassign
  rename_i hassign
  rcases State.assign_cases hassign with ⟨frames, -, rfl⟩ | ⟨-, rfl⟩
  · exact hs x hx
  · obtain ⟨y, hy, rfl⟩ := List.mem_map.mp hx
    split <;> exact hs y hy

theorem visits_declare {host : Host} {d : Program.Declaration} {n : Int64} {task : Task}
    {s t : State} (hinit : d.init = some (.int n))
    (hvisits : Visits host (.top (.declare d)) s task t) :
    task = .top (.declare d) ∨ task = .expr (.int n) := by
  induction hvisits with
  | start => exact Or.inl rfl
  | next _ hcomes ih =>
      rcases ih with rfl | rfl
      · cases hcomes with
        | topInit _ _ hinit' =>
            rw [hinit] at hinit'
            cases hinit'
            exact Or.inr rfl
      · cases hcomes

theorem visits_assign {host : Host} {name : String} {n : Int64} {task : Task} {s t : State}
    (hvisits : Visits host (.top (.expr (.assign name none (.int n)))) s task t) :
    s.Untouched t ∧ (task = .top (.expr (.assign name none (.int n))) ∨
      task = .expr (.assign name none (.int n)) ∨ task = .expr (.int n)) := by
  induction hvisits with
  | start => exact ⟨.refl s, Or.inl rfl⟩
  | next _ hcomes ih =>
      obtain ⟨hsame, rfl | rfl | rfl⟩ := ih
      · cases hcomes with
        | topExpr hpoll =>
            exact ⟨hsame.trans ((Run.Observes.poll host _).ok _ _ hpoll).1, Or.inr (Or.inl rfl)⟩
      · cases hcomes with
        | assigned => exact ⟨hsame, Or.inr (Or.inr rfl)⟩
      · cases hcomes

/-- An interpreter with a variable `x` of type `int`. -/
def declared : Interpreter :=
  (eval {} Host.bare "int x = 1").interpreter

/-- A variable of type `int` is declared and an integer is assigned to it. -/
theorem session_wellTyped_assigned :
    ReachedBy (fun i host command =>
        ∀ task s, i.ComesBy host command task s → AssignmentFits host task s)
      (declared.eval Host.bare "x = 2").interpreter ∧
    ∀ x ∈ (declared.eval Host.bare "x = 2").interpreter.session.vars,
      x.value ≠ .void ∧ x.type.accepts x.value = true := by
  have hreached : ReachedBy (fun i host command =>
      ∀ task s, i.ComesBy host command task s → AssignmentFits host task s)
      (declared.eval Host.bare "x = 2").interpreter := by
    refine .evaluated (.evaluated .fresh fun task s hcomes => ?_) fun task s hcomes => ?_
    · obtain ⟨snippet, haccepts⟩ := @accepts_of_programOf {} "int x = 1".toList
        (.declare ⟨.primitive .int, "x", some (.int 1)⟩) (by cbv)
      have hvisits := visits_of_comesBy (by decide +kernel) haccepts hcomes
      rcases visits_declare rfl hvisits with rfl | rfl <;> trivial
    · obtain ⟨snippet, haccepts⟩ := @accepts_of_programOf declared "x = 2".toList
        (.expr (.assign "x" none (.int 2))) (by cbv)
      have hvisits := visits_of_comesBy (by decide +kernel) haccepts hcomes
      have hvars : ∀ x ∈ declared.session.vars, x.type.accepts (.int 2) = true := by
        decide +kernel
      obtain ⟨hsame, rfl | rfl | rfl⟩ := visits_assign hvisits
      · trivial
      · exact fits_int (hsame.1 ▸ hvars)
      · trivial
  exact ⟨hreached, session_wellTyped hreached⟩

end Interpreter
end GuardedRepl
