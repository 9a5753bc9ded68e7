import GuardedRepl.Policy.Sandbox

/-!
# Actions in the sandbox

How a step is answered hangs on its place and on nothing that went before: inside an action that the
sandbox has begun the filter decides, and outside of all actions everything is denied.  The sandbox
knows the place by a flag, which is right at every step that is come to, also behind an action that
broke off.

**Results.**
* `perform_answered`, `performAll_answered`: every step is answered by its place, and leaves the
  sandbox as it was.
* `Reached.state`: the flag says at every step whether the step belongs to an action.
* `scoping`: the answers, and the steps that are come to, of every tree of steps.
-/

namespace GuardedRepl
namespace Sandbox

mutual

/-- The answer to a step inside an action, or outside of all: nothing if the step breaks off the
steps around it. -/
inductive Answered (f : Filter) : Bool → Step → Option Answer → Prop
  | probe (inside : Bool) : Answered f inside .probe (some (.active inside))
  | outside (a : Access) : Answered f false (.check a)
      (some (.checked (some ⟨a.describe ++ " denied: restricted context is not active"⟩)))
  | allowed {a : Access} : f.check a = .allow → Answered f true (.check a) (some (.checked none))
  | denied {a : Access} {reason : String} : f.check a = .deny reason →
      Answered f true (.check a) (some (.checked (some ⟨"access denied: " ++ reason⟩)))
  | panic (inside : Bool) : Answered f inside .panic none
  | refused (steps : List Step) : Answered f true (.run steps) (some .refused)
  | ran {steps : List Step} {answers : List Answer} : AnsweredAll f true steps (some answers) →
      Answered f false (.run steps) (some (.ran answers))
  | broken {steps : List Step} : AnsweredAll f true steps none →
      Answered f false (.run steps) (some .broken)

/-- The answers to steps in turn: nothing if one of them breaks the rest off. -/
inductive AnsweredAll (f : Filter) : Bool → List Step → Option (List Answer) → Prop
  | nil (inside : Bool) : AnsweredAll f inside [] (some [])
  | cons {inside : Bool} {step : Step} {steps : List Step} {answer : Answer}
      {answers : Option (List Answer)} : Answered f inside step (some answer) →
      AnsweredAll f inside steps answers →
      AnsweredAll f inside (step :: steps) (answers.map (answer :: ·))
  | broken {inside : Bool} {step : Step} (steps : List Step) : Answered f inside step none →
      AnsweredAll f inside (step :: steps) none

end

/-- In the course of some steps, which begin in one state of the sandbox, a step is come to in
another one.  The flag says whether it belongs to an action that was begun on the way. -/
inductive Reached : Sandbox → List Step → Bool → Step → Sandbox → Prop
  | first (s : Sandbox) (step : Step) (steps : List Step) : Reached s (step :: steps) false step s
  | later {s after t : Sandbox} {step step' : Step} {steps : List Step} {answer : Answer}
      {inside : Bool} : perform s step = (some answer, after) →
      Reached after steps inside step' t → Reached s (step :: steps) inside step' t
  | within {s begun t : Sandbox} {nested : List Step} {step : Step} {inside : Bool}
      (steps : List Step) : s.enter? = some begun → Reached begun nested inside step t →
      Reached s (.run nested :: steps) true step t

theorem enter?_eq_some_iff {s t : Sandbox} :
    s.enter? = some t ↔ s.active = false ∧ t = ⟨s.filter, true⟩ := by
  unfold enter?
  cases s.active <;> simp [eq_comm]

variable (f : Filter)

theorem check_answered (inside : Bool) (a : Access) :
    Answered f inside (.check a) (some (.checked (check ⟨f, inside⟩ a))) := by
  cases inside with
  | false => exact .outside a
  | true =>
      cases ha : f.check a with
      | allow =>
          rw [show check ⟨f, true⟩ a = none by simp [check, ha]]
          exact .allowed ha
      | deny reason =>
          rw [show check ⟨f, true⟩ a = some ⟨"access denied: " ++ reason⟩ by simp [check, ha]]
          exact .denied ha

mutual

/-- A step is answered by its place, and it leaves the sandbox as it was. -/
theorem perform_answered : ∀ (inside : Bool) (step : Step),
    ∃ answer, Answered f inside step answer ∧ perform ⟨f, inside⟩ step = (answer, ⟨f, inside⟩)
  | inside, .probe => by
      rw [perform]
      exact ⟨_, .probe inside, rfl⟩
  | inside, .check a => by
      rw [perform]
      exact ⟨_, check_answered f inside a, rfl⟩
  | inside, .panic => by
      rw [perform]
      exact ⟨_, .panic inside, rfl⟩
  -- Inside an action the steps are not looked at; outside they are performed inside a new one.
  | true, .run steps => by
      rw [perform]
      exact ⟨_, .refused steps, rfl⟩
  | false, .run steps => by
      obtain ⟨answers, hanswers, hrun⟩ := performAll_answered true steps
      rw [perform]
      simp only [enter?, Bool.false_eq_true, if_false, hrun]
      cases answers with
      | none => exact ⟨_, .broken hanswers, rfl⟩
      | some answers => exact ⟨_, .ran hanswers, rfl⟩

theorem performAll_answered : ∀ (inside : Bool) (steps : List Step),
    ∃ answers, AnsweredAll f inside steps answers ∧
      performAll ⟨f, inside⟩ steps = (answers, ⟨f, inside⟩)
  | inside, [] => by
      rw [performAll]
      exact ⟨_, .nil inside, rfl⟩
  | inside, step :: steps => by
      obtain ⟨answer, hanswer, hstep⟩ := perform_answered inside step
      obtain ⟨answers, hanswers, hrun⟩ := performAll_answered inside steps
      rw [performAll, hstep]
      cases answer with
      | none => exact ⟨_, .broken steps hanswer, rfl⟩
      | some answer =>
          refine ⟨_, .cons hanswer hanswers, ?_⟩
          simp only [hrun]
          cases answers <;> rfl

end

variable {f}

theorem perform_snd (s : Sandbox) (step : Step) : (perform s step).2 = s := by
  obtain ⟨answer, -, hstep⟩ := perform_answered s.filter s.active step
  exact congrArg Prod.snd hstep

/-- At every step that is come to the flag is up exactly if it was up from the start or the step
belongs to an action. -/
theorem Reached.state {s t : Sandbox} {steps : List Step} {inside : Bool} {step : Step}
    (h : Reached s steps inside step t) : t = ⟨s.filter, s.active || inside⟩ := by
  induction h with
  | first s step steps => rw [Bool.or_false]
  | @later s after t step step' steps answer inside hstep _ ih =>
      have hafter := perform_snd s step
      rw [hstep] at hafter
      cases hafter
      exact ih
  | within steps henter _ ih =>
      obtain ⟨hidle, rfl⟩ := enter?_eq_some_iff.mp henter
      rw [ih, hidle]
      rfl

/-- Where an action is running, none is begun: none of the steps of a refused action is come to. -/
theorem Reached.of_refused {s t : Sandbox} {nested steps : List Step} {inside : Bool} {step : Step}
    (hactive : s.active = true) (h : Reached s (.run nested :: steps) inside step t) :
    (inside = false ∧ step = .run nested ∧ t = s) ∨ Reached s steps inside step t := by
  cases h with
  | first => exact Or.inl ⟨rfl, rfl, rfl⟩
  | later hstep hrest =>
      have hafter := perform_snd s (.run nested)
      rw [hstep] at hafter
      cases hafter
      exact Or.inr hrest
  | within _ henter _ =>
      have hidle := (enter?_eq_some_iff.mp henter).1
      rw [hactive] at hidle
      cases hidle

/-- **Actions in the sandbox.**  On a sandbox that is new, all steps are answered by their place, and
in the end the sandbox is inactive.  At every step that is come to the sandbox is active exactly if
the step belongs to an action, and the step is answered by that.  An action asked for inside another
one is refused, none of its steps is come to, and the other action goes on in the same state; any
other action is begun, its steps belong to it, and behind it, however it ended, the sandbox is
inactive and would begin the next action. -/
theorem scoping (f : Filter) (steps : List Step) :
    (∃ answers, AnsweredAll f false steps answers ∧
        performAll ⟨f, false⟩ steps = (answers, ⟨f, false⟩)) ∧
      ∀ inside step t, Reached ⟨f, false⟩ steps inside step t →
        t = ⟨f, inside⟩ ∧
        (∃ answer, Answered f inside step answer ∧ perform t step = (answer, t)) ∧
        ∀ nested, step = .run nested →
          (inside = true → perform t step = (some .refused, t) ∧
            ∀ rest inside' step' u, Reached t (step :: rest) inside' step' u →
              (inside' = false ∧ step' = step ∧ u = t) ∨ Reached t rest inside' step' u) ∧
          (inside = false → (perform t step).2.enter? = some ⟨f, true⟩ ∧
            ∀ rest inside' step' u, Reached ⟨f, true⟩ nested inside' step' u →
              Reached t (step :: rest) true step' u) := by
  refine ⟨performAll_answered f false steps, fun inside step t hreached => ?_⟩
  have ht : t = ⟨f, inside⟩ := hreached.state
  subst ht
  refine ⟨rfl, perform_answered f inside step, ?_⟩
  rintro nested rfl
  constructor
  · rintro rfl
    obtain ⟨answer, hanswer, hstep⟩ := perform_answered f true (.run nested)
    cases hanswer
    exact ⟨hstep, fun rest inside' step' u => Reached.of_refused rfl⟩
  · rintro rfl
    have hbegun : enter? ⟨f, false⟩ = some ⟨f, true⟩ := rfl
    rw [perform_snd]
    exact ⟨hbegun, fun rest inside' step' u => .within rest hbegun⟩

/-- A filter that blocks one class. -/
def withoutFiles : Filter where
  classes := ["java.io.File"]

/-- Uses of the class before, in and behind an action, which asks for another action and breaks
off. -/
def brokenAction : List Step :=
  let use := Step.check (.cls "java.io.File")
  [use, .run [use, .run [use], .panic, use], use]

/-- In the action that breaks off, the other one is come to with the sandbox active and refused; in
the end the sandbox is inactive. -/
theorem scoping_broken :
    Reached ⟨withoutFiles, false⟩ brokenAction true (.run [.check (.cls "java.io.File")])
        ⟨withoutFiles, true⟩ ∧
      perform ⟨withoutFiles, true⟩ (.run [.check (.cls "java.io.File")]) =
        (some .refused, ⟨withoutFiles, true⟩) ∧
      ∃ answers, AnsweredAll withoutFiles false brokenAction answers ∧
        performAll ⟨withoutFiles, false⟩ brokenAction = (answers, ⟨withoutFiles, false⟩) := by
  have hreached : Reached ⟨withoutFiles, false⟩ brokenAction true
      (.run [.check (.cls "java.io.File")]) ⟨withoutFiles, true⟩ := by
    have huse (inside : Bool) : perform ⟨withoutFiles, inside⟩ (.check (.cls "java.io.File")) =
        (some (.checked (check ⟨withoutFiles, inside⟩ (.cls "java.io.File"))),
          ⟨withoutFiles, inside⟩) := by rw [perform]
    exact .later (huse false) (.within _ rfl (.later (huse true) (.first _ _ _)))
  obtain ⟨hall, hsteps⟩ := scoping withoutFiles brokenAction
  exact ⟨hreached, ((hsteps _ _ _ hreached).2.2 _ rfl).1 rfl |>.1, hall⟩

end Sandbox
end GuardedRepl
