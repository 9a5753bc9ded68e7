import GuardedRepl.Session.Interpreter

/-!
# Fragments of a command

A fragment is rejected before it is run, or it is accepted and run as the next snippet.  Only a run
changes the session, so what the runs of accepted snippets keep holds of every session that can be
reached.

**Results.**
* `evalFragment_cases`: the two ways in which a fragment is dealt with.
* `Reachable.session`: what fresh sessions have and runs keep, every reachable session has.
-/

namespace GuardedRepl

/-- A host without files, which allows everything. -/
def Machine.Host.bare : Machine.Host where
  gate _ _ := none
  stops _ := false
  clock n := n
  processors := 1
  files := ⟨[], [], []⟩
  fuel := 1000

namespace Interpreter

open Machine (Host)

/-- A text is read and looked up without an error, and becomes a snippet with a program. -/
def Accepts (i : Interpreter) (text : List Char) (snippet : Snippet) (p : Program.TopLevel) :
    Prop :=
  ∃ tree, read text = .ok tree ∧ snippet = ⟨i.nextId, kindOf tree, String.ofList text⟩ ∧
    (Program.resolve i.session.names tree).result = some p

/-- The state that a snippet is run from. -/
def start (i : Interpreter) : Machine.State :=
  { session := i.session, progress := i.progress }

theorem run_eq (i : Interpreter) (host : Host) (snippet : Snippet) (p : Program.TopLevel) :
    (i.run host snippet p).events =
        (eventsOf snippet (Machine.runTop snippet p host i.start).1).reverse ∧
      (i.run host snippet p).effects = (Machine.runTop snippet p host i.start).2.effects ∧
      (i.run host snippet p).interpreter.session =
        (Machine.runTop snippet p host i.start).2.session ∧
      (i.run host snippet p).interpreter.progress =
        (Machine.runTop snippet p host i.start).2.progress :=
  ⟨rfl, rfl, rfl, rfl⟩

theorem run_isStopped {i : Interpreter} {host : Host} {snippet : Snippet} {p : Program.TopLevel}
    (hstopped : (Machine.runTop snippet p host i.start).1 = .error .stopped) :
    (i.run host snippet p).isStopped = true := by
  rcases hrun : Machine.runTop snippet p host i.start with ⟨outcome, s⟩
  rw [hrun] at hstopped
  unfold start at hrun
  simp only at hstopped
  simp only [run, hrun, hstopped]

theorem run_goesOn {i : Interpreter} {host : Host} {snippet : Snippet} {p : Program.TopLevel}
    (hstopped : (Machine.runTop snippet p host i.start).1 ≠ .error .stopped)
    (hexhausted : (Machine.runTop snippet p host i.start).1 ≠ .error .exhausted) :
    (i.run host snippet p).isStopped = false := by
  rcases hrun : Machine.runTop snippet p host i.start with ⟨outcome, s⟩
  rw [hrun] at hstopped hexhausted
  unfold start at hrun
  simp only [run, hrun]

theorem run_congr {i : Interpreter} {h₁ h₂ : Host} {snippet : Snippet} {p : Program.TopLevel}
    (h : Machine.runTop snippet p h₁ i.start = Machine.runTop snippet p h₂ i.start) :
    i.run h₁ snippet p = i.run h₂ snippet p := by
  unfold run
  rw [show ({ session := i.session, progress := i.progress } : Machine.State) = i.start from rfl, h]

/-- An accepted fragment is run. -/
theorem Accepts.evalFragment_eq {i : Interpreter} {text : List Char} {snippet : Snippet}
    {p : Program.TopLevel} (h : i.Accepts text snippet p) :
    ∃ ds, ∀ host, i.evalFragment host text = (i.issue ds).run host snippet p := by
  obtain ⟨tree, hread, rfl, hresult⟩ := h
  refine ⟨(Program.resolve i.session.names tree).findings.map
    (Program.Finding.diagnostic i.nextId), fun _ => ?_⟩
  unfold evalFragment
  simp only [hread, hresult]

/-- A fragment is accepted and run, or it is rejected before the host is asked for anything. -/
theorem evalFragment_cases (i : Interpreter) (text : List Char) :
    (∃ snippet p ds, i.Accepts text snippet p ∧
        ∀ host, i.evalFragment host text = (i.issue ds).run host snippet p) ∨
      ∃ snippet ds, ∀ host,
        i.evalFragment host text = ⟨[.rejected snippet], [], false, i.issue ds⟩ := by
  rcases hread : read text with f | tree
  · refine Or.inr ⟨⟨i.nextId, .statement, String.ofList text⟩, [diagnosticOf i.nextId f],
      fun _ => ?_⟩
    unfold evalFragment
    simp only [hread]
  · rcases hresult : (Program.resolve i.session.names tree).result with _ | p
    · refine Or.inr ⟨⟨i.nextId, kindOf tree, String.ofList text⟩,
        (Program.resolve i.session.names tree).findings.map
          (Program.Finding.diagnostic i.nextId), fun _ => ?_⟩
      unfold evalFragment
      simp only [hread, hresult]
    · have haccepts : i.Accepts text _ p := ⟨tree, hread, rfl, hresult⟩
      obtain ⟨ds, heq⟩ := haccepts.evalFragment_eq
      exact Or.inl ⟨_, p, ds, haccepts, heq⟩

/-- A portion, and what was done before it. -/
def Portion.after (new done : Portion) : Portion :=
  { new with events := new.events ++ done.events, effects := new.effects ++ done.effects }

theorem evalFragments_cons (host : Host) (done : Portion) (text : List Char)
    (texts : List (List Char)) : evalFragments host done (text :: texts) =
      if host.stops done.interpreter.progress then done
      else if (done.interpreter.evalFragment host text).isStopped then
        (done.interpreter.evalFragment host text).after done
      else evalFragments host ((done.interpreter.evalFragment host text).after done) texts :=
  rfl

section Invariants

variable {Q : Interpreter → Prop} {host : Host}

theorem evalFragments_keeps
    (hstep : ∀ i text, Q i → Q (i.evalFragment host text).interpreter) (texts : List (List Char))
    (done : Portion) (hdone : Q done.interpreter) :
    Q (evalFragments host done texts).interpreter := by
  induction texts generalizing done with
  | nil => exact hdone
  | cons text texts ih =>
      have hnew := hstep done.interpreter text hdone
      simp only [evalFragments]
      split
      · exact hdone
      · split
        · exact hnew
        · exact ih _ hnew

theorem eval_keeps (hstep : ∀ i text, Q i → Q (i.evalFragment host text).interpreter)
    (i : Interpreter) (command : String) (hi : Q i) : Q (i.eval host command).interpreter := by
  unfold eval
  split
  · exact hi
  · exact evalFragments_keeps hstep _ _ hi

end Invariants

/-- The interpreters that commands lead to, under hosts of some kind. -/
inductive Reachable (P : Host → Prop) : Interpreter → Prop
  | fresh : Reachable P {}
  | evaluated {i : Interpreter} {host : Host} (command : String) :
      Reachable P i → P host → Reachable P (i.eval host command).interpreter
  | closed {i : Interpreter} : Reachable P i → Reachable P i.close

/-- What fresh sessions have and the runs of accepted snippets keep. -/
theorem Reachable.session {P : Host → Prop} {Q : Session → Prop} (hfresh : Q {})
    (hrun : ∀ {i : Interpreter} {host : Host} {text snippet p}, Q i.session → P host →
      i.Accepts text snippet p → Q (Machine.runTop snippet p host i.start).2.session)
    {i : Interpreter} (hi : Reachable P i) : Q i.session := by
  induction hi with
  | fresh => exact hfresh
  | @evaluated i host command _ hhost ih =>
      refine eval_keeps (Q := fun i => Q i.session) (fun i text hi => ?_) i command ih
      rcases evalFragment_cases i text with ⟨snippet, p, ds, haccepts, heq⟩ | ⟨_, _, heq⟩ <;>
        rw [heq]
      · exact hrun (i := i) hi hhost haccepts
      · exact hi
  | closed _ _ => exact hfresh

end Interpreter
end GuardedRepl
