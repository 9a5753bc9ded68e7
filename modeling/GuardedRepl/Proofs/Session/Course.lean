import GuardedRepl.Proofs.Machine.Upkeep
import GuardedRepl.Proofs.Session.Resolution

/-!
# The course of a command

A command launches the programs of its accepted fragments one after another, each from the session
that the one before it has left, until the host says to stop.  Histories are told with what their
commands come by, so that an invariant may rest on it.

**Results.**
* `Launches.session`: what the runs keep holds whenever a program is launched.
* `eval_keeps_course`, `ReachedBy.session`: it holds behind every command and every history.
* `visits_of_comesBy`: what a command of one fragment comes by.
-/

namespace GuardedRepl
namespace Interpreter

open Machine (Host State Task Visits Throughout)

/-- In the course of a list of fragments, a program is launched by an interpreter. -/
inductive Launches (host : Host) :
    Interpreter → List (List Char) → Interpreter → Program.TopLevel → Prop
  | now {i : Interpreter} {text : List Char} {texts : List (List Char)} {snippet : Snippet}
      {p : Program.TopLevel} :
      host.stops i.progress = false → i.Accepts text snippet p → Launches host i (text :: texts) i p
  | later {i j : Interpreter} {text : List Char} {texts : List (List Char)}
      {p : Program.TopLevel} :
      host.stops i.progress = false → (i.evalFragment host text).isStopped = false →
      Launches host (i.evalFragment host text).interpreter texts j p →
      Launches host i (text :: texts) j p

/-- The fragments that a command is cut into. -/
def textsOf (command : String) : List (List Char) :=
  (Source.fragments command.toList).map Source.Fragment.text

theorem eval_closed {i : Interpreter} (hclosed : i.isClosed = true) (host : Host)
    (command : String) : i.eval host command = ⟨[], [], i⟩ := by
  rw [eval, if_pos hclosed]

theorem eval_eq {i : Interpreter} (hopen : i.isClosed = false) (host : Host) (command : String) :
    let all := evalFragments host ⟨[], [], false, i⟩ (textsOf command)
    i.eval host command =
      ⟨all.events.reverse, (all.effects.map Machine.Entry.effect).reverse, all.interpreter⟩ := by
  rw [eval, hopen, if_neg Bool.false_ne_true]
  rfl

/-- In the course of a command, a part of one of its programs is run from a state. -/
def ComesBy (i : Interpreter) (host : Host) (command : String) (task : Task) (s : State) : Prop :=
  i.isClosed = false ∧ ∃ j p, Launches host i (textsOf command) j p ∧
    Visits host (.top p) j.start task s

/-- No loop in the programs of fragments takes more rounds than the host has fuel for. -/
def EndsInTime (i : Interpreter) (host : Host) (texts : List (List Char)) : Prop :=
  ∀ {j p}, Launches host i texts j p →
    ∀ snippet, (Machine.runTop snippet p host j.start).1 ≠ .error .exhausted

/-- The interpreters that commands lead to, each of them one that the interpreter before it and its
host allow. -/
inductive ReachedBy (P : Interpreter → Host → String → Prop) : Interpreter → Prop
  | fresh : ReachedBy P {}
  | evaluated {i : Interpreter} {host : Host} {command : String} :
      ReachedBy P i → P i host command → ReachedBy P (i.eval host command).interpreter
  | closed {i : Interpreter} : ReachedBy P i → ReachedBy P i.close

section Invariants

variable {host : Host} {L : Task → State → Prop} {Q : Session → Prop}

/-- The run of a snippet keeps a property of sessions, if all that it comes by is of some kind. -/
def KeepsSession (host : Host) (L : Task → State → Prop) (Q : Session → Prop)
    (texts : List (List Char)) : Prop :=
  ∀ {i : Interpreter} {text : List Char} {snippet : Snippet} {p : Program.TopLevel},
    text ∈ texts → Q i.session → i.Accepts text snippet p →
    Throughout host L (.top p) i.start → Q (Machine.runTop snippet p host i.start).2.session

theorem evalFragment_keeps {i : Interpreter} {text : List Char} {texts : List (List Char)}
    (hkeeps : KeepsSession host L Q texts) (htext : text ∈ texts) (hi : Q i.session)
    (hL : ∀ {snippet p}, i.Accepts text snippet p → Throughout host L (.top p) i.start) :
    Q (i.evalFragment host text).interpreter.session := by
  rcases evalFragment_cases i text with ⟨snippet, p, ds, haccepts, heq⟩ | ⟨_, _, heq⟩ <;> rw [heq]
  · exact hkeeps (i := i) htext hi haccepts (hL haccepts)
  · exact hi

/-- What the runs keep holds whenever a program is launched. -/
theorem Launches.session {i j : Interpreter} {texts : List (List Char)} {p : Program.TopLevel}
    (hkeeps : KeepsSession host L Q texts) (hi : Q i.session)
    (hL : ∀ j p, Launches host i texts j p → Throughout host L (.top p) j.start)
    (hlaunches : Launches host i texts j p) : Q j.session := by
  induction hlaunches with
  | now _ _ => exact hi
  | later hgo hstopped _ ih =>
      refine ih (fun htext => hkeeps (List.mem_cons_of_mem _ htext)) ?_
        fun j p hlaunch => hL j p (.later hgo hstopped hlaunch)
      exact evalFragment_keeps hkeeps List.mem_cons_self hi fun haccepts =>
        hL _ _ (.now hgo haccepts)

theorem evalFragments_keeps_course {texts : List (List Char)} {done : Portion}
    (hkeeps : KeepsSession host L Q texts) (hdone : Q done.interpreter.session)
    (hL : ∀ j p, Launches host done.interpreter texts j p → Throughout host L (.top p) j.start) :
    Q (evalFragments host done texts).interpreter.session := by
  induction texts generalizing done with
  | nil => exact hdone
  | cons text texts ih =>
      simp only [evalFragments]
      split
      · exact hdone
      · rename_i hgo
        have hgo := Bool.eq_false_iff.mpr hgo
        have hnew := evalFragment_keeps (i := done.interpreter) hkeeps List.mem_cons_self hdone
          fun haccepts => hL _ _ (.now hgo haccepts)
        split
        · exact hnew
        · rename_i hstopped
          exact ih (fun htext => hkeeps (List.mem_cons_of_mem _ htext)) hnew fun j p hlaunch =>
            hL j p (.later hgo (Bool.eq_false_iff.mpr hstopped) hlaunch)

theorem throughout_of_comesBy {i : Interpreter} {command : String} (hopen : i.isClosed = false)
    (hL : ∀ task s, i.ComesBy host command task s → L task s) :
    ∀ j p, Launches host i (textsOf command) j p → Throughout host L (.top p) j.start :=
  fun j p hlaunch task s hvisits => hL task s ⟨hopen, j, p, hlaunch, hvisits⟩

/-- What the runs keep holds behind a command. -/
theorem eval_keeps_course {i : Interpreter} {command : String}
    (hkeeps : KeepsSession host L Q (textsOf command)) (hi : Q i.session)
    (hL : ∀ task s, i.ComesBy host command task s → L task s) :
    Q (i.eval host command).interpreter.session := by
  unfold eval
  split
  · exact hi
  · rename_i hopen
    exact evalFragments_keeps_course hkeeps hi
      (throughout_of_comesBy (Bool.eq_false_iff.mpr hopen) hL)

end Invariants

/-- What fresh sessions have and commands keep holds behind every history. -/
theorem ReachedBy.session {P : Interpreter → Host → String → Prop} {Q : Session → Prop}
    (hfresh : Q {})
    (heval : ∀ {i : Interpreter} {host : Host} {command : String}, Q i.session →
      P i host command → Q (i.eval host command).interpreter.session)
    {i : Interpreter} (hi : ReachedBy P i) : Q i.session := by
  induction hi with
  | fresh => exact hfresh
  | evaluated _ hP ih => exact heval ih hP
  | closed _ _ => exact hfresh

/-! ### Commands of one fragment -/

/-- A command of one fragment comes by what its program visits. -/
theorem visits_of_comesBy {i : Interpreter} {host : Host} {command : String} {text : List Char}
    {snippet : Snippet} {p : Program.TopLevel} {task : Task} {s : State}
    (htexts : textsOf command = [text]) (hi : i.Accepts text snippet p)
    (hcomes : i.ComesBy host command task s) : Visits host (.top p) i.start task s := by
  obtain ⟨-, j, q, hlaunches, hvisits⟩ := hcomes
  rw [htexts] at hlaunches
  obtain ⟨tree, hread, -, hresult⟩ := hi
  cases hlaunches with
  | now _ hj =>
      obtain ⟨tree', hread', -, hresult'⟩ := hj
      rw [hread] at hread'
      cases hread'
      rw [hresult] at hresult'
      cases hresult'
      exact hvisits
  | later _ _ hrest => cases hrest

/-- The program of a text, if it is accepted. -/
def programOf (i : Interpreter) (text : List Char) : Option Program.TopLevel :=
  (read text).toOption.bind fun tree => (Program.resolve i.session.names tree).result

theorem accepts_of_programOf {i : Interpreter} {text : List Char} {p : Program.TopLevel}
    (h : i.programOf text = some p) : ∃ snippet, i.Accepts text snippet p := by
  obtain ⟨tree, htree, hresult⟩ := Option.bind_eq_some_iff.mp h
  cases hread : read text with
  | error f =>
      rw [hread] at htree
      cases htree
  | ok tree' =>
      rw [hread] at htree
      cases htree
      exact ⟨_, tree, hread, rfl, hresult⟩

theorem Accepts.programOf_eq {i : Interpreter} {text : List Char} {snippet : Snippet}
    {p : Program.TopLevel} (h : i.Accepts text snippet p) : i.programOf text = some p := by
  obtain ⟨tree, hread, -, hresult⟩ := h
  rw [programOf, hread]
  exact hresult

/-- A single fragment comes to its end if its program does. -/
theorem endsInTime_singleton {i : Interpreter} {host : Host} {text : List Char}
    {p : Program.TopLevel} (hp : i.programOf text = some p)
    (hends : ∀ snippet, (Machine.runTop snippet p host i.start).1 ≠ .error .exhausted) :
    i.EndsInTime host [text] := by
  intro j q hlaunches
  cases hlaunches with
  | now _ haccepts =>
      cases hp.symm.trans haccepts.programOf_eq
      exact hends
  | later _ _ hrest => cases hrest

end Interpreter
end GuardedRepl
