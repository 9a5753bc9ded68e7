import GuardedRepl.Policy.Sandbox
import GuardedRepl.Proofs.Session.Resolution

/-!
# Capabilities

Inside the active sandbox a snippet comes by objects, streams and files only through accesses that
the filter allows.  This holds over whole sessions: what one command leaves behind is of no more use
to the next one than what that one could have got itself.

**Results.**
* `capabilities_confined`: what a filter denies stays out of reach, silent or hidden in every
  session.
-/

namespace GuardedRepl

open Library (HostClass)
open Machine (Barrier Effect Entry Host State)

namespace Filter

/-- The gate of the sandbox with a filter, while an action runs inside it. -/
def gate (f : Filter) (_ : Nat) (a : Access) : Option Denial :=
  ({ filter := f, active := true } : Sandbox).check a

/-- What a filter denies is refused whenever it is asked for. -/
def barrier (f : Filter) : Barrier :=
  fun a => f.check a ≠ .allow

theorem gate_bars {f : Filter} {n : Nat} {a : Access} (ha : f.barrier a) : f.gate n a ≠ none := by
  unfold gate Sandbox.check
  rw [if_pos rfl]
  cases hcheck : f.check a with
  | allow => exact absurd hcheck ha
  | deny reason => simp

end Filter

/-- A value of one of these classes is got through the class alone. -/
theorem Value.Permitted.not_cls {B : Barrier} {v : Value} (hv : v.Permitted B) {c : HostClass}
    (hc : c ∈ [HostClass.file, .path, .runtime]) (hB : B (.cls c.name)) : v.cls? ≠ some c := by
  intro hcls
  have hsource : v.source? = some c := by
    cases v <;> cases hcls <;> first | rfl | exact absurd hc (by decide)
  exact hv c hsource hB

namespace Interpreter

section Twins

variable {B : Barrier} {h g : Host}

/-- The effects of a part of a command, and the values of the session behind it, are confined. -/
structure Portion.Confined (B : Barrier) (part : Portion) : Prop where
  vars : ∀ {x}, x ∈ part.interpreter.session.vars → x.value.Permitted B
  silent : B.Mutes → ∀ {e}, e ∈ part.effects → ¬ e.effect.Writes

/-- Hosts that differ in hidden files only deal with a fragment in the same way. -/
theorem evalFragment_twins (hhosts : h.Twins B g) {i : Interpreter}
    (hi : ∀ {x}, x ∈ i.session.vars → x.value.Permitted B) (text : List Char) :
    i.evalFragment h text = i.evalFragment g text ∧ (i.evalFragment h text).Confined B := by
  rcases evalFragment_cases i text with ⟨snippet, p, ds, haccepts, heq⟩ | ⟨snippet, ds, heq⟩ <;>
    rw [heq, heq]
  · obtain ⟨tree, -, -, hp⟩ := haccepts
    have hscoped := Program.resolve_scoped hp
    obtain ⟨hsame, hsealed⟩ := (Machine.meets_runTop hhosts snippet hscoped).always (start_fits hi)
    exact ⟨run_congr hsame, hsealed.vars, hsealed.silent⟩
  · exact ⟨rfl, hi, fun _ {e} he => by cases he⟩

theorem evalFragments_twins (hhosts : h.Twins B g) (texts : List (List Char)) (done : Portion)
    (hdone : done.Confined B) :
    evalFragments h done texts = evalFragments g done texts ∧
      (evalFragments h done texts).Confined B := by
  induction texts generalizing done with
  | nil => exact ⟨rfl, hdone⟩
  | cons text texts ih =>
      obtain ⟨hsame, hnew⟩ := evalFragment_twins hhosts hdone.vars text
      have hboth : Portion.Confined B { done.interpreter.evalFragment h text with
          events := (done.interpreter.evalFragment h text).events ++ done.events
          effects := (done.interpreter.evalFragment h text).effects ++ done.effects } := by
        refine ⟨hnew.vars, fun hB e he => ?_⟩
        rcases List.mem_append.mp he with he | he
        · exact hnew.silent hB he
        · exact hdone.silent hB he
      -- Both hosts stop between the same two fragments.
      simp only [evalFragments, hhosts.stops, ← hsame]
      split
      · exact ⟨rfl, hdone⟩
      · split
        · exact ⟨rfl, hboth⟩
        · exact ih _ hboth

/-- Hosts that differ in hidden files only deal with a command in the same way.  The session that is
left has permitted values only, and nothing is written if the way to the streams is barred. -/
theorem eval_twins (hhosts : h.Twins B g) {i : Interpreter}
    (hi : ∀ {x}, x ∈ i.session.vars → x.value.Permitted B) (command : String) :
    i.eval h command = i.eval g command ∧
      (∀ {x}, x ∈ (i.eval h command).interpreter.session.vars → x.value.Permitted B) ∧
      (B.Mutes → ∀ {e}, e ∈ (i.eval h command).effects → ¬ e.Writes) := by
  unfold eval
  split
  · exact ⟨rfl, hi, fun _ {e} he => by cases he⟩
  · obtain ⟨hsame, hconfined⟩ := evalFragments_twins hhosts
      ((Source.fragments command.toList).map Source.Fragment.text) ⟨[], [], false, i⟩
      ⟨hi, fun _ {e} he => by cases he⟩
    simp only [← hsame]
    refine ⟨trivial, hconfined.vars, fun hB e he => ?_⟩
    obtain ⟨entry, hentry, rfl⟩ := List.mem_map.mp (List.mem_reverse.mp he)
    exact hconfined.silent hB hentry

end Twins

/-! ### Sessions inside the sandbox -/

/-- The outcomes of commands that are given one after the other, each under a host of its own. -/
def evalEach (i : Interpreter) : List (Host × String) → List Evaluation
  | [] => []
  | (host, command) :: rest =>
    let e := i.eval host command
    e :: evalEach e.interpreter rest

section Sandboxed

variable {f : Filter}

/-- The host of a sandboxed interpreter: its gate is that of the sandbox. -/
def Sandboxed (f : Filter) (h : Host) : Prop :=
  h.gate = f.gate

theorem Sandboxed.twins {h : Host} (hf : Sandboxed f h) : h.Twins f.barrier h :=
  .refl fun ha => by
    rw [hf]
    exact Filter.gate_bars ha

/-- Every session inside the sandbox holds permitted values only. -/
theorem Reachable.permitted {i : Interpreter} (hi : Reachable (Sandboxed f) i) :
    ∀ {x}, x ∈ i.session.vars → x.value.Permitted f.barrier := by
  refine hi.session (Q := fun s => ∀ {x}, x ∈ s.vars → x.value.Permitted f.barrier)
    (fun hx => by cases hx) fun {i host text snippet p} hvars hf haccepts => ?_
  obtain ⟨tree, -, -, hp⟩ := haccepts
  exact ((Machine.meets_runTop hf.twins snippet (Program.resolve_scoped hp)).always
    (start_fits hvars)).2.vars

/-- Files that nobody can look for make no difference to a session. -/
theorem evalEach_files (hf : f.barrier.HidesFiles) (steps : List (Host × Files.Tree × String))
    (hsteps : ∀ step ∈ steps, Sandboxed f step.1) {i : Interpreter}
    (hi : ∀ {x}, x ∈ i.session.vars → x.value.Permitted f.barrier) :
    i.evalEach (steps.map fun step => (step.1, step.2.2)) =
      i.evalEach (steps.map fun step => ({ step.1 with files := step.2.1 }, step.2.2)) := by
  induction steps generalizing i with
  | nil => rfl
  | cons step steps ih =>
      obtain ⟨h, files, command⟩ := step
      have hbox : Sandboxed f h := hsteps _ List.mem_cons_self
      have htwins : h.Twins f.barrier { h with files } :=
        ⟨rfl, rfl, rfl, rfl, rfl, Or.inl hf, hbox.twins.bars⟩
      obtain ⟨hsame, hvars, -⟩ := eval_twins htwins hi command
      simp only [List.map_cons, evalEach, ← hsame]
      rw [ih (fun step hstep => hsteps step (List.mem_cons_of_mem _ hstep)) hvars]

/-- **Capabilities come only through the policy.**  In every session inside the sandbox:
a class of objects that the filter denies has no objects, neither in a variable nor as the value of
an expression that is evaluated; nothing is written if the filter denies the class of the streams or
both methods that print; and if it denies both classes that look for files, the files make no
difference to the events, the effects and the diagnostics of any commands. -/
theorem capabilities_confined (f : Filter) :
    (∀ c ∈ [HostClass.file, .path, .runtime], f.check (.cls c.name) ≠ .allow →
      ∀ i, Reachable (Sandboxed f) i →
        (∀ x ∈ i.session.vars, x.value.cls? ≠ some c) ∧
        ∀ text snippet p h e s v t, i.Accepts text snippet p → Sandboxed f h →
          Machine.Visits h (.top p) i.start (.expr e) s → Machine.eval e h s = (.ok v, t) →
          v.cls? ≠ some c) ∧
    ((f.check (.cls HostClass.system.name) ≠ .allow ∨
        (f.check (.method HostClass.printStream.name "println") ≠ .allow ∧
          f.check (.method HostClass.printStream.name "print") ≠ .allow)) →
      ∀ i, Reachable (Sandboxed f) i → ∀ h command, Sandboxed f h → ∀ stream text,
        Effect.written stream text ∉ (i.eval h command).effects) ∧
    (f.check (.cls HostClass.file.name) ≠ .allow → f.check (.cls HostClass.files.name) ≠ .allow →
      ∀ steps : List (Host × Files.Tree × String), (∀ step ∈ steps, Sandboxed f step.1) →
        evalEach {} (steps.map fun step => (step.1, step.2.2)) =
          evalEach {} (steps.map fun step => ({ step.1 with files := step.2.1 }, step.2.2))) := by
  refine ⟨fun c hc hdenied i hi => ⟨fun x hx => ?_, ?_⟩, ?_, fun hfile hfiles steps hsteps => ?_⟩
  · exact (hi.permitted hx).not_cls hc hdenied
  · intro text snippet p h e s v t haccepts hbox hvisits hv
    obtain ⟨tree, -, -, hp⟩ := haccepts
    exact (hvisits.permitted hbox.twins (Program.resolve_scoped hp) (start_fits hi.permitted)
      hv).not_cls hc hdenied
  · intro hdenied i hi h command hbox stream text hmem
    exact (eval_twins hbox.twins hi.permitted command).2.2 hdenied hmem trivial
  · exact evalEach_files ⟨hfile, hfiles⟩ steps hsteps fun hx => by cases hx

/-- A filter that denies files and both methods that print, and a session that tries them. -/
theorem capabilities_confined_closed :
    let f : Filter := { packages := ["java.nio.file"], classes := ["java.io.File"],
                        methods := [⟨"java.io.PrintStream", "println"⟩,
                          ⟨"java.io.PrintStream", "print"⟩] }
    let h : Host := { Host.bare with gate := f.gate }
    let i := (eval {} h "var o = new java.io.File(\"a\"); var s = System.out;").interpreter
    f.check (.cls HostClass.file.name) ≠ .allow ∧ f.check (.cls HostClass.files.name) ≠ .allow ∧
      (∀ x ∈ i.session.vars, x.value.cls? ≠ some .file) ∧
      (∀ stream text, Effect.written stream text ∉ (i.eval h "s.println(1);").effects) ∧
      ∀ files, evalEach {} [(h, "java.nio.file.Files.exists(java.nio.file.Path.of(\"a\"))")] =
        evalEach {} [({ h with files },
          "java.nio.file.Files.exists(java.nio.file.Path.of(\"a\"))")] := by
  intro f h i
  have hfile : f.check (.cls HostClass.file.name) ≠ .allow := by decide +kernel
  have hfiles : f.check (.cls HostClass.files.name) ≠ .allow := by decide +kernel
  have hprint : f.check (.method HostClass.printStream.name "println") ≠ .allow ∧
      f.check (.method HostClass.printStream.name "print") ≠ .allow := by decide +kernel
  have hbox : Sandboxed f h := rfl
  have hi : Reachable (Sandboxed f) i := .evaluated _ .fresh hbox
  obtain ⟨hobjects, hsilent, hsame⟩ := capabilities_confined f
  refine ⟨hfile, hfiles, ?_, ?_, fun files => ?_⟩
  · exact (hobjects .file (by decide) hfile i hi).1
  · exact hsilent (Or.inr hprint) i hi h _ hbox
  · refine hsame hfile hfiles [(h, files, _)] fun step hstep => ?_
    rw [List.mem_singleton.mp hstep]
    exact hbox

end Sandboxed

end Interpreter
end GuardedRepl
