import Mathlib
import GuardedRepl.Proofs.Session.Course
import GuardedRepl.Proofs.Session.History
import GuardedRepl.Proofs.Source.Joining

/-!
# Batches

Two commands can be given as one, with a semicolon between them, if the first one leaves no bracket,
literal or comment open.  What happens is what happens when they are given one after the other.

**Results.**
* `evalFragments_after`: fragments go on from what was done before in the same way.
* `endsInTime_cons`: a command ends in time if each of its fragments does.
* `evalFragments_append`: fragments that all come to their end, and more of them.
* `batching`: one command for two.
-/

namespace GuardedRepl
namespace Interpreter

open Machine (Host Entry)

/-! ### Runs that come to their end -/

/-- A host that never says to stop stops no run. -/
theorem runTop_ne_stopped {host : Host} (hnever : ∀ p, host.stops p = false) (snippet : Snippet)
    (p : Program.TopLevel) (s : Machine.State) :
    (Machine.runTop snippet p host s).1 ≠ .error .stopped := by
  intro hstopped
  have hend := (Machine.assembled_runTop snippet p).ended host s
  generalize Machine.runTop snippet p host s = r at hstopped hend
  cases hend with
  | passed _ hne => exact hne hstopped
  | cutOff hcut =>
      cases hcut with
      | stopped _ hstop _ _ _ _ =>
          rw [hnever] at hstop
          cases hstop
      | denied | exhausted => cases hstopped

/-- A fragment whose program has fuel enough comes to its end. -/
theorem evalFragment_goesOn {host : Host} (hnever : ∀ p, host.stops p = false) {i : Interpreter}
    {text : List Char} (hends : ∀ {snippet p}, i.Accepts text snippet p →
      (Machine.runTop snippet p host i.start).1 ≠ .error .exhausted) :
    (i.evalFragment host text).isStopped = false := by
  rcases evalFragment_cases i text with ⟨snippet, p, ds, haccepts, heq⟩ | ⟨snippet, ds, heq⟩ <;>
    rw [heq]
  exact run_goesOn (runTop_ne_stopped hnever snippet p _) (hends haccepts)

/-! ### Fragments -/

theorem Portion.after_after (p q r : Portion) : (p.after q).after r = p.after (q.after r) := by
  simp only [after, List.append_assoc]

/-- Fragments go on in the same way whatever was done before them. -/
theorem evalFragments_after (host : Host) (texts : List (List Char)) (new done : Portion) :
    evalFragments host (new.after done) texts = (evalFragments host new texts).after done := by
  induction texts generalizing new with
  | nil => rfl
  | cons text texts ih =>
      have hinterpreter : (new.after done).interpreter = new.interpreter := rfl
      rw [evalFragments_cons, evalFragments_cons, hinterpreter, ← Portion.after_after]
      split
      · rfl
      · split
        · rfl
        · exact ih _

/-- Behind a fragment that comes to its end the next ones are evaluated. -/
theorem evalFragments_cons_goesOn {host : Host} {done : Portion} {text : List Char}
    (hstops : host.stops done.interpreter.progress = false)
    (hgo : (done.interpreter.evalFragment host text).isStopped = false)
    (texts : List (List Char)) : evalFragments host done (text :: texts) =
      evalFragments host ((done.interpreter.evalFragment host text).after done) texts := by
  rw [evalFragments_cons, hstops, hgo, if_neg Bool.false_ne_true, if_neg Bool.false_ne_true]

/-- Behind a fragment that comes to its end, the programs in time are those of the next ones. -/
theorem endsInTime_cons {host : Host} {i : Interpreter} {text : List Char}
    {texts : List (List Char)} (hstops : host.stops i.progress = false)
    (hgo : (i.evalFragment host text).isStopped = false)
    (hends : ∀ {snippet p}, i.Accepts text snippet p → ∀ snippet',
      (Machine.runTop snippet' p host i.start).1 ≠ .error .exhausted) :
    i.EndsInTime host (text :: texts) ↔
      (i.evalFragment host text).interpreter.EndsInTime host texts := by
  refine ⟨fun h j p hlaunches => h (.later hstops hgo hlaunches), fun h j p hlaunches => ?_⟩
  cases hlaunches with
  | now _ haccepts => exact hends haccepts
  | later _ _ hlaunches => exact h hlaunches

/-- Fragments that all come to their end, and more of them. -/
theorem evalFragments_append {host : Host} (hnever : ∀ p, host.stops p = false)
    {texts : List (List Char)} {done : Portion} (hdone : done.isStopped = false)
    (hends : done.interpreter.EndsInTime host texts) (more : List (List Char)) :
    (evalFragments host done texts).isStopped = false ∧
      evalFragments host done (texts ++ more) =
        evalFragments host (evalFragments host done texts) more ∧
      (done.interpreter.EndsInTime host (texts ++ more) ↔
        (evalFragments host done texts).interpreter.EndsInTime host more) := by
  induction texts generalizing done with
  | nil => exact ⟨hdone, rfl, Iff.rfl⟩
  | cons text texts ih =>
      have hstops := hnever done.interpreter.progress
      have hfirst {snippet p} (haccepts : done.interpreter.Accepts text snippet p) :=
        hends (.now hstops haccepts)
      have hgo := evalFragment_goesOn hnever fun haccepts => hfirst haccepts _
      rw [List.cons_append, evalFragments_cons_goesOn hstops hgo,
        evalFragments_cons_goesOn hstops hgo, endsInTime_cons hstops hgo hfirst]
      exact ih hgo fun hlaunches => hends (.later hstops hgo hlaunches)

/-! ### Commands -/

theorem textsOf_join {a : String} (ha : Source.IsNeutral a.toList) (b : String) :
    textsOf (a ++ ";" ++ b) = textsOf a ++ textsOf b := by
  have htext : (a ++ ";" ++ b).toList = a.toList ++ ';' :: b.toList := by
    simp [String.toList_append]
  rw [textsOf, htext, Source.texts_join ha]
  rfl

/-- **Batches.**  Where the scan of a command ends outside literals and comments with every bracket
closed, and all its programs come to their end, a semicolon and another command can follow.  The
events are those of both, one after the other, the host is asked and written to as by both, and the
interpreter is left as by both. -/
theorem batching {i : Interpreter} (hopen : i.isClosed = false) {host : Host}
    (hnever : ∀ p, host.stops p = false) {a b : String} (ha : Source.IsNeutral a.toList)
    (hends : i.EndsInTime host (textsOf a)) :
    let first := i.eval host a
    let second := first.interpreter.eval host b
    let both := i.eval host (a ++ ";" ++ b)
    both.events = first.events ++ second.events ∧
      both.effects = first.effects ++ second.effects ∧
      both.interpreter = second.interpreter ∧
      (i.EndsInTime host (textsOf (a ++ ";" ++ b)) ↔
        first.interpreter.EndsInTime host (textsOf b)) := by
  intro first second both
  have hstart : (⟨[], [], false, i⟩ : Portion).isStopped = false := rfl
  obtain ⟨hgo, happend, htime⟩ := evalFragments_append hnever hstart hends (textsOf b)
  have hfirst := eval_eq hopen host a
  simp only at hfirst
  generalize evalFragments host ⟨[], [], false, i⟩ (textsOf a) = done at hgo happend htime hfirst
  -- The second command goes on from what the first one has done.
  have hboth : evalFragments host ⟨[], [], false, i⟩ (textsOf (a ++ ";" ++ b)) =
      (evalFragments host ⟨[], [], false, done.interpreter⟩ (textsOf b)).after done := by
    have hdone : (⟨[], [], false, done.interpreter⟩ : Portion).after done = done := by
      rw [← hgo]
      rfl
    rw [textsOf_join ha, happend, ← evalFragments_after, hdone]
  have hinterpreter : first.interpreter = done.interpreter := congrArg Evaluation.interpreter hfirst
  have hopen' : done.interpreter.isClosed = false :=
    hinterpreter ▸ eval_keeps (Q := fun j => j.isClosed = false)
      (fun j text hj => (evalFragment_isClosed j host text).trans hj) i a hopen
  have hsecond : second = done.interpreter.eval host b := congrArg (·.eval host b) hinterpreter
  rw [eval_eq hopen'] at hsecond
  have hall : both = _ := eval_eq hopen host (a ++ ";" ++ b)
  simp only [hboth] at hall
  rw [← textsOf_join ha] at htime
  rw [hall, hsecond, show first = _ from hfirst]
  refine ⟨List.reverse_append, ?_, rfl, htime⟩
  simp only [Portion.after, List.map_append, List.reverse_append]

/-- A variable that is declared again: the event of the first snippet comes with the second one. -/
theorem batching_redeclared :
    let first := eval {} Host.bare "int x = 1"
    let second := first.interpreter.eval Host.bare "int x = 2; x"
    let both := eval {} Host.bare ("int x = 1" ++ ";" ++ "int x = 2; x")
    Source.IsNeutral "int x = 1".toList ∧ EndsInTime {} Host.bare (textsOf "int x = 1") ∧
      both.events.length = 4 ∧ both.events = first.events ++ second.events ∧
      both.effects = first.effects ++ second.effects ∧ both.interpreter = second.interpreter := by
  intro first second both
  have hneutral : Source.IsNeutral "int x = 1".toList := by decide +kernel
  have htexts : textsOf "int x = 1" = ["int x = 1".toList] := by decide +kernel
  have hends : EndsInTime {} Host.bare (textsOf "int x = 1") := by
    rw [htexts]
    exact endsInTime_singleton (p := .declare ⟨.primitive .int, "x", some (.int 1)⟩) (by cbv)
      fun snippet h => by cases h
  obtain ⟨hevents, heffects, hinterpreter, -⟩ :=
    batching (i := {}) rfl (fun _ => rfl) (b := "int x = 2; x") hneutral hends
  exact ⟨hneutral, hends, by decide +kernel, hevents, heffects, hinterpreter⟩

end Interpreter
end GuardedRepl
