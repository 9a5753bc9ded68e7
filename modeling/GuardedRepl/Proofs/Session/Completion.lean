import GuardedRepl.Proofs.Session.Cancellation
import GuardedRepl.Proofs.Session.Course
import GuardedRepl.Proofs.Session.History

/-!
# Commands that come to their end

A command is left unfinished only if the host says to stop, and then nothing comes after that
answer.  So it is enough to look at the host at the end of a command: if it does not say to stop
there, it has not said so in between, and every fragment has been evaluated.

**Results.**
* `stops_of_stopped`: a run that is stopped ends at the stage at which the host said so.
* `not_exhausted`, `endsInTime_of_stops`: a host that says to stop in time spares the fuel.
* `evalFragments_completes`: where the host does not say to stop, every fragment is evaluated.
* `Completes.tellsOfStop`, `Completes.unstopped`: none of them was stopped, and the signal to stop
  has made no difference.
-/

namespace GuardedRepl

/-- Whether an event tells that the host stopped its snippet. -/
def Event.tellsOfStop (e : Event) : Bool :=
  e.exception.any fun t => t.cls = "Stopped"

/-- No cause for which a snippet breaks off by itself is reported as a stop. -/
theorem Exception.thrown_cls_ne (e : Exception) : e.thrown.cls ≠ "Stopped" := by
  cases e <;> simp [thrown, security, nullPointer, classCast, illegalArgument, index]

namespace Machine

section Runs

variable {α : Type} {R : State → State → Prop} {x : Run α} {h : Host} {s : State}

/-- A run that is stopped ends at the stage at which the host said so. -/
theorem stops_of_stopped (hx : Run.Assembled R x) (hstopped : (x h s).1 = .error .stopped) :
    h.stops (x h s).2.progress = true := by
  have hend := hx.ended h s
  generalize x h s = r at hstopped hend
  cases hend with
  | passed _ hne => exact absurd hstopped hne
  | cutOff hcut =>
      cases hcut with
      | stopped _ hstop _ _ _ _ => exact hstop
      | denied | exhausted => cases hstopped

/-- A run that is not stopped goes as under a host that never says to stop. -/
theorem eq_unstopped (hx : Run.Assembled R x) (hgo : (x h s).1 ≠ .error .stopped) :
    x h s = x h.unstopped s := by
  have hlax : h.Laxer h.unstopped := ⟨⟨rfl, rfl, rfl⟩, id, nofun, Nat.le_refl _⟩
  rcases hx.lockstep hlax s with heq | ⟨hcut, -⟩
  · exact heq
  · generalize x h s = r at hgo hcut
    cases hcut with
    | denied _ hh hg _ _ _ => exact absurd (hh.symm.trans hg) (by simp)
    | exhausted _ hlt => exact absurd hlt (Nat.lt_irrefl _)
    | stopped => exact absurd rfl hgo

/-- The fuel lasts if the host says to stop before it is used up. -/
theorem not_exhausted (hx : Run.Assembled R x) (hfuel : 0 < h.fuel)
    (hstops : ∀ p : Progress, s.progress.polls + h.fuel ≤ p.polls → h.stops p = true) :
    (x h s).1 ≠ .error .exhausted := by
  intro hexhausted
  have hfull := hx.exhausted s hexhausted
  have hend := hx.ended h s
  -- The last question of so many would have been answered against the run.
  have hless {t : State} (hp : Passed h s t) : ¬ s.progress.polls + h.fuel ≤ t.progress.polls := by
    intro hle
    rcases hp.patient with heq | ⟨p, heq, hgo⟩
    · omega
    · rw [hstops p (heq ▸ hle)] at hgo
      cases hgo
  generalize x h s = r at hexhausted hfull hend
  cases hend with
  | passed hp _ => exact hless hp hfull
  | cutOff hcut =>
      cases hcut with
      | exhausted hp _ => exact hless hp hfull
      | denied | stopped => cases hexhausted

end Runs

end Machine

namespace Interpreter

open Machine (Host)

/-! ### Fragments -/

section Fragment

variable {i : Interpreter} {host : Host} {text : List Char}

theorem run_ends {snippet : Snippet} {p : Program.TopLevel}
    (hgo : (i.run host snippet p).isStopped = false) :
    (Machine.runTop snippet p host i.start).1 ≠ .error .stopped ∧
      (Machine.runTop snippet p host i.start).1 ≠ .error .exhausted := by
  refine ⟨fun hstopped => ?_, fun hexhausted => ?_⟩
  · rw [run_isStopped hstopped] at hgo
    cases hgo
  · rcases hrun : Machine.runTop snippet p host i.start with ⟨outcome, s⟩
    rw [hrun] at hexhausted
    unfold start at hrun
    simp only at hexhausted
    simp [run, hrun, hexhausted] at hgo

/-- A fragment that is stopped ends at the stage at which the host said so. -/
theorem stops_of_isStopped (hends : ∀ {snippet p}, i.Accepts text snippet p →
      (Machine.runTop snippet p host i.start).1 ≠ .error .exhausted)
    (hstopped : (i.evalFragment host text).isStopped = true) :
    host.stops (i.evalFragment host text).interpreter.progress = true := by
  rcases evalFragment_cases i text with ⟨snippet, p, ds, haccepts, heq⟩ | ⟨snippet, ds, heq⟩ <;>
    rw [heq] at hstopped ⊢
  · have hrun : (Machine.runTop snippet p host (i.issue ds).start).1 = .error .stopped := by
      by_contra hne
      rw [run_goesOn hne (hends haccepts)] at hstopped
      cases hstopped
    exact Machine.stops_of_stopped (Machine.assembled_runTop snippet p) hrun
  · cases hstopped

/-- A fragment that is not stopped tells of no stop. -/
theorem evalFragment_tellsOfStop (hgo : (i.evalFragment host text).isStopped = false) :
    ∀ e ∈ (i.evalFragment host text).events, e.tellsOfStop = false := by
  rcases evalFragment_cases i text with ⟨snippet, p, ds, -, heq⟩ | ⟨snippet, ds, heq⟩ <;>
    rw [heq] at hgo ⊢
  · obtain ⟨hstopped, hexhausted⟩ := run_ends hgo
    obtain ⟨hevents, -⟩ := run_eq (i.issue ds) host snippet p
    rw [hevents]
    generalize (Machine.runTop snippet p host (i.issue ds).start).1 = outcome at hstopped hexhausted
    rcases outcome with (e | _ | name | _) | f
    · simp [eventsOf, thrownBy, Event.tellsOfStop, Event.failed, e.thrown_cls_ne]
    · exact absurd rfl hstopped
    · simp [eventsOf, thrownBy, Event.tellsOfStop, Event.failed]
    · exact absurd rfl hexhausted
    · rcases hdisplaced : f.displaced with _ | owner <;>
        simp [eventsOf, hdisplaced, Event.tellsOfStop, Event.valid, Event.overwritten]
  · simp [Event.tellsOfStop, Event.rejected]

/-- A fragment that is not stopped goes as under a host that never says to stop. -/
theorem evalFragment_unstopped (hgo : (i.evalFragment host text).isStopped = false) :
    i.evalFragment host.unstopped text = i.evalFragment host text := by
  rcases evalFragment_cases i text with ⟨snippet, p, ds, -, heq⟩ | ⟨snippet, ds, heq⟩
  · rw [heq] at hgo
    rw [heq, heq]
    exact (run_congr
      (Machine.eq_unstopped (Machine.assembled_runTop snippet p) (run_ends hgo).1)).symm
  · rw [heq, heq]

end Fragment

theorem evalFragment_polls_le (i : Interpreter) (host : Host) (text : List Char) :
    i.progress.polls ≤ (i.evalFragment host text).interpreter.progress.polls := by
  rcases evalFragment_cases i text with ⟨snippet, p, ds, -, heq⟩ | ⟨snippet, ds, heq⟩ <;> rw [heq]
  · exact (Machine.assembled_runTop snippet p).polls_le host (i.issue ds).start
  · exact Nat.le_refl _

theorem Launches.polls_le {i j : Interpreter} {host : Host} {texts : List (List Char)}
    {p : Program.TopLevel} (h : Launches host i texts j p) :
    i.progress.polls ≤ j.progress.polls := by
  induction h with
  | now _ _ => exact Nat.le_refl _
  | later _ _ _ ih => exact Nat.le_trans (evalFragment_polls_le _ _ _) ih

/-- Every program of a command ends in time under a host that says to stop in time. -/
theorem endsInTime_of_stops {i : Interpreter} {host : Host} (hfuel : 0 < host.fuel)
    (hstops : ∀ p : Machine.Progress, i.progress.polls + host.fuel ≤ p.polls →
      host.stops p = true) (texts : List (List Char)) : i.EndsInTime host texts := by
  intro j p hlaunches snippet
  refine Machine.not_exhausted (Machine.assembled_runTop snippet p) hfuel fun q hq => hstops q ?_
  exact Nat.le_trans (Nat.add_le_add_right hlaunches.polls_le _) hq

/-! ### Fragments in turn -/

/-- Fragments are evaluated one after another, and none of them is stopped. -/
inductive Completes (host : Host) : Portion → List (List Char) → Portion → Prop
  | nil {done : Portion} : Completes host done [] done
  | cons {done all : Portion} {text : List Char} {texts : List (List Char)} :
      host.stops done.interpreter.progress = false →
      (done.interpreter.evalFragment host text).isStopped = false →
      Completes host ((done.interpreter.evalFragment host text).after done) texts all →
      Completes host done (text :: texts) all

/-- If the host does not say to stop at the end, every fragment has been evaluated. -/
theorem evalFragments_completes {host : Host} {texts : List (List Char)} {done : Portion}
    (hends : done.interpreter.EndsInTime host texts)
    (hgo : host.stops (evalFragments host done texts).interpreter.progress = false) :
    Completes host done texts (evalFragments host done texts) := by
  induction texts generalizing done with
  | nil => exact .nil
  | cons text texts ih =>
      rw [evalFragments_cons] at hgo ⊢
      cases hstops : host.stops done.interpreter.progress with
      | true =>
          rw [if_pos hstops, hstops] at hgo
          cases hgo
      | false =>
          rw [hstops, if_neg Bool.false_ne_true] at hgo
          cases hstopped : (done.interpreter.evalFragment host text).isStopped with
          | true =>
              rw [if_pos hstopped] at hgo
              refine absurd hgo (Bool.not_eq_false _ ▸ stops_of_isStopped ?_ hstopped)
              exact fun haccepts => hends (.now hstops haccepts) _
          | false =>
              rw [hstopped, if_neg Bool.false_ne_true] at hgo
              rw [if_neg Bool.false_ne_true, if_neg Bool.false_ne_true]
              exact .cons hstops hstopped
                (ih (fun hlaunches => hends (.later hstops hstopped hlaunches)) hgo)

section Completes

variable {host : Host} {done all : Portion} {texts : List (List Char)}

theorem Completes.nextId (h : Completes host done texts all) :
    all.interpreter.nextId = done.interpreter.nextId + texts.length := by
  induction h with
  | nil => rfl
  | @cons done all text texts _ _ _ ih =>
      obtain ⟨_, _, -, -, -, hnext, -⟩ := evalFragment_own done.interpreter host text
      rw [ih, List.length_cons]
      simp only [Portion.after, hnext]
      omega

theorem Completes.tellsOfStop (h : Completes host done texts all)
    (hdone : ∀ e ∈ done.events, e.tellsOfStop = false) :
    ∀ e ∈ all.events, e.tellsOfStop = false := by
  induction h with
  | nil => exact hdone
  | cons _ hgo _ ih =>
      exact ih (List.forall_mem_append.mpr ⟨evalFragment_tellsOfStop hgo, hdone⟩)

theorem Completes.unstopped (h : Completes host done texts all) :
    evalFragments host.unstopped done texts = all := by
  induction h with
  | nil => rfl
  | cons _ hgo _ ih =>
      rw [evalFragments_cons, evalFragment_unstopped hgo, hgo, if_neg Bool.false_ne_true]
      exact ih

end Completes

end Interpreter
end GuardedRepl
