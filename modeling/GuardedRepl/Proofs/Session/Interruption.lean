import GuardedRepl.Proofs.Session.Cancellation
import GuardedRepl.Proofs.Session.Course
import GuardedRepl.Proofs.Session.History

/-!
# Interrupted commands

The signal to stop can come while the host looks into an access.  The snippet then goes on until it
asks whether to stop, or to its end if it asks no more; fragments behind it are left alone.  What
has happened up to there is what happens first when there is no signal.

**Results.**
* `cancelledAt_cases`: a run after the signal is the run without one, or stopped in its course.
* `evalFragments_cancelledAt`: the same of fragments in turn.
* `eval_counts`: the number of accesses that a command asks for.
* `interrupted_prefix`: an interrupted command yields a prefix, and nothing comes after it.
-/

namespace GuardedRepl

namespace Evaluation

/-- The accesses that a command asks for, the first one first. -/
def accesses (e : Evaluation) : List Access :=
  e.effects.filterMap Machine.Effect.access?

/-- What a command writes to a stream. -/
def output (e : Evaluation) (stream : Stream) : List Char :=
  e.effects.flatMap fun
    | .written s text => if s = stream then text.toList else []
    | .checked _ => []

end Evaluation

namespace Machine

/-- The same host, which says to stop from its answer to access number `n` on. -/
def Host.cancelledAt (h : Host) (n : Nat) : Host :=
  { h with stops := fun p => n ≤ p.checks }

theorem laxer_cancelledAt (h : Host) (n : Nat) : (h.cancelledAt n).Laxer h.unstopped where
  world := ⟨rfl, rfl, rfl⟩
  gate := id
  stops hp := nomatch hp
  fuel := Nat.le_refl _

/-- A run under a host that may be cancelled is the run under a host that is not, or it was stopped
after the access that the signal came with. -/
theorem cancelledAt_cases {α : Type} {R : State → State → Prop} {x : Run α}
    (hx : Run.Assembled R x) (h : Host) (n : Nat) (s : State) :
    x (h.cancelledAt n) s = x h.unstopped s ∨
      ((x (h.cancelledAt n) s).1 = .error .stopped ∧
        n ≤ (x (h.cancelledAt n) s).2.progress.checks ∧
        Later (x (h.cancelledAt n) s).2 (x h.unstopped s).2) := by
  rcases hx.lockstep (laxer_cancelledAt h n) s with heq | ⟨hcut, hlater⟩
  · exact Or.inl heq
  · right
    generalize x (h.cancelledAt n) s = r at hcut hlater ⊢
    cases hcut with
    | denied _ hh hg _ _ _ => exact absurd (hh.symm.trans hg) (by simp)
    | exhausted _ hlt => exact absurd hlt (Nat.lt_irrefl _)
    | stopped _ hstop _ _ _ _ => exact ⟨rfl, of_decide_eq_true hstop, hlater⟩

/-- The counter of accesses keeps up with the log. -/
theorem Ended.counts {α : Type} {h : Host} {s : State} {r : Except Interrupt α × State}
    (hr : Ended h s r) : ∃ new, r.2.effects = new ++ s.effects ∧
      r.2.progress.checks = s.progress.checks + (asked new).length := by
  cases hr with
  | passed hp _ =>
      obtain ⟨new, hnew, hchecks, -⟩ := hp.log
      exact ⟨new, hnew, hchecks⟩
  | cutOff hcut =>
      cases hcut with
      | denied hp _ _ _ hchecks heff =>
          obtain ⟨new, hnew, hbefore, -⟩ := hp.log
          refine ⟨_ :: new, by rw [heff, hnew]; rfl, ?_⟩
          rw [hchecks, hbefore, asked_checked, List.length_append]
          rfl
      | stopped hp _ _ _ hchecks heff =>
          obtain ⟨new, hnew, hbefore, -⟩ := hp.log
          exact ⟨new, heff.trans hnew, hchecks.trans hbefore⟩
      | exhausted hp _ =>
          obtain ⟨new, hnew, hchecks, -⟩ := hp.log
          exact ⟨new, hnew, hchecks⟩

end Machine

namespace Interpreter

open Machine

/-! ### Fragments -/

/-- The event of a snippet that was stopped. -/
def stoppedEvent (snippet : Snippet) : Event :=
  { snippet, status := .valid, value := none,
    exception := some ⟨"Stopped", "evaluation stopped by host"⟩ }

/-- A part of a command was interrupted after access number `n`, and `full` is how it would go on.
Events and effects stand last one first. -/
structure BreaksOff (n : Nat) (cut full : Portion) : Prop where
  cancelled : n ≤ cut.interpreter.progress.checks
  effects : cut.effects <:+ full.effects
  events : cut.events <:+ full.events ∨ ∃ before e after, full.events = after ++ e :: before ∧
    e.isOwn = true ∧ cut.events = stoppedEvent e.snippet :: before

/-- A fragment under a host that may be cancelled fares as it does under a host that is not, or it
was stopped in its course. -/
theorem evalFragment_cancelledAt (i : Interpreter) (h : Host) (n : Nat) (text : List Char) :
    i.evalFragment (h.cancelledAt n) text = i.evalFragment h.unstopped text ∨
      ((i.evalFragment (h.cancelledAt n) text).isStopped = true ∧
        n ≤ (i.evalFragment (h.cancelledAt n) text).interpreter.progress.checks ∧
        (i.evalFragment (h.cancelledAt n) text).effects <:+
          (i.evalFragment h.unstopped text).effects ∧
        ∃ e after, (i.evalFragment h.unstopped text).events = after ++ [e] ∧ e.isOwn = true ∧
          (i.evalFragment (h.cancelledAt n) text).events = [stoppedEvent e.snippet]) := by
  rcases evalFragment_cases i text with ⟨snippet, p, ds, -, heq⟩ | ⟨snippet, ds, heq⟩
  · rw [heq, heq]
    rcases cancelledAt_cases (assembled_runTop snippet p) h n (i.issue ds).start with
      hsame | ⟨hstopped, hchecks, hlater⟩
    · exact Or.inl (run_congr hsame)
    · obtain ⟨new, hlog, -⟩ := hlater.log
      obtain ⟨hevents, -⟩ := run_eq (i.issue ds) h.unstopped snippet p
      obtain ⟨e, hown, -, rfl, hall⟩ := eventsOf_eq snippet
        (runTop snippet p h.unstopped (i.issue ds).start).1
      rw [hall, List.reverse_cons] at hevents
      exact Or.inr ⟨run_isStopped hstopped, hchecks, ⟨new, hlog.symm⟩, e, _, hevents, hown,
        congrArg (fun outcome => (eventsOf e.snippet outcome).reverse) hstopped⟩
  · rw [heq, heq]
    exact Or.inl rfl

/-- Fragments add to what was done before them. -/
theorem evalFragments_extends (host : Host) (texts : List (List Char)) (done : Portion) :
    done.events <:+ (evalFragments host done texts).events ∧
      done.effects <:+ (evalFragments host done texts).effects := by
  induction texts generalizing done with
  | nil => exact ⟨List.suffix_rfl, List.suffix_rfl⟩
  | cons text texts ih =>
      rw [evalFragments_cons]
      split
      · exact ⟨List.suffix_rfl, List.suffix_rfl⟩
      · split
        · exact ⟨List.suffix_append _ _, List.suffix_append _ _⟩
        · obtain ⟨hevents, heffects⟩ := ih ((done.interpreter.evalFragment host text).after done)
          exact ⟨(List.suffix_append _ _).trans hevents, (List.suffix_append _ _).trans heffects⟩

/-- What a fragment has done is not undone by those behind it. -/
theorem evalFragments_cons_extends {host : Host} {done : Portion}
    (hgo : host.stops done.interpreter.progress = false) (text : List Char)
    (texts : List (List Char)) :
    (done.interpreter.evalFragment host text).events ++ done.events <:+
        (evalFragments host done (text :: texts)).events ∧
      (done.interpreter.evalFragment host text).effects ++ done.effects <:+
        (evalFragments host done (text :: texts)).effects := by
  rw [evalFragments_cons, hgo, if_neg Bool.false_ne_true]
  split
  · exact ⟨List.suffix_rfl, List.suffix_rfl⟩
  · exact evalFragments_extends host texts ((done.interpreter.evalFragment host text).after done)

/-- Fragments under a host that may be cancelled fare as they do under a host that is not, or they
were broken off. -/
theorem evalFragments_cancelledAt (h : Host) (n : Nat) (texts : List (List Char))
    (done : Portion) :
    evalFragments (h.cancelledAt n) done texts = evalFragments h.unstopped done texts ∨
      BreaksOff n (evalFragments (h.cancelledAt n) done texts)
        (evalFragments h.unstopped done texts) := by
  induction texts generalizing done with
  | nil => exact Or.inl rfl
  | cons text texts ih =>
      obtain ⟨hevents, heffects⟩ := evalFragments_extends h.unstopped (text :: texts) done
      by_cases hstop : n ≤ done.interpreter.progress.checks
      · -- The signal has come before this fragment.
        have hstops : (h.cancelledAt n).stops done.interpreter.progress = true :=
          decide_eq_true hstop
        rw [evalFragments_cons (h.cancelledAt n), if_pos hstops]
        exact Or.inr ⟨hstop, heffects, Or.inl hevents⟩
      · have hgo : (h.cancelledAt n).stops done.interpreter.progress = false :=
          decide_eq_false hstop
        rcases evalFragment_cancelledAt done.interpreter h n text with
          heq | ⟨hstopped, hchecks, hless, e, later, hall, hown, hcut⟩
        · rw [evalFragments_cons, evalFragments_cons, hgo, heq, if_neg Bool.false_ne_true,
            if_neg (show ¬ h.unstopped.stops _ = true from Bool.false_ne_true)]
          split
          · exact Or.inl rfl
          · exact ih _
        · -- The signal comes in the course of this fragment.
          obtain ⟨hevents, heffects⟩ :=
            evalFragments_cons_extends (show h.unstopped.stops _ = false from rfl) text texts
          obtain ⟨rest, hrest⟩ := hevents
          rw [hall, List.append_assoc, ← List.append_assoc] at hrest
          rw [evalFragments_cons (h.cancelledAt n), hgo, if_neg Bool.false_ne_true, if_pos hstopped]
          refine Or.inr ⟨hchecks, ?_, Or.inr ⟨done.events, e, _, hrest.symm, hown, ?_⟩⟩
          · exact (List.suffix_append_self_iff.mpr hless).trans heffects
          · exact congrArg (· ++ done.events) hcut

/-! ### Commands -/

/-- The counter of accesses keeps up with what a fragment does. -/
theorem evalFragment_counts (i : Interpreter) (host : Host) (text : List Char) :
    (i.evalFragment host text).interpreter.progress.checks =
      i.progress.checks + (asked (i.evalFragment host text).effects).length := by
  rcases evalFragment_cases i text with ⟨snippet, p, ds, -, heq⟩ | ⟨snippet, ds, heq⟩
  · obtain ⟨new, hnew, hchecks⟩ :=
      ((assembled_runTop snippet p).ended host (i.issue ds).start).counts
    obtain ⟨-, heffects, -, hprogress⟩ := run_eq (i.issue ds) host snippet p
    rw [heq, heffects, hprogress, hnew, hchecks]
    exact congrArg (fun log => i.progress.checks + (asked log).length) (List.append_nil new).symm
  · rw [heq]
    rfl

theorem evalFragments_counts (host : Host) (texts : List (List Char)) (done : Portion) {n : Nat}
    (hdone : done.interpreter.progress.checks = n + (asked done.effects).length) :
    (evalFragments host done texts).interpreter.progress.checks =
      n + (asked (evalFragments host done texts).effects).length := by
  induction texts generalizing done with
  | nil => exact hdone
  | cons text texts ih =>
      have hnew :
          ((done.interpreter.evalFragment host text).after done).interpreter.progress.checks =
            n + (asked ((done.interpreter.evalFragment host text).after done).effects).length := by
        rw [Portion.after, asked_append, List.length_append, ← Nat.add_assoc, ← hdone]
        exact evalFragment_counts done.interpreter host text
      rw [evalFragments_cons]
      split
      · exact hdone
      · split
        · exact hnew
        · exact ih _ hnew

theorem accesses_eval {i : Interpreter} (hopen : i.isClosed = false) (host : Host)
    (command : String) : (i.eval host command).accesses =
      asked (evalFragments host ⟨[], [], false, i⟩ (textsOf command)).effects := by
  rw [eval_eq hopen, Evaluation.accesses, asked, ← List.map_reverse, List.filterMap_map]
  rfl

/-- The counter of accesses grows by the number of those that a command asks for. -/
theorem eval_counts (i : Interpreter) (host : Host) (command : String) :
    (i.eval host command).interpreter.progress.checks =
      i.progress.checks + (i.eval host command).accesses.length := by
  cases hclosed : i.isClosed with
  | true => rw [eval_closed hclosed]; rfl
  | false =>
      rw [accesses_eval hclosed, eval_eq hclosed]
      exact evalFragments_counts host (textsOf command) ⟨[], [], false, i⟩ rfl

/-- An interpreter does nothing once the host says to stop. -/
theorem eval_of_stops {i : Interpreter} {host : Host} (hstop : host.stops i.progress = true)
    (command : String) : i.eval host command = ⟨[], [], i⟩ := by
  cases hclosed : i.isClosed with
  | true => exact eval_closed hclosed host command
  | false =>
      have hnone : evalFragments host ⟨[], [], false, i⟩ (textsOf command) =
          ⟨[], [], false, i⟩ := by
        cases textsOf command with
        | nil => rfl
        | cons text texts => rw [evalFragments_cons, if_pos hstop]
      rw [eval_eq hclosed, hnone]
      rfl

/-- What an interrupted command yields, and what it would yield otherwise. -/
structure Interrupted (cut full : Evaluation) : Prop where
  effects : cut.effects <+: full.effects
  accesses : cut.accesses <+: full.accesses
  output : ∀ stream, cut.output stream <+: full.output stream
  events : cut.events <+: full.events ∨ ∃ before e after, full.events = before ++ e :: after ∧
    e.isOwn = true ∧ cut.events = before ++ [stoppedEvent e.snippet]

theorem Interrupted.of_effects {cut full : Evaluation} (heffects : cut.effects <+: full.effects)
    (hevents : cut.events <+: full.events ∨ ∃ before e after,
      full.events = before ++ e :: after ∧ e.isOwn = true ∧
      cut.events = before ++ [stoppedEvent e.snippet]) : Interrupted cut full :=
  ⟨heffects, heffects.filterMap _, fun _ => heffects.flatMap _, hevents⟩

theorem Interrupted.refl (full : Evaluation) : Interrupted full full :=
  .of_effects List.prefix_rfl (Or.inl List.prefix_rfl)

/-- A command under a host that may be cancelled fares as it does under a host that is not, or it
was interrupted after the signal. -/
theorem eval_cancelledAt (i : Interpreter) (h : Host) (n : Nat) (command : String) :
    i.eval (h.cancelledAt n) command = i.eval h.unstopped command ∨
      (n ≤ (i.eval (h.cancelledAt n) command).interpreter.progress.checks ∧
        Interrupted (i.eval (h.cancelledAt n) command) (i.eval h.unstopped command)) := by
  cases hclosed : i.isClosed with
  | true => rw [eval_closed hclosed, eval_closed hclosed]; exact Or.inl rfl
  | false =>
      rw [eval_eq hclosed, eval_eq hclosed]
      rcases evalFragments_cancelledAt h n (textsOf command) ⟨[], [], false, i⟩ with heq | hbreaks
      · exact Or.inl (by rw [heq])
      · obtain ⟨hcancelled, heffects, hevents⟩ := hbreaks
        refine Or.inr ⟨hcancelled, .of_effects ?_ ?_⟩
        · exact List.reverse_prefix.mpr (heffects.map _)
        · rcases hevents with hsuffix | ⟨before, e, after, hfull, hown, hcut⟩
          · exact Or.inl (List.reverse_prefix.mpr hsuffix)
          · refine Or.inr ⟨before.reverse, e, after.reverse, ?_, hown, ?_⟩
            · simp only [hfull, List.reverse_append, List.reverse_cons, List.append_assoc,
                List.singleton_append]
            · simp only [hcut, List.reverse_cons]

/-- A program that is launched although the signal may come is launched without it, too. -/
theorem Launches.of_cancelledAt {h : Host} {n : Nat} {i j : Interpreter}
    {texts : List (List Char)} {p : Program.TopLevel}
    (hlaunches : Launches (h.cancelledAt n) i texts j p) : Launches h.unstopped i texts j p := by
  induction hlaunches with
  | now _ haccepts => exact .now rfl haccepts
  | @later i j text texts p _ hstopped _ ih =>
      rcases evalFragment_cancelledAt i h n text with heq | ⟨hcut, -⟩
      · rw [heq] at hstopped ih
        exact .later rfl hstopped ih
      · rw [hstopped] at hcut
        cases hcut

theorem EndsInTime.cancelledAt {i : Interpreter} {h : Host} {texts : List (List Char)}
    (hends : i.EndsInTime h.unstopped texts) (n : Nat) : i.EndsInTime (h.cancelledAt n) texts := by
  intro j p hlaunches snippet
  rcases cancelledAt_cases (assembled_runTop snippet p) h n j.start with heq | ⟨hstopped, -⟩
  · rw [heq]
    exact hends hlaunches.of_cancelledAt snippet
  · rw [hstopped]
    simp

/-- **Interrupted runs are prefixes.**  A command whose signal to stop comes with access number `k`
does what it does first without a signal: its accesses, its output and its events are those with
which the full run begins, but for the event of the snippet that was stopped.  If it asks for so
many accesses at all, the interpreter does nothing from then on; otherwise the signal does not
come. -/
theorem interrupted_prefix (i : Interpreter) (h : Host) (command : String) (k : Nat) :
    let cancelled (world : Host) := world.cancelledAt (i.progress.checks + k)
    let full := i.eval h.unstopped command
    let cut := i.eval (cancelled h) command
    Interrupted cut full ∧
      (k ≤ full.accesses.length → k ≤ cut.accesses.length) ∧
      (k ≤ cut.accesses.length → ∀ world later,
        cut.interpreter.eval (cancelled world) later = ⟨[], [], cut.interpreter⟩) ∧
      (cut.accesses.length < k → cut = full) ∧
      (i.EndsInTime h.unstopped (textsOf command) →
        i.EndsInTime (cancelled h) (textsOf command)) := by
  intro cancelled full cut
  have hcount : cut.interpreter.progress.checks = i.progress.checks + cut.accesses.length :=
    eval_counts i (cancelled h) command
  have hcases : cut = full ∨ (k ≤ cut.accesses.length ∧ Interrupted cut full) := by
    refine (eval_cancelledAt i h (i.progress.checks + k) command).imp_right fun hcut => ?_
    exact ⟨Nat.le_of_add_le_add_left (hcount ▸ hcut.1), hcut.2⟩
  refine ⟨?_, fun hk => ?_, fun hk world later => ?_, fun hk => ?_, fun hends => ?_⟩
  · rcases hcases with heq | ⟨-, hcut⟩
    · rw [heq]
      exact .refl full
    · exact hcut
  · rcases hcases with heq | ⟨hle, -⟩
    · rwa [heq]
    · exact hle
  · refine eval_of_stops (decide_eq_true ?_) later
    rw [hcount]
    exact Nat.add_le_add_left hk _
  · exact hcases.resolve_right fun hcut => absurd hcut.1 (Nat.not_le.mpr hk)
  · exact hends.cancelledAt _

/-- The signal comes with the third of six accesses, in the middle of the second snippet. -/
theorem interrupted_prefix_third :
    let command := "System.out.println(1); System.out.println(1 + Math.abs(2)); 3"
    let full := eval {} Host.bare.unstopped command
    let cut := eval {} (Host.bare.cancelledAt 3) command
    full.accesses.length = 6 ∧ cut.accesses.length = 3 ∧ full.events.length = 3 ∧
      cut.events.length = 2 ∧ Interrupted cut full ∧
      cut.interpreter.eval (Host.bare.cancelledAt 3) command = ⟨[], [], cut.interpreter⟩ := by
  intro command full cut
  have hcut : cut.accesses.length = 3 := by decide +kernel
  obtain ⟨hbegins, -, hnothing, -⟩ := interrupted_prefix {} .bare command 3
  exact ⟨by decide +kernel, hcut, by decide +kernel, by decide +kernel, hbegins,
    hnothing hcut.ge .bare command⟩

end Interpreter
end GuardedRepl
