import GuardedRepl.Proofs.Capture
import GuardedRepl.Proofs.Evaluator.LifeCycle
import GuardedRepl.Proofs.Session.Accounting
import GuardedRepl.Proofs.Watchdog
import GuardedRepl.Session.Engine

/-!
# Complete results

The signal to stop and the end of an evaluation race against each other.  But the signal is only
sent when the deadline has passed, and what an engine yields after that is thrown away.  So a result
that reaches the caller is one of an interpreter that was never told to stop.

How fast an engine is and when it notices the signal is left open: an engine drives an interpreter
if it does what the interpreter does under some host, and is told to stop at no stage that it
reaches by the deadline.

**Results.**
* `eval_ok`: an evaluation that succeeds is one of an engine that returned by the deadline.
* `Runs.held`: what an engine keeps of its states holds of the engine in use.
* `drives_engine`: the interpreter as an engine, which counts its stages to tell the time.
* `complete_results`: what a result tells the caller.
-/

namespace GuardedRepl

open Interpreter (textsOf outputOf)
open Machine (Host Progress)

namespace Evaluator

variable {σ : Type} {E : Engine σ}

/-! ## The engine in use -/

/-- An evaluation that succeeds is one of an engine that returned by the deadline. -/
theorem eval_ok {ev : Evaluator σ} {timestamp command : String} {s : σ} {result : EvalResult}
    (hphase : ev.phase = .ready) (hengine : ev.engine = some s)
    (hidle : ev.sandbox.active = false) (hok : (ev.eval E timestamp command).1 = .ok result) :
    ∃ s', ev.watchdog.InTime (work E ev s command).action (.returned result.events s') ∧
      result.output = (ev.capture.write (work E ev s command).output.get).drain.1 := by
  have hends := eval_ready (E := E) timestamp command hphase hengine hidle
  rw [hok] at hends
  cases hends with
  | returned hin => exact ⟨_, hin, rfl⟩

section Moves

variable {Q : σ → Prop} {sc : Scene σ} {w : Watchdog} {cap : Nat}

/-- What an engine keeps of its states, a move keeps of the engine in use. -/
theorem Played.held {m : Move} {r : Reply} {sc' : Scene σ} (hplayed : Played E cap sc m r sc')
    (hkeeps : ∀ {s gate deadline command t events s'}, Q s →
      (E.eval s gate deadline command).action.finish = some (t, .returned events s') → Q s')
    (h : ∀ s, sc.ev.engine = some s → Q s) : ∀ s, sc'.ev.engine = some s → Q s := by
  intro s hs
  cases hplayed with
  | evaluated _ hengine _ hends _ =>
      cases hends with
      | returned hin hheld =>
          obtain ⟨t, hfinish, -⟩ := hin
          obtain rfl := Option.some_inj.mp (hheld.symm.trans hs)
          exact hkeeps (h _ hengine) hfinish
      | panicked _ hgone => exact nomatch hgone.symm.trans hs
      | timedOut _ _ hgone => exact nomatch hgone.symm.trans hs
  | refused => exact h s hs
  | diagnosed _ hheld => exact h s (hheld ▸ hs)
  | undiagnosed => exact h s hs
  | closed _ hgone => exact nomatch hgone.symm.trans hs
  | left _ hgone => exact nomatch hgone.symm.trans hs
  | strayed _ hgone => exact nomatch hgone.symm.trans hs

/-- What an engine keeps of its states holds of the engine in use. -/
theorem Runs.held {start : Scene σ} {history : List (Move × Reply)}
    (hkeeps : ∀ {s gate deadline command t events s'}, Q s →
      (E.eval s gate deadline command).action.finish = some (t, .returned events s') → Q s')
    (hsound : Sound w cap False start) (hruns : Runs E start history sc)
    (hstart : ∀ s, start.ev.engine = some s → Q s) : ∀ s, sc.ev.engine = some s → Q s := by
  induction hruns with
  | start => exact hstart
  | move m hruns hm ih => exact ((hruns.sound hsound).played m hm).held hkeeps ih

end Moves

/-! ## Engines that drive an interpreter -/

/-- What an engine does about a command is what an interpreter does about it under a host.  The
engine reaches each stage at a time of its own. -/
structure Follows (view : σ → Interpreter) (i : Interpreter) (gate : Access → Option Denial)
    (deadline : Nat) (command : String) (work : Work σ) (host : Host) (time : Progress → Nat) :
    Prop where
  gate : ∀ n, host.gate n = gate
  /-- The signal to stop is sent after the deadline, and noticed at any time after that. -/
  late : ∀ p, host.stops p = true → deadline < time p
  endsInTime : i.EndsInTime host (textsOf command)
  /-- Unless it breaks down, the engine is done when the interpreter is, or later. -/
  finish : ∀ t events s', work.action.finish = some (t, .returned events s') →
    time (i.eval host command).interpreter.progress ≤ t ∧
      work.output.get = outputOf (i.eval host command).effects ∧
      events = (i.eval host command).events ∧ view s' = (i.eval host command).interpreter

/-- An engine each of whose states stands for one of an interpreter, and which does what the
interpreter does. -/
def Drives (view : σ → Interpreter) (E : Engine σ) : Prop :=
  ∀ s gate deadline command, ∃ host time,
    Follows view (view s) gate deadline command (E.eval s gate deadline command) host time

/-- The interpreter as an engine drives itself: a millisecond passes with every so many stages. -/
theorem drives_engine (w : Surroundings) : Drives id (Interpreter.engine w) := by
  intro i gate deadline command
  refine ⟨Interpreter.hostUntil w i gate deadline, Interpreter.elapsed i.progress, fun _ => rfl,
    fun p hp => of_decide_eq_true hp, ?_, fun t events s' hfinish => ?_⟩
  · refine Interpreter.endsInTime_of_stops (Nat.mul_pos (by omega) (by decide)) (fun p hp => ?_) _
    refine decide_eq_true ?_
    have hpolls : (deadline + 2) * Interpreter.pollsPerMs ≤ p.polls - i.progress.polls := by
      have hmany : i.progress.polls + (deadline + 2) * Interpreter.pollsPerMs ≤ p.polls := hp
      omega
    have hms := (Nat.le_div_iff_mul_le (by decide : 0 < Interpreter.pollsPerMs)).mpr hpolls
    unfold Interpreter.elapsed
    omega
  · simp only [Interpreter.engine, Interpreter.work] at hfinish ⊢
    split at hfinish
    · cases hfinish
      exact ⟨Nat.le_refl _, rfl, rfl, rfl⟩
    · cases hfinish

/-! ## What a result tells the caller -/

/-- The text that effects put into the streams, in the order in which they do. -/
def printed (effects : List Machine.Effect) : List Char :=
  effects.flatMap fun
    | .written _ text => text.toList
    | .checked _ => []

theorem encode_printed (effects : List Machine.Effect) :
    Text.Utf8.encode (printed effects) = outputOf effects := by
  induction effects with
  | nil => rfl
  | cons effect effects ih =>
      cases effect with
      | checked a => exact ih
      | written stream text =>
          exact (Text.Utf8.encode_append text.toList (printed effects)).trans
            (congrArg (Text.Utf8.encode text.toList ++ ·) ih)

/-- A result tells of a whole command: of all that an interpreter makes of it to which nobody ever
says to stop. -/
structure Complete (i : Interpreter) (host : Host) (cap : Nat) (command : String)
    (result : EvalResult) : Prop where
  events : result.events = (i.eval host command).events
  unstopped : i.eval host.unstopped command = i.eval host command
  tellsOfStop : ∀ e ∈ result.events, e.tellsOfStop = false
  /-- Every fragment has an event of its own, in the order of the fragments. -/
  sources : (result.events.filter Event.isOwn).map (·.snippet.source) =
    (textsOf command).map String.ofList
  /-- The output is what an empty capture makes of what this command prints. -/
  output : result.output =
    ((Capture.empty cap).write (outputOf (i.eval host command).effects)).drain.1
  /-- It is all of it if that fits. -/
  whole : Text.Utf8.size (printed (i.eval host command).effects) ≤ cap →
    result.output = String.ofList (printed (i.eval host command).effects)

/-- What an empty capture makes of a text that fits. -/
theorem drain_write_encode {cap : Nat} {cs : List Char} (hle : Text.Utf8.size cs ≤ cap) :
    ((Capture.empty cap).write (Text.Utf8.encode cs)).drain.1 = String.ofList cs := by
  have hholds : ((Capture.empty cap).write (Text.Utf8.encode cs)).Holds cap (Text.Utf8.encode cs) :=
    (Capture.holds_empty cap).receive _
  exact congrArg String.ofList (hholds.text_of_le (by rwa [Text.Utf8.length_encode]))

/-- A command at the end of which the host does not say to stop has gone as if it never did, and
every fragment has been evaluated. -/
theorem complete_of_not_stops {i : Interpreter} {host : Host} {cap : Nat} {command : String}
    {result : EvalResult} (hi : i.OwnersNumbered) (hopen : i.isClosed = false)
    (hends : i.EndsInTime host (textsOf command))
    (hgo : host.stops (i.eval host command).interpreter.progress = false)
    (hevents : result.events = (i.eval host command).events)
    (houtput : result.output =
      ((Capture.empty cap).write (outputOf (i.eval host command).effects)).drain.1) :
    Complete i host cap command result := by
  have heval := Interpreter.eval_eq hopen host command
  have hcompletes : Interpreter.Completes host ⟨[], [], false, i⟩ (textsOf command) _ :=
    Interpreter.evalFragments_completes hends (by rwa [heval] at hgo)
  refine ⟨hevents, ?_, ?_, ?_, houtput, fun hle => ?_⟩
  · rw [Interpreter.eval_eq hopen, hcompletes.unstopped, heval]
  · intro e he
    rw [hevents, heval] at he
    exact hcompletes.tellsOfStop (List.forall_mem_nil _) e (List.mem_reverse.mp he)
  · rw [hevents, (Interpreter.accounted hi host command).complete hopen hgo hends]
  · rw [houtput, ← encode_printed, drain_write_encode hle]

section Results

variable {view : σ → Interpreter} {c : Config} {s : σ} {audited : Bool} {start : Evaluator σ}
  {history : List (Move × Reply)} {sc : Scene σ}

theorem engine_of_build (hbuild : build c (.ok s) audited = .ok start) : start.engine = some s := by
  unfold build at hbuild
  split at hbuild <;> cases hbuild
  rfl

/-- The interpreter behind the engine in use is open, and commands have led to it. -/
theorem Drives.reached (hdrives : Drives view E) (hfresh : view s = {})
    (hbuild : build c (.ok s) audited = .ok start) (hruns : Runs E ⟨start, false⟩ history sc)
    {s' : σ} (hengine : sc.ev.engine = some s') :
    (view s').isClosed = false ∧ ∃ before, Interpreter.History (view s') before := by
  refine hruns.held (Q := fun s => (view s).isClosed = false ∧
    ∃ before, Interpreter.History (view s) before) ?_ (build_sound hbuild) ?_ s' hengine
  · rintro s gate deadline command t events s' ⟨hopen, before, hbefore⟩ hfinish
    obtain ⟨host, time, hfollows⟩ := hdrives s gate deadline command
    obtain ⟨-, -, -, hview⟩ := hfollows.finish _ _ _ hfinish
    rw [hview]
    exact ⟨(Interpreter.eval_isClosed _ _ _).trans hopen, _, .evaluated host command hbefore⟩
  · intro s₀ hs₀
    obtain rfl : s = s₀ := Option.some_inj.mp ((engine_of_build hbuild).symm.trans hs₀)
    rw [hfresh]
    exact ⟨rfl, [], .fresh⟩

/-- **Complete results.**  Whatever the configuration, whatever has been asked of an evaluator before
and whenever its deadline falls: if an evaluation succeeds, its result tells of the whole command
and of nothing else. -/
theorem complete_results (hdrives : Drives view E) (hfresh : view s = {})
    (hbuild : build c (.ok s) audited = .ok start) (hruns : Runs E ⟨start, false⟩ history sc)
    {timestamp command : String} {result : EvalResult}
    (hok : (sc.ev.eval E timestamp command).1 = .ok result) :
    ∃ s' before host, sc.ev.engine = some s' ∧ Interpreter.History (view s') before ∧
      (view s').isClosed = false ∧
      (∀ n, host.gate n = { sc.ev.sandbox with active := true }.check) ∧
      Complete (view s') host c.maxBytes command result := by
  have hsound := hruns.sound (build_sound hbuild)
  have hready : sc.ev.phase = .ready := by
    by_contra hphase
    obtain ⟨e, -, heval⟩ := eval_not_ready E timestamp command hphase
    rw [heval] at hok
    cases hok
  obtain ⟨s', hengine⟩ := hsound.engine_eq_some hready
  obtain ⟨hopen, before, hbefore⟩ := hdrives.reached hfresh hbuild hruns hengine
  obtain ⟨_, ⟨t, hfinish, hle⟩, houtput⟩ := eval_ok hready hengine (hsound.idle hready) hok
  obtain ⟨host, time, hfollows⟩ := hdrives s' { sc.ev.sandbox with active := true }.check
    sc.ev.watchdog.deadline command
  obtain ⟨hdone, hwritten, hevents, -⟩ := hfollows.finish _ _ _ hfinish
  -- A signal at the last stage would have come after the deadline, and so would the end.
  have hgo : host.stops ((view s').eval host command).interpreter.progress = false := by
    by_contra hstops
    have hlate := hfollows.late _ (Bool.not_eq_false _ ▸ hstops)
    omega
  rw [hsound.clean hready, work, hwritten] at houtput
  exact ⟨s', before, host, hengine, hbefore, hopen, hfollows.gate,
    complete_of_not_stops hbefore.ownersNumbered hopen hfollows.endsInTime hgo hevents houtput⟩

/-- A command that prints, and then one that prints and throws; the time runs out for none of
them. -/
theorem complete_results_second :
    let E := Interpreter.engine ⟨id, 1, ⟨[], [], []⟩⟩
    let result : EvalResult :=
      ⟨[.valid ⟨2, .expression, "System.out.println(2)"⟩ none,
        .failed ⟨3, .expression, "1 / 0"⟩ ⟨"java.lang.ArithmeticException", "/ by zero"⟩], "2\n"⟩
    ∃ start history sc s' before host, build {} (.ok {}) false = .ok start ∧
      Runs E ⟨start, false⟩ history sc ∧
      (sc.ev.eval E "" "System.out.println(2); 1 / 0").1 = .ok result ∧
      sc.ev.engine = some s' ∧ Interpreter.History s' before ∧
      Complete s' host 65536 "System.out.println(2); 1 / 0" result := by
  intro E result
  let filter : Filter := ⟨["java.nio"], ["java.io.File", "java.lang.Runtime", "java.lang.Thread"],
    [⟨"java.lang.System", "exit"⟩, ⟨"java.lang.System", "getenv"⟩]⟩
  let start : Evaluator Interpreter :=
    ⟨some {}, .ready, ⟨filter, false⟩, ⟨5000, 1000⟩, .empty 65536, none, []⟩
  have hbuild : build {} (.ok {}) false = .ok start := by
    have hvalidate : Config.validate {} = .ok filter := rfl
    unfold build
    rw [hvalidate]
    rfl
  have hruns := (Runs.start : Runs E ⟨start, false⟩ [] _).move
    (.eval "" "System.out.println(1)") trivial
  have hok : (((⟨start, false⟩ : Scene Interpreter).play E
      (.eval "" "System.out.println(1)")).2.ev.eval E "" "System.out.println(2); 1 / 0").1 =
        .ok result := by
    decide +kernel
  obtain ⟨s', before, host, hengine, hbefore, -, -, hcomplete⟩ :=
    complete_results (drives_engine _) rfl hbuild hruns hok
  exact ⟨start, _, _, s', before, host, hbuild, hruns, hok, hengine, hbefore, hcomplete⟩

end Results

end Evaluator
end GuardedRepl
