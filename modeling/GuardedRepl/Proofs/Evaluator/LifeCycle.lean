import GuardedRepl.Evaluator
import GuardedRepl.Proofs.Watchdog
import Mathlib.Tactic

/-!
# The life of an evaluator

A caller asks an evaluator for one thing after another.  An engine that has been abandoned may still
run beside the caller: between any two calls it may write, ask for accesses, or end.  The engine is
arbitrary, and its states may hold whatever decides how it behaves, so a statement about every
engine is one about every behaviour in every call.

What becomes of the engine is decided by what it does about a command: whether it returns by the
deadline, breaks down by then, or is still at work.  An evaluator is ready, or its engine has been
given up, or it is closed, and it never goes back.  It holds its engine exactly while it is ready,
and then no action is running in the sandbox and the capture is empty.

**Results.**
* `eval_ready`, `eval_not_ready`: the ways in which the evaluation of a command ends.
* `Sound.played`: the ways in which one move goes.
* `Played.sound`, `Runs.sound`: what one move keeps, and what every history keeps.
* `Ends.answers`, `Played.phases`: what the caller is told, and what the move leads to.
* `life_cycle`: what the caller can rely on.
-/

namespace GuardedRepl
namespace Evaluator

variable {σ : Type}

/-! ## Moves -/

/-- What is asked of an evaluator, or what an abandoned engine does beside it. -/
inductive Move where
  | eval (timestamp command : String)
  | diagnostics (id : Nat)
  | close
  | stray (s : Stray)

/-- What a move asks of an engine. -/
def Move.requests : Move → List Request
  | .eval _ command => [.eval command]
  | .diagnostics id => [.diagnostics id]
  | .close => [.close]
  | .stray _ => []

/-- What a caller is told. -/
inductive Reply where
  | evaluated (result : Except EvalError EvalResult)
  | diagnosed (result : Except EvalError (List Diagnostic))
  | silent

/-- What the engine does about a command that an evaluator gives it. -/
def work (E : Engine σ) (ev : Evaluator σ) (s : σ) (command : String) : Work σ :=
  E.eval s { ev.sandbox with active := true }.check ev.watchdog.deadline command

/-- The engine is given a command and is still at work when the grace period is over. -/
def outlives (E : Engine σ) (ev : Evaluator σ) (command : String) : Bool :=
  ev.phase = .ready &&
    ev.engine.any fun s => !decide (ev.watchdog.Stops (work E ev s command).action)

/-- The engine does not come back from a move: it is given a command and breaks down by the
deadline, or is still at work then. -/
inductive Fails (E : Engine σ) (ev : Evaluator σ) : Move → Prop
  | panicked {timestamp command : String} {s : σ} : ev.phase = .ready → ev.engine = some s →
      ev.watchdog.InTime (work E ev s command).action .panicked →
      Fails E ev (.eval timestamp command)
  | timedOut {timestamp command : String} {s : σ} : ev.phase = .ready → ev.engine = some s →
      ev.watchdog.Late (work E ev s command).action → Fails E ev (.eval timestamp command)

/-- An evaluator that is not ready has no engine that could fail. -/
theorem not_fails {E : Engine σ} {ev : Evaluator σ} (hphase : ev.phase ≠ .ready) (m : Move) :
    ¬Fails E ev m := by
  rintro (hready | hready)
  · exact hphase hready
  · exact hphase hready

/-- An engine that returns by the deadline does not fail. -/
theorem not_fails_of_returned {E : Engine σ} {ev : Evaluator σ} {s s' : σ} {events : List Event}
    {command : String} (hengine : ev.engine = some s)
    (hin : ev.watchdog.InTime (work E ev s command).action (.returned events s'))
    (timestamp : String) : ¬Fails E ev (.eval timestamp command) := by
  rintro (⟨-, hengine', hpanicked⟩ | ⟨-, hengine', hlate⟩)
  · obtain rfl := Option.some_inj.mp (hengine.symm.trans hengine')
    exact nomatch hin.unique hpanicked
  · obtain rfl := Option.some_inj.mp (hengine.symm.trans hengine')
    exact hin.not_late hlate

/-- An evaluator, and whether an engine that it has abandoned still runs. -/
structure Scene (σ : Type) where
  ev : Evaluator σ
  astray : Bool

namespace Scene

/-- The moves that can be made: only an engine that still runs does anything by itself. -/
def Allows (sc : Scene σ) : Move → Prop
  | .stray _ => sc.astray = true
  | _ => True

/-- Makes a move. -/
def play (E : Engine σ) (sc : Scene σ) : Move → Reply × Scene σ
  | .eval timestamp command =>
    let call := sc.ev.eval E timestamp command
    (.evaluated call.1, ⟨call.2, sc.astray || outlives E sc.ev command⟩)
  | .diagnostics id =>
    let call := sc.ev.diagnostics E id
    (.diagnosed call.1, ⟨call.2, sc.astray⟩)
  | .close => (.silent, ⟨sc.ev.close, sc.astray⟩)
  | .stray .finish => (.silent, ⟨sc.ev.stray .finish, false⟩)
  | .stray s => (.silent, ⟨sc.ev.stray s, sc.astray⟩)

end Scene

/-- The moves made so far with their replies, the last one first, and the scene they lead to. -/
inductive Runs (E : Engine σ) (start : Scene σ) : List (Move × Reply) → Scene σ → Prop
  | start : Runs E start [] start
  | move {history : List (Move × Reply)} {sc : Scene σ} (m : Move) :
      Runs E start history sc → sc.Allows m →
      Runs E start ((m, (sc.play E m).1) :: history) (sc.play E m).2

/-- In one of the moves of a history the engine did not come back. -/
inductive Lost (E : Engine σ) (start : Scene σ) : List (Move × Reply) → Prop
  | now {history : List (Move × Reply)} {sc : Scene σ} {m : Move} {r : Reply} :
      Runs E start history sc → Fails E sc.ev m → Lost E start ((m, r) :: history)
  | before {history : List (Move × Reply)} {m : Move} {r : Reply} :
      Lost E start history → Lost E start ((m, r) :: history)

section Histories

variable {E : Engine σ} {start sc sc' : Scene σ} {history : List (Move × Reply)}

/-- The moves decide where they lead. -/
theorem Runs.unique {history' : List (Move × Reply)} (h : Runs E start history sc)
    (h' : Runs E start history' sc') (heq : history = history') : sc = sc' := by
  induction h generalizing history' sc' with
  | start =>
      cases h' with
      | start => rfl
      | move => cases heq
  | move m _ _ ih =>
      cases h' with
      | start => cases heq
      | move m' hbefore _ =>
          obtain ⟨hentry, hrest⟩ := List.cons_eq_cons.mp heq
          obtain ⟨rfl, -⟩ := Prod.mk.inj hentry
          rw [ih hbefore hrest]

theorem not_lost_nil : ¬Lost E start [] := nofun

/-- After one more move the engine is lost if it fails in this move or was lost before. -/
theorem Runs.lost_cons (h : Runs E start history sc) (m : Move) (r : Reply) :
    Lost E start ((m, r) :: history) ↔ Fails E sc.ev m ∨ Lost E start history := by
  constructor
  · rintro (⟨hruns, hfails⟩ | hbefore)
    · exact .inl (h.unique hruns rfl ▸ hfails)
    · exact .inr hbefore
  · rintro (hfails | hbefore)
    · exact .now h hfails
    · exact .before hbefore

end Histories

/-! ## One evaluation -/

section Evaluation

variable (E : Engine σ) {ev : Evaluator σ} (timestamp command : String)

/-- An evaluator that is not ready refuses a command and stays as it is. -/
theorem eval_not_ready (h : ev.phase ≠ .ready) :
    ∃ e, (e = .retired ∨ e = .closed) ∧ ev.eval E timestamp command = (.error e, ev) := by
  unfold eval
  rcases hphase : ev.phase with _ | _ | _
  · exact absurd hphase h
  · exact ⟨_, .inl rfl, rfl⟩
  · exact ⟨_, .inr rfl, rfl⟩

variable {E command}

/-- The ways in which a command ends that is run on an engine: the engine returns by the deadline
and is kept, and the output is what it has written in this call; or it breaks down by then; or it is
told to stop, and is given up whatever comes of that. -/
inductive Ends (E : Engine σ) (ev : Evaluator σ) (s : σ) (command : String) :
    Except EvalError EvalResult → Evaluator σ → Prop
  | returned {events : List Event} {s' : σ} {next : Evaluator σ} :
      ev.watchdog.InTime (work E ev s command).action (.returned events s') →
      next.engine = some s' → next.phase = .ready → next.sandbox.active = false →
      next.capture = .empty ev.capture.maxBytes → next.watchdog = ev.watchdog →
      next.requests = .eval command :: ev.requests →
      Ends E ev s command
        (.ok ⟨events, (ev.capture.write (work E ev s command).output.get).drain.1⟩) next
  | panicked {next : Evaluator σ} :
      ev.watchdog.InTime (work E ev s command).action .panicked →
      next.engine = none → next.phase = .retired → next.watchdog = ev.watchdog →
      next.requests = .eval command :: ev.requests →
      Ends E ev s command (.error .enginePanicked) next
  | timedOut {stopped : Bool} {next : Evaluator σ} :
      ev.watchdog.Late (work E ev s command).action →
      (stopped = true ↔ ev.watchdog.Stops (work E ev s command).action) →
      next.engine = none → next.phase = .retired → next.watchdog = ev.watchdog →
      next.requests = .eval command :: ev.requests →
      Ends E ev s command (.error (.timeout ev.watchdog.deadline stopped)) next

theorem Ends.record {s : σ} {result : Except EvalError EvalResult} {next : Evaluator σ}
    (h : Ends E ev s command result next) (entry : AuditEntry) :
    Ends E ev s command result (next.record entry) := by
  cases h with
  | returned hin hheld hphase hidle hcapture hwatch hrequests =>
      exact .returned hin hheld hphase hidle hcapture hwatch hrequests
  | panicked hin hheld hphase hwatch hrequests =>
      exact .panicked hin hheld hphase hwatch hrequests
  | timedOut hlate hstops hheld hphase hwatch hrequests =>
      exact .timedOut hlate hstops hheld hphase hwatch hrequests

theorem ends_run {s : σ} (hphase : ev.phase = .ready) (hidle : ev.sandbox.active = false) :
    Ends E ev s command (run E ev s command).result (run E ev s command).next := by
  unfold run
  simp only [Sandbox.enter?, hidle, Bool.false_eq_true, if_false]
  split
  · next hfinished =>
      exact .returned (Watchdog.inTime_of_finished hfinished) rfl hphase rfl rfl rfl rfl
  · next hfinished => exact .panicked (Watchdog.inTime_of_finished hfinished) rfl rfl rfl rfl
  · next htimedOut =>
      obtain ⟨hlate, hstops⟩ := Watchdog.late_of_timedOut htimedOut
      exact .timedOut hlate hstops rfl rfl rfl rfl

/-- An evaluator that is ready runs a command on its engine. -/
theorem eval_ready {s : σ} (timestamp command : String) (hphase : ev.phase = .ready)
    (hengine : ev.engine = some s) (hidle : ev.sandbox.active = false) :
    Ends E ev s command (ev.eval E timestamp command).1 (ev.eval E timestamp command).2 := by
  unfold eval
  simp only [hphase, perform, hengine]
  exact (ends_run hphase hidle).record _

end Evaluation

/-! ## One move -/

/-- What holds of a scene between two moves, with the watchdog, the cap on the output of one call,
and whether the engine has been lost. -/
structure Sound (w : Watchdog) (cap : Nat) (lost : Prop) (sc : Scene σ) : Prop where
  held : sc.ev.engine.isSome = true ↔ sc.ev.phase = .ready
  watch : sc.ev.watchdog = w
  idle : sc.ev.phase = .ready → sc.ev.sandbox.active = false
  clean : sc.ev.phase = .ready → sc.ev.capture = .empty cap
  alone : sc.ev.phase = .ready → sc.astray = false
  ready : sc.ev.phase = .ready → ¬lost
  retired : sc.ev.phase = .retired → lost
  closed : sc.ev.phase = .closed → ¬lost → sc.ev.requests.count .close = 1
  unclosed : sc.ev.phase ≠ .closed ∨ lost → sc.ev.requests.count .close = 0

/-- What a move does to a scene, with the cap on the output of one call. -/
inductive Played (E : Engine σ) (cap : Nat) (sc : Scene σ) : Move → Reply → Scene σ → Prop
  | evaluated {timestamp command : String} {s : σ} {result : Except EvalError EvalResult}
      {next : Evaluator σ} {astray : Bool} :
      sc.ev.phase = .ready → sc.ev.engine = some s → sc.ev.capture = .empty cap →
      Ends E sc.ev s command result next → (next.phase = .ready → astray = false) →
      Played E cap sc (.eval timestamp command) (.evaluated result) ⟨next, astray⟩
  | refused {timestamp command : String} {e : EvalError} :
      sc.ev.phase ≠ .ready → e = .retired ∨ e = .closed →
      Played E cap sc (.eval timestamp command) (.evaluated (.error e)) sc
  | diagnosed {id : Nat} {ds : List Diagnostic} {next : Evaluator σ} :
      sc.ev.phase = .ready → next.engine = sc.ev.engine → next.phase = .ready →
      next.watchdog = sc.ev.watchdog → next.sandbox = sc.ev.sandbox →
      next.capture = sc.ev.capture → next.requests = .diagnostics id :: sc.ev.requests →
      Played E cap sc (.diagnostics id) (.diagnosed (.ok ds)) ⟨next, sc.astray⟩
  | undiagnosed {id : Nat} {e : EvalError} :
      sc.ev.phase ≠ .ready → Played E cap sc (.diagnostics id) (.diagnosed (.error e)) sc
  | closed {next : Evaluator σ} :
      sc.ev.phase = .ready → next.engine = none → next.phase = .closed →
      next.watchdog = sc.ev.watchdog → next.requests = .close :: sc.ev.requests →
      Played E cap sc .close .silent ⟨next, sc.astray⟩
  | left {next : Evaluator σ} :
      sc.ev.phase ≠ .ready → next.engine = none → next.phase = .closed →
      next.watchdog = sc.ev.watchdog → next.requests = sc.ev.requests →
      Played E cap sc .close .silent ⟨next, sc.astray⟩
  | strayed {s : Stray} {next : Evaluator σ} {astray : Bool} :
      sc.ev.phase ≠ .ready → next.engine = none → next.phase = sc.ev.phase →
      next.watchdog = sc.ev.watchdog → next.requests = sc.ev.requests →
      Played E cap sc (.stray s) .silent ⟨next, astray⟩

section Moves

variable {E : Engine σ} {w : Watchdog} {cap : Nat} {lost : Prop} {sc sc' : Scene σ}

theorem Sound.engine_eq_none (h : Sound w cap lost sc) (hphase : sc.ev.phase ≠ .ready) :
    sc.ev.engine = none := by
  rcases hengine : sc.ev.engine with _ | s
  · rfl
  · exact absurd (h.held.mp (by rw [hengine]; rfl)) hphase

theorem Sound.engine_eq_some (h : Sound w cap lost sc) (hphase : sc.ev.phase = .ready) :
    ∃ s, sc.ev.engine = some s :=
  Option.isSome_iff_exists.mp (h.held.mpr hphase)

/-- An engine that has returned by the deadline does nothing any more. -/
theorem outlives_eq_false {ev next : Evaluator σ} {s : σ} {command : String}
    {result : Except EvalError EvalResult} (hengine : ev.engine = some s)
    (hends : Ends E ev s command result next) (hnext : next.phase = .ready) :
    outlives E ev command = false := by
  cases hends with
  | returned hin => simp [outlives, hengine, hin.stops]
  | panicked _ _ hretired => exact nomatch hnext.symm.trans hretired
  | timedOut _ _ _ hretired => exact nomatch hnext.symm.trans hretired

theorem outlives_of_not_ready {ev : Evaluator σ} (hphase : ev.phase ≠ .ready)
    (command : String) : outlives E ev command = false := by
  rw [outlives, decide_eq_false hphase, Bool.false_and]

theorem Sound.played_eval (h : Sound w cap lost sc) (timestamp command : String) :
    Played E cap sc (.eval timestamp command) (sc.play E (.eval timestamp command)).1
      (sc.play E (.eval timestamp command)).2 := by
  simp only [Scene.play]
  by_cases hphase : sc.ev.phase = .ready
  · obtain ⟨s, hengine⟩ := h.engine_eq_some hphase
    have hends := eval_ready (E := E) timestamp command hphase hengine (h.idle hphase)
    refine .evaluated hphase hengine (h.clean hphase) hends fun hnext => ?_
    rw [h.alone hphase, outlives_eq_false hengine hends hnext, Bool.or_false]
  · obtain ⟨e, he, heval⟩ := eval_not_ready E timestamp command hphase
    rw [heval, outlives_of_not_ready hphase, Bool.or_false]
    exact .refused hphase he

/-- The ways in which a move goes. -/
theorem Sound.played (h : Sound w cap lost sc) (m : Move) (hm : sc.Allows m) :
    Played E cap sc m (sc.play E m).1 (sc.play E m).2 := by
  by_cases hphase : sc.ev.phase = .ready
  · obtain ⟨s, hengine⟩ := h.engine_eq_some hphase
    cases m with
    | eval timestamp command => exact h.played_eval timestamp command
    | diagnostics id =>
        simp only [Scene.play, Evaluator.diagnostics, hphase, hengine]
        exact .diagnosed hphase hengine.symm rfl rfl rfl rfl rfl
    | close =>
        simp only [Scene.play, Evaluator.close, hengine]
        exact .closed hphase rfl rfl rfl rfl
    | stray s => exact absurd hm (by simp [Scene.Allows, h.alone hphase])
  · have hengine := h.engine_eq_none hphase
    cases m with
    | eval timestamp command => exact h.played_eval timestamp command
    | diagnostics id =>
        have hrefused : ∃ e, sc.ev.diagnostics E id = (.error e, sc.ev) := by
          unfold Evaluator.diagnostics
          rw [hengine]
          rcases hp : sc.ev.phase with _ | _ | _
          · exact absurd hp hphase
          · exact ⟨_, rfl⟩
          · exact ⟨_, rfl⟩
        obtain ⟨e, he⟩ := hrefused
        simp only [Scene.play, he]
        exact .undiagnosed hphase
    | close =>
        simp only [Scene.play, Evaluator.close, hengine]
        exact .left hphase rfl rfl rfl rfl
    | stray s => cases s <;> exact .strayed hphase hengine rfl rfl rfl

/-- A scene whose evaluator is ready is sound if nothing is left in it of the last call. -/
theorem sound_of_ready (hphase : sc.ev.phase = .ready) (hheld : sc.ev.engine.isSome = true)
    (hwatch : sc.ev.watchdog = w) (hidle : sc.ev.sandbox.active = false)
    (hclean : sc.ev.capture = .empty cap) (halone : sc.astray = false) (hkept : ¬lost)
    (hcount : sc.ev.requests.count .close = 0) : Sound w cap lost sc where
  held := iff_of_true hheld hphase
  watch := hwatch
  idle _ := hidle
  clean _ := hclean
  alone _ := halone
  ready _ := hkept
  retired hretired := nomatch hphase.symm.trans hretired
  closed hclosed := nomatch hphase.symm.trans hclosed
  unclosed _ := hcount

/-- A scene whose evaluator holds no engine is sound if it counts its calls right. -/
theorem sound_of_not_ready (hengine : sc.ev.engine = none) (hwatch : sc.ev.watchdog = w)
    (hphase : sc.ev.phase ≠ .ready) (hretired : sc.ev.phase = .retired → lost)
    (hclosed : sc.ev.phase = .closed → ¬lost → sc.ev.requests.count .close = 1)
    (hunclosed : sc.ev.phase ≠ .closed ∨ lost → sc.ev.requests.count .close = 0) :
    Sound w cap lost sc where
  held := by simp [hengine, hphase]
  watch := hwatch
  idle h := absurd h hphase
  clean h := absurd h hphase
  alone h := absurd h hphase
  ready h := absurd h hphase
  retired := hretired
  closed := hclosed
  unclosed := hunclosed

/-- Where the engine is gone, a move that asks it for nothing loses nothing. -/
theorem Sound.of_requests (h : Sound w cap lost sc) (hphase : sc.ev.phase ≠ .ready)
    (hengine : sc'.ev.engine = none) (hwatch : sc'.ev.watchdog = sc.ev.watchdog)
    (hnext : sc'.ev.phase = sc.ev.phase ∨ sc'.ev.phase = .closed)
    (hrequests : sc'.ev.requests = sc.ev.requests) : Sound w cap lost sc' := by
  refine sound_of_not_ready hengine (hwatch.trans h.watch) ?_ ?_ ?_ ?_
  · rcases hnext with hnext | hnext
    · exact hnext ▸ hphase
    · rw [hnext]
      nofun
  · intro hretired
    rcases hnext with hnext | hnext
    · exact h.retired (hnext ▸ hretired)
    · exact nomatch hretired.symm.trans hnext
  · intro _ hkept
    rw [hrequests]
    -- It was closed before, as it would be lost if it were retired.
    rcases hp : sc.ev.phase with _ | _ | _
    · exact absurd hp hphase
    · exact absurd (h.retired hp) hkept
    · exact h.closed hp hkept
  · intro hopen
    rw [hrequests]
    refine h.unclosed (hopen.imp_left fun hopen hclosed => hopen ?_)
    rcases hnext with hnext | hnext
    · exact hnext.trans hclosed
    · exact hnext

theorem Ends.sound {s : σ} {timestamp command : String} {result : Except EvalError EvalResult}
    {next : Evaluator σ} {astray : Bool} (hends : Ends E sc.ev s command result next)
    (h : Sound w cap lost sc) (hphase : sc.ev.phase = .ready) (hengine : sc.ev.engine = some s)
    (hastray : next.phase = .ready → astray = false) :
    Sound w cap (Fails E sc.ev (.eval timestamp command) ∨ lost) ⟨next, astray⟩ := by
  have hcount : sc.ev.requests.count .close = 0 :=
    h.unclosed (.inl (by rw [hphase]; decide))
  cases hends with
  | returned hin hheld hnext hidle hcapture hwatch hrequests =>
      rw [or_iff_right (not_fails_of_returned hengine hin timestamp)]
      rw [h.clean hphase] at hcapture
      exact sound_of_ready hnext (by rw [hheld]; rfl) (hwatch.trans h.watch) hidle hcapture
        (hastray hnext) (h.ready hphase) (by simp [hrequests, hcount])
  | panicked hin hheld hnext hwatch hrequests =>
      refine sound_of_not_ready hheld (hwatch.trans h.watch) (by simp [hnext])
        (fun _ => .inl (.panicked hphase hengine hin)) (fun hp => (nomatch hnext.symm.trans hp))
        fun _ => by simp [hrequests, hcount]
  | timedOut hlate _ hheld hnext hwatch hrequests =>
      refine sound_of_not_ready hheld (hwatch.trans h.watch) (by simp [hnext])
        (fun _ => .inl (.timedOut hphase hengine hlate)) (fun hp => (nomatch hnext.symm.trans hp))
        fun _ => by simp [hrequests, hcount]

/-- What one move keeps. -/
theorem Played.sound {m : Move} {r : Reply} (hplayed : Played E cap sc m r sc')
    (h : Sound w cap lost sc) : Sound w cap (Fails E sc.ev m ∨ lost) sc' := by
  cases hplayed with
  | evaluated hphase hengine _ hends hastray => exact hends.sound h hphase hengine hastray
  | refused hphase _ => rwa [or_iff_right (not_fails hphase _)]
  | diagnosed hphase hheld hnext hwatch hsandbox hcapture hrequests =>
      rw [or_iff_right (by nofun)]
      have hcount : sc.ev.requests.count .close = 0 :=
        h.unclosed (.inl (by rw [hphase]; decide))
      exact sound_of_ready hnext (hheld ▸ h.held.mpr hphase) (hwatch.trans h.watch)
        (hsandbox ▸ h.idle hphase) (hcapture ▸ h.clean hphase) (h.alone hphase) (h.ready hphase)
        (by simp [hrequests, hcount])
  | undiagnosed hphase => rwa [or_iff_right (by nofun)]
  | closed hphase hheld hnext hwatch hrequests =>
      rw [or_iff_right (by nofun)]
      have hcount : sc.ev.requests.count .close = 0 :=
        h.unclosed (.inl (by rw [hphase]; decide))
      refine sound_of_not_ready hheld (hwatch.trans h.watch) (by simp [hnext]) (by simp [hnext])
        (fun _ _ => by simp [hrequests, hcount]) ?_
      rintro (hopen | hlost)
      · exact absurd hnext hopen
      · exact absurd hlost (h.ready hphase)
  | left hphase hheld hnext hwatch hrequests =>
      rw [or_iff_right (by nofun)]
      exact h.of_requests hphase hheld hwatch (.inr hnext) hrequests
  | strayed hphase hheld hnext hwatch hrequests =>
      rw [or_iff_right (by nofun)]
      exact h.of_requests hphase hheld hwatch (.inl hnext) hrequests

/-- What every history keeps. -/
theorem Runs.sound {start : Scene σ} {history : List (Move × Reply)}
    (hstart : Sound w cap False start) (hruns : Runs E start history sc) :
    Sound w cap (Lost E start history) sc := by
  induction hruns with
  | start =>
      have hkept : ¬Lost E start [] := not_lost_nil
      rwa [eq_false hkept]
  | move m hruns hm ih =>
      rw [hruns.lost_cons]
      exact (ih.played m hm).sound ih

end Moves

/-- A new evaluator is ready. -/
theorem build_sound {c : Config} {s : σ} {audited : Bool} {start : Evaluator σ}
    (hbuild : build c (.ok s) audited = .ok start) :
    Sound ⟨c.timeout, c.stopGrace⟩ c.maxBytes False ⟨start, false⟩ := by
  unfold build at hbuild
  rcases hvalidate : c.validate with e | filter
  · rw [hvalidate] at hbuild
    cases hbuild
  · rw [hvalidate] at hbuild
    cases hbuild
    exact sound_of_ready rfl rfl rfl rfl rfl rfl not_false rfl

/-! ## What a caller can rely on -/

/-- What a caller is told of a command that an engine was given, and what becomes of the engine,
whatever the engine does about the command. -/
structure Answers (w : Watchdog) (cap : Nat) (work : Work σ) (r : Reply) (next : Evaluator σ) :
    Prop where
  /-- A result is that of an engine that has returned by the deadline, with what an empty capture
  makes of the bytes that the engine has written in this call. -/
  ok (result : EvalResult) : r = .evaluated (.ok result) ↔
    ∃ events s', w.InTime work.action (.returned events s') ∧
      result = ⟨events, ((Capture.empty cap).write work.output.get).drain.1⟩
  /-- An engine that has returned by the deadline is kept. -/
  kept {events : List Event} {s' : σ} : w.InTime work.action (.returned events s') →
    next.phase = .ready ∧ next.engine = some s'
  panicked : r = .evaluated (.error .enginePanicked) ↔ w.InTime work.action .panicked
  timedOut : (∃ stopped, r = .evaluated (.error (.timeout w.deadline stopped))) ↔
    w.Late work.action
  stopped (stopped : Bool) : r = .evaluated (.error (.timeout w.deadline stopped)) →
    (stopped = true ↔ w.Stops work.action)

/-- The phases that a move leads to, as the engine comes back or not. -/
inductive Passes (E : Engine σ) (ev : Evaluator σ) (m : Move) : Phase → Phase → Prop
  | stays {p : Phase} : m ≠ .close → ¬Fails E ev m → Passes E ev m p p
  | retires : Fails E ev m → Passes E ev m .ready .retired
  | closes {p : Phase} : m = .close → Passes E ev m p .closed

/-- A move that does what a caller can rely on. -/
structure Orderly (E : Engine σ) (w : Watchdog) (cap : Nat) (sc : Scene σ) (m : Move) (r : Reply)
    (sc' : Scene σ) : Prop where
  phases : Passes E sc.ev m sc.ev.phase sc'.ev.phase
  answered {timestamp command : String} {s : σ} : m = .eval timestamp command →
    sc.ev.phase = .ready → sc.ev.engine = some s →
    Answers w cap (work E sc.ev s command) r sc'.ev
  /-- The sandbox is never found to be in use. -/
  entered : r ≠ .evaluated (.error .sandbox)
  /-- An evaluation that fails is the last one. -/
  failed (e : EvalError) : r = .evaluated (.error e) → sc'.ev.phase ≠ .ready ∧ e.isTerminal = true
  /-- The engine in use is asked for what the caller asks for. -/
  asked : sc.ev.phase = .ready → sc'.ev.requests = m.requests ++ sc.ev.requests
  /-- An engine that has been given up or closed is asked for nothing, so it makes no difference. -/
  unasked : sc.ev.phase ≠ .ready →
    sc'.ev.requests = sc.ev.requests ∧ ∀ E' : Engine σ, sc.play E' m = (r, sc')
  /-- No bytes are returned but those that the engine writes in this call. -/
  output (result : EvalResult) : r = .evaluated (.ok result) →
    ∃ timestamp command s, m = .eval timestamp command ∧ sc.ev.engine = some s ∧
      result.output = ((Capture.empty cap).write (work E sc.ev s command).output.get).drain.1

section Calls

variable {E : Engine σ} {w : Watchdog} {cap : Nat} {lost : Prop} {sc sc' : Scene σ} {m : Move}
  {r : Reply}

section Answers

variable {work : Work σ} {next : Evaluator σ} {events : List Event} {s' : σ}

theorem answers_of_returned (hin : w.InTime work.action (.returned events s'))
    (hheld : next.engine = some s') (hphase : next.phase = .ready) :
    Answers w cap work
      (.evaluated (.ok ⟨events, ((Capture.empty cap).write work.output.get).drain.1⟩)) next where
  ok result := by
    constructor
    · rintro ⟨⟩
      exact ⟨events, s', hin, rfl⟩
    · rintro ⟨events', s'', hin', rfl⟩
      cases hin.unique hin'
      rfl
  kept hin' := by
    cases hin.unique hin'
    exact ⟨hphase, hheld⟩
  panicked := ⟨nofun, fun hpanicked => nomatch hin.unique hpanicked⟩
  timedOut := ⟨nofun, fun hlate => absurd hlate hin.not_late⟩
  stopped := nofun

theorem answers_of_panicked (hin : w.InTime work.action .panicked) :
    Answers w cap work (.evaluated (.error .enginePanicked)) next where
  ok _ := ⟨nofun, fun ⟨_, _, hin', _⟩ => nomatch hin.unique hin'⟩
  kept hin' := nomatch hin.unique hin'
  panicked := ⟨fun _ => hin, fun _ => rfl⟩
  timedOut := ⟨nofun, fun hlate => absurd hlate hin.not_late⟩
  stopped := nofun

theorem answers_of_late {stopped : Bool} (hlate : w.Late work.action)
    (hstops : stopped = true ↔ w.Stops work.action) :
    Answers w cap work (.evaluated (.error (.timeout w.deadline stopped))) next where
  ok _ := ⟨nofun, fun ⟨_, _, hin, _⟩ => absurd hlate hin.not_late⟩
  kept hin := absurd hlate hin.not_late
  panicked := ⟨nofun, fun hin => absurd hlate hin.not_late⟩
  timedOut := ⟨fun _ => hlate, fun _ => ⟨stopped, rfl⟩⟩
  stopped stopped' := by
    rintro ⟨⟩
    exact hstops

end Answers

/-- The answer to a command, by what the engine does about it. -/
theorem Ends.answers {ev next : Evaluator σ} {s : σ} {command : String}
    {result : Except EvalError EvalResult} (hends : Ends E ev s command result next)
    (hclean : ev.capture = .empty cap) :
    Answers ev.watchdog cap (work E ev s command) (.evaluated result) next := by
  cases hends with
  | returned hin hheld hnext =>
      rw [hclean]
      exact answers_of_returned hin hheld hnext
  | panicked hin => exact answers_of_panicked hin
  | timedOut hlate hstops => exact answers_of_late hlate hstops

/-- What the engine does decides which phase a move leads to. -/
theorem Played.phases (h : Played E cap sc m r sc') :
    Passes E sc.ev m sc.ev.phase sc'.ev.phase := by
  cases h with
  | evaluated hphase hengine _ hends _ =>
      cases hends with
      | returned hin _ hnext =>
          rw [hphase, hnext]
          exact .stays nofun (not_fails_of_returned hengine hin _)
      | panicked hin _ hnext =>
          rw [hphase, hnext]
          exact .retires (.panicked hphase hengine hin)
      | timedOut hlate _ _ hnext =>
          rw [hphase, hnext]
          exact .retires (.timedOut hphase hengine hlate)
  | refused hphase _ => exact .stays nofun (not_fails hphase _)
  | diagnosed hphase _ hnext =>
      rw [hphase, hnext]
      exact .stays nofun nofun
  | undiagnosed _ => exact .stays nofun nofun
  | closed _ _ hnext => exact hnext ▸ .closes rfl
  | left _ _ hnext => exact hnext ▸ .closes rfl
  | strayed _ _ hnext => exact hnext ▸ .stays nofun nofun

theorem Played.answered (h : Played E cap sc m r sc') {timestamp command : String} {s : σ}
    (hm : m = .eval timestamp command) (hphase : sc.ev.phase = .ready)
    (hengine : sc.ev.engine = some s) :
    Answers sc.ev.watchdog cap (work E sc.ev s command) r sc'.ev := by
  cases h with
  | evaluated _ hengine' hclean hends _ =>
      cases hm
      obtain rfl := Option.some_inj.mp (hengine.symm.trans hengine')
      exact hends.answers hclean
  | refused hnot _ => exact absurd hphase hnot
  | _ => cases hm

theorem Ends.failed {ev next : Evaluator σ} {s : σ} {command : String} {e : EvalError}
    (hends : Ends E ev s command (.error e) next) :
    next.phase ≠ .ready ∧ e.isTerminal = true ∧ e ≠ .sandbox := by
  cases hends with
  | panicked _ _ hnext => exact ⟨by simp [hnext], rfl, nofun⟩
  | timedOut _ _ _ hnext => exact ⟨by simp [hnext], rfl, nofun⟩

theorem Played.failed (h : Played E cap sc m r sc') {e : EvalError}
    (hr : r = .evaluated (.error e)) :
    sc'.ev.phase ≠ .ready ∧ e.isTerminal = true ∧ e ≠ .sandbox := by
  cases h with
  | evaluated _ _ _ hends _ =>
      cases hr
      exact hends.failed
  | refused hphase he =>
      cases hr
      rcases he with rfl | rfl
      · exact ⟨hphase, rfl, nofun⟩
      · exact ⟨hphase, rfl, nofun⟩
  | _ => cases hr

theorem Ends.requests {ev next : Evaluator σ} {s : σ} {command : String}
    {result : Except EvalError EvalResult} (hends : Ends E ev s command result next) :
    next.requests = .eval command :: ev.requests := by
  cases hends with
  | returned _ _ _ _ _ _ hrequests => exact hrequests
  | panicked _ _ _ _ hrequests => exact hrequests
  | timedOut _ _ _ _ _ hrequests => exact hrequests

theorem Played.requests (h : Played E cap sc m r sc') :
    sc'.ev.requests = if sc.ev.phase = .ready then m.requests ++ sc.ev.requests
      else sc.ev.requests := by
  cases h with
  | evaluated hphase _ _ hends _ => rw [if_pos hphase, hends.requests]; rfl
  | refused hphase _ => rw [if_neg hphase]
  | diagnosed hphase _ _ _ _ _ hrequests => rw [if_pos hphase, hrequests]; rfl
  | undiagnosed hphase => rw [if_neg hphase]
  | closed hphase _ _ _ hrequests => rw [if_pos hphase, hrequests]; rfl
  | left hphase _ _ _ hrequests => rw [if_neg hphase, hrequests]
  | strayed hphase _ _ _ hrequests => rw [if_neg hphase, hrequests]

theorem Played.output (h : Played E cap sc m r sc') {result : EvalResult}
    (hr : r = .evaluated (.ok result)) :
    ∃ timestamp command s, m = .eval timestamp command ∧ sc.ev.engine = some s ∧
      result.output = ((Capture.empty cap).write (work E sc.ev s command).output.get).drain.1 := by
  cases h with
  | evaluated _ hengine hclean hends _ =>
      obtain ⟨events, s', -, hresult⟩ := ((hends.answers hclean).ok result).mp hr
      exact ⟨_, _, _, rfl, hengine, by rw [hresult]⟩
  | _ => cases hr

/-- Without its engine an evaluator behaves the same whatever the engine is. -/
theorem Sound.play_congr (h : Sound w cap lost sc) (hphase : sc.ev.phase ≠ .ready) (m : Move)
    (E E' : Engine σ) : sc.play E' m = sc.play E m := by
  have hengine := h.engine_eq_none hphase
  cases m with
  | eval timestamp command =>
      have hsame : sc.ev.eval E' timestamp command = sc.ev.eval E timestamp command := by
        unfold eval
        rcases hp : sc.ev.phase with _ | _ | _
        · exact absurd hp hphase
        · rfl
        · rfl
      simp only [Scene.play, hsame, outlives_of_not_ready hphase]
  | diagnostics id =>
      have hsame : sc.ev.diagnostics E' id = sc.ev.diagnostics E id := by
        unfold Evaluator.diagnostics
        rcases hp : sc.ev.phase with _ | _ | _
        · exact absurd hp hphase
        · rfl
        · rfl
      simp only [Scene.play, hsame]
  | close => rfl
  | stray s => cases s <;> rfl

theorem Sound.orderly (h : Sound w cap lost sc) (E : Engine σ) (m : Move) (hm : sc.Allows m) :
    Orderly E w cap sc m (sc.play E m).1 (sc.play E m).2 where
  phases := (h.played m hm).phases
  answered := h.watch ▸ (h.played m hm).answered
  entered hr := ((h.played m hm).failed hr).2.2 rfl
  failed _ hr := ⟨((h.played m hm).failed hr).1, ((h.played m hm).failed hr).2.1⟩
  asked hphase := (h.played m hm).requests.trans (if_pos hphase)
  unasked hphase := ⟨(h.played m hm).requests.trans (if_neg hphase),
    fun E' => h.play_congr hphase m E E'⟩
  output _ hr := (h.played m hm).output hr

/-- An engine that has not been lost is closed once. -/
theorem Sound.count_close (h : Sound w cap lost sc) (E : Engine σ) :
    (lost → sc.ev.close.requests.count .close = 0) ∧
      (¬lost → sc.ev.close.requests.count .close = 1) := by
  have hclosed := (h.played (E := E) .close trivial).sound h
  rw [or_iff_right (by nofun)] at hclosed
  have hphase : sc.ev.close.phase = .closed := by
    unfold Evaluator.close
    split <;> rfl
  exact ⟨fun hlost => hclosed.unclosed (.inr hlost), fun hkept => hclosed.closed hphase hkept⟩

end Calls

/-- **The life of an evaluator.**  After every history of calls and of what an abandoned engine does
beside them, an evaluator holds its engine exactly while it is ready, and every further move goes as
a caller can rely on: what the engine does by the deadline decides what the caller is told and
whether the engine is kept.  Once the evaluator is closed at the end, its engine has been closed
once, or never if it broke down or was still at work at a deadline. -/
theorem life_cycle (E : Engine σ) {c : Config} {s : σ} {audited : Bool} {start : Evaluator σ}
    {history : List (Move × Reply)} {sc : Scene σ}
    (hbuild : build c (.ok s) audited = .ok start) (hruns : Runs E ⟨start, false⟩ history sc) :
    (sc.ev.engine.isSome = true ↔ sc.ev.phase = .ready) ∧
      (∀ m, sc.Allows m → Orderly E ⟨c.timeout, c.stopGrace⟩ c.maxBytes sc m (sc.play E m).1
        (sc.play E m).2) ∧
      (Lost E ⟨start, false⟩ history → sc.ev.close.requests.count .close = 0) ∧
      (¬Lost E ⟨start, false⟩ history → sc.ev.close.requests.count .close = 1) := by
  have h := hruns.sound (build_sound hbuild)
  exact ⟨h.held, h.orderly E, h.count_close E⟩

/-- An engine that writes its command, and ignores the signal to stop when it is told to wait. -/
def waiter : Engine Unit where
  eval _ _ _ command :=
    { output := Text.Utf8.encode command.toList
      action := ⟨if command = "wait" then none else some (0, .returned [] ()), none⟩ }
  diagnostics _ _ := []

/-- A command that returns, one that has to be abandoned, what the abandoned engine writes while the
caller goes on, and a command that is refused. -/
theorem life_cycle_abandoned :
    ∃ start sc history, build {} (.ok ()) false = .ok start ∧
      Runs waiter ⟨start, false⟩ history sc ∧ sc.astray = true ∧
      Lost waiter ⟨start, false⟩ history ∧
      (∀ m, sc.Allows m →
        Orderly waiter ⟨5000, 1000⟩ 65536 sc m (sc.play waiter m).1 (sc.play waiter m).2) ∧
      sc.ev.close.requests.count .close = 0 := by
  obtain ⟨filter, hvalidate⟩ : ∃ filter, Config.validate {} = .ok filter := ⟨_, rfl⟩
  let start : Evaluator Unit :=
    ⟨some (), .ready, ⟨filter, false⟩, ⟨5000, 1000⟩, .empty 65536, none, []⟩
  have hbuild : build {} (.ok ()) false = .ok start := by
    unfold build
    rw [hvalidate]
    rfl
  have hone := (Runs.start : Runs waiter ⟨start, false⟩ [] _).move (.eval "" "one") trivial
  have hwaiting := hone.move (.eval "" "wait") trivial
  have hruns := (hwaiting.move (.stray (.write [0])) rfl).move (.eval "" "two") trivial
  have hlost (r : Reply) : Lost waiter ⟨start, false⟩ ((.eval "" "wait", r) :: _) :=
    .now hone (.timedOut rfl rfl nofun)
  obtain ⟨-, horderly, hnever, -⟩ := life_cycle waiter hbuild hruns
  exact ⟨start, _, _, hbuild, hruns, rfl, (hlost _).before.before, horderly,
    hnever (hlost _).before.before⟩

end Evaluator
end GuardedRepl
