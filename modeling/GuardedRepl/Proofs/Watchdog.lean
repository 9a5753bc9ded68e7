import GuardedRepl.Watchdog
import Mathlib.Logic.Relation
import Mathlib.Order.Bounds.Basic
import Mathlib.Tactic

/-!
# The watchdog, moment by moment

A watched run waits twice, first for the deadline and then, once the action has been told to stop,
for the end of the grace period.  At every moment it looks at the action before it looks at the
clock, and only if neither is at its end it lets the moment pass.  Where such a run ends is what the
watchdog reports.

**Results.**
* `Sound.step`, `Sound.run`: what is known of a run as long as it waits, and what at its end.
* `exists_ends_of_reaches`: the run comes to an end.
* `inTime_of_finished`, `late_of_timedOut`: what a report tells about the action.
* `deadline_law`: the outcome, the time it takes and the signals to stop.
-/

namespace GuardedRepl

variable {α : Type}

/-- The times at which an action ends that is told to stop at the given times: by itself, or by one
of the signals. -/
inductive Action.EndsAt (a : Action α) (signals : List Nat) : Nat → Prop
  | itself {t : Nat} {v : α} : a.finish = some (t, v) → EndsAt a signals t
  | told {s d : Nat} : s ∈ signals → a.stopDelay = some d → EndsAt a signals (s + d)

/-- The action has come to its end. -/
def Action.Ended (a : Action α) (signals : List Nat) (now : Nat) : Prop :=
  ∃ t, t ≤ now ∧ a.EndsAt signals t

namespace Watchdog

variable {w : Watchdog} {a : Action α}

/-! ## Runs -/

/-- What a watched run is waiting for. -/
inductive Stage (α : Type) where
  | waiting
  | stopping (limit : Nat)
  | over (outcome : Watched α)

/-- A watched run at a moment, with the times at which the action was told to stop. -/
structure Moment (α : Type) where
  now : Nat
  stage : Stage α
  signals : List Nat

/-- The steps of a watched run.  The action is looked at before the clock. -/
inductive Step (w : Watchdog) (a : Action α) : Moment α → Moment α → Prop
  | finish {now t : Nat} {v : α} {signals : List Nat} : a.finish = some (t, v) → t ≤ now →
      Step w a ⟨now, .waiting, signals⟩ ⟨now, .over (.finished v), signals⟩
  | wait {now : Nat} {signals : List Nat} : ¬a.Ended signals now → now < w.deadline →
      Step w a ⟨now, .waiting, signals⟩ ⟨now + 1, .waiting, signals⟩
  | signal {now : Nat} {signals : List Nat} : ¬a.Ended signals now → w.deadline ≤ now →
      Step w a ⟨now, .waiting, signals⟩ ⟨now, .stopping (now + w.grace), now :: signals⟩
  | stop {now limit : Nat} {signals : List Nat} : a.Ended signals now →
      Step w a ⟨now, .stopping limit, signals⟩ ⟨now, .over (.timedOut true), signals⟩
  | linger {now limit : Nat} {signals : List Nat} : ¬a.Ended signals now → now < limit →
      Step w a ⟨now, .stopping limit, signals⟩ ⟨now + 1, .stopping limit, signals⟩
  | abandon {now limit : Nat} {signals : List Nat} : ¬a.Ended signals now → limit ≤ now →
      Step w a ⟨now, .stopping limit, signals⟩ ⟨now, .over (.timedOut false), signals⟩

/-- A run reaches a moment. -/
def Reaches (w : Watchdog) (a : Action α) (m : Moment α) : Prop :=
  Relation.ReflTransGen (Step w a) ⟨0, .waiting, []⟩ m

/-- A run ends with an outcome at a time, and has told the action to stop at the given times. -/
def Ends (w : Watchdog) (a : Action α) (outcome : Watched α) (elapsed : Nat)
    (signals : List Nat) : Prop :=
  Reaches w a ⟨elapsed, .over outcome, signals⟩

/-- The action does not finish by the deadline. -/
def Late (w : Watchdog) (a : Action α) : Prop :=
  ∀ t v, a.finish = some (t, v) → w.deadline < t

/-- The action finishes by the deadline and yields a value. -/
def InTime (w : Watchdog) (a : Action α) (v : α) : Prop :=
  ∃ t, a.finish = some (t, v) ∧ t ≤ w.deadline

/-- An action that is told to stop at the deadline ends by the end of the grace period. -/
def Stops (w : Watchdog) (a : Action α) : Prop :=
  ∃ t, a.EndsAt [w.deadline] t ∧ t ≤ w.deadline + w.grace

/-- What is known of a run: at what time it is, that the action has not ended before, and when it
was told to stop. -/
inductive Sound (w : Watchdog) (a : Action α) : Moment α → Prop
  | waiting {now : Nat} : now ≤ w.deadline → (∀ t, a.EndsAt [] t → now ≤ t) →
      Sound w a ⟨now, .waiting, []⟩
  | stopping {now : Nat} : Late w a → now ≤ w.deadline + w.grace →
      (∀ t, a.EndsAt [w.deadline] t → now ≤ t) →
      Sound w a ⟨now, .stopping (w.deadline + w.grace), [w.deadline]⟩
  | finished {t : Nat} {v : α} : a.finish = some (t, v) → t ≤ w.deadline →
      Sound w a ⟨t, .over (.finished v), []⟩
  | stopped {now : Nat} : Late w a → IsLeast {t | a.EndsAt [w.deadline] t} now →
      now ≤ w.deadline + w.grace → Sound w a ⟨now, .over (.timedOut true), [w.deadline]⟩
  | abandoned : Late w a → (∀ t, a.EndsAt [w.deadline] t → w.deadline + w.grace < t) →
      Sound w a ⟨w.deadline + w.grace, .over (.timedOut false), [w.deadline]⟩

theorem lt_of_not_ended {signals : List Nat} {now t : Nat} (h : ¬a.Ended signals now)
    (ht : a.EndsAt signals t) : now < t :=
  not_le.mp fun hle => h ⟨t, hle, ht⟩

/-- A step from what is known leads to what is known. -/
theorem Sound.step {m m' : Moment α} (hm : Sound w a m) (hstep : Step w a m m') :
    Sound w a m' := by
  cases hm with
  | waiting hnow hbefore =>
    cases hstep with
    | finish hfinish hle =>
      have heq := le_antisymm hle (hbefore _ (.itself hfinish))
      subst heq
      exact .finished hfinish hnow
    | wait hgoes hlt => exact .waiting hlt fun t ht => lt_of_not_ended hgoes ht
    | signal hgoes hle =>
      -- The clock is looked at in every moment, so the deadline is met to the moment.
      have heq := le_antisymm hnow hle
      subst heq
      refine .stopping (fun t v hfinish => lt_of_not_ended hgoes (.itself hfinish)) (by omega) ?_
      rintro t (hfinish | ⟨hs, hd⟩)
      · exact (lt_of_not_ended hgoes (.itself hfinish)).le
      · rw [List.mem_singleton.mp hs]
        exact Nat.le_add_right _ _
  | stopping hlate hnow hbefore =>
    cases hstep with
    | stop hended =>
      obtain ⟨t, hle, ht⟩ := hended
      have heq := le_antisymm hle (hbefore t ht)
      subst heq
      exact .stopped hlate ⟨ht, hbefore⟩ hnow
    | linger hgoes hlt => exact .stopping hlate hlt fun t ht => lt_of_not_ended hgoes ht
    | abandon hgoes hle =>
      have heq := le_antisymm hnow hle
      subst heq
      exact .abandoned hlate fun t ht => lt_of_not_ended hgoes ht
  | finished => cases hstep
  | stopped => cases hstep
  | abandoned => cases hstep

theorem Sound.run {m : Moment α} (hrun : Reaches w a m) : Sound w a m := by
  induction hrun with
  | refl => exact .waiting (Nat.zero_le _) fun t _ => Nat.zero_le t
  | tail _ hstep ih => exact ih.step hstep

/-! ## The end of a run -/

/-- A bound on the steps that a run has still to make. -/
def Moment.rest (w : Watchdog) (m : Moment α) : Nat :=
  match m.stage with
  | .waiting => 2 * (w.deadline + w.grace - m.now) + 2
  | .stopping _ => 2 * (w.deadline + w.grace - m.now) + 1
  | .over _ => 0

theorem Step.rest_lt {m m' : Moment α} (hm : Sound w a m) (hstep : Step w a m m') :
    m'.rest w < m.rest w := by
  cases hm with
  | waiting hnow =>
    cases hstep <;> simp only [Moment.rest] <;> omega
  | stopping hlate hnow =>
    cases hstep <;> simp only [Moment.rest] <;> omega
  | finished => cases hstep
  | stopped => cases hstep
  | abandoned => cases hstep

/-- The run is over, or it goes on. -/
theorem Sound.over_or_step {m : Moment α} (hm : Sound w a m) :
    (∃ outcome, m.stage = .over outcome) ∨ ∃ m', Step w a m m' := by
  cases hm with
  | @waiting now =>
    right
    by_cases hended : a.Ended [] now
    · obtain ⟨t, hle, hfinish | ⟨hs, -⟩⟩ := hended
      · exact ⟨_, .finish hfinish hle⟩
      · exact absurd hs List.not_mem_nil
    · rcases lt_or_ge now w.deadline with hlt | hge
      · exact ⟨_, .wait hended hlt⟩
      · exact ⟨_, .signal hended hge⟩
  | @stopping now =>
    right
    by_cases hended : a.Ended [w.deadline] now
    · exact ⟨_, .stop hended⟩
    · rcases lt_or_ge now (w.deadline + w.grace) with hlt | hge
      · exact ⟨_, .linger hended hlt⟩
      · exact ⟨_, .abandon hended hge⟩
  | finished => exact .inl ⟨_, rfl⟩
  | stopped => exact .inl ⟨_, rfl⟩
  | abandoned => exact .inl ⟨_, rfl⟩

/-- Whatever moment a run has reached, it comes to an end. -/
theorem exists_ends_of_reaches {m : Moment α} (hrun : Reaches w a m) :
    ∃ outcome elapsed signals, Ends w a outcome elapsed signals := by
  induction hn : m.rest w using Nat.strong_induction_on generalizing m with
  | _ n ih =>
    rcases (Sound.run hrun).over_or_step with ⟨outcome, hover⟩ | ⟨m', hstep⟩
    · obtain ⟨now, stage, signals⟩ := m
      cases hover
      exact ⟨outcome, now, signals, hrun⟩
    · exact ih _ (hn ▸ hstep.rest_lt (Sound.run hrun)) (hrun.tail hstep) rfl

/-! ## The report -/

theorem late_or_inTime (w : Watchdog) (a : Action α) : Late w a ∨ ∃ v, InTime w a v := by
  by_cases hlate : Late w a
  · exact .inl hlate
  · simp only [Late, not_forall, not_lt] at hlate
    obtain ⟨t, v, hfinish, hle⟩ := hlate
    exact .inr ⟨v, t, hfinish, hle⟩

theorem InTime.not_late {v : α} (h : InTime w a v) : ¬Late w a := by
  obtain ⟨t, hfinish, hle⟩ := h
  exact fun hlate => absurd hle (not_le.mpr (hlate t v hfinish))

/-- An action finishes with one value. -/
theorem InTime.unique {v v' : α} (h : InTime w a v) (h' : InTime w a v') : v = v' := by
  obtain ⟨t, hfinish, -⟩ := h
  obtain ⟨t', hfinish', -⟩ := h'
  rw [hfinish] at hfinish'
  cases hfinish'
  rfl

/-- An action that finishes by the deadline needs no grace period. -/
theorem InTime.stops {v : α} (h : InTime w a v) : Stops w a := by
  obtain ⟨t, hfinish, hle⟩ := h
  exact ⟨t, .itself hfinish, le_trans hle (Nat.le_add_right _ _)⟩

theorem watch_of_inTime {t : Nat} {v : α} (hfinish : a.finish = some (t, v))
    (hle : t ≤ w.deadline) : w.watch a = ⟨.finished v, t, 0⟩ := by
  simp only [watch, hfinish, if_pos hle]

theorem watch_of_late (hlate : Late w a) : w.watch a = w.forceStop a := by
  unfold watch
  split
  · rename_i t v hfinish
    rw [if_neg (not_le.mpr (hlate t v hfinish))]
  · rfl

theorem endsAt_iff {s t : Nat} :
    a.EndsAt [s] t ↔ (∃ v, a.finish = some (t, v)) ∨ ∃ d, a.stopDelay = some d ∧ s + d = t := by
  constructor
  · rintro (hfinish | ⟨hs, hd⟩)
    · exact .inl ⟨_, hfinish⟩
    · exact .inr ⟨_, hd, by rw [List.mem_singleton.mp hs]⟩
  · rintro (⟨v, hfinish⟩ | ⟨d, hd, rfl⟩)
    · exact .itself hfinish
    · exact .told (List.mem_singleton.mpr rfl) hd

/-- An action that is told to stop ends at the first of its times, if there is one. -/
theorem endAfterStop_cases (s : Nat) (a : Action α) :
    (endAfterStop s a = none ∧ ∀ t, ¬a.EndsAt [s] t) ∨
      ∃ t, endAfterStop s a = some t ∧ IsLeast {t | a.EndsAt [s] t} t := by
  obtain ⟨finish, stopDelay⟩ := a
  simp only [endsAt_iff, endAfterStop]
  rcases finish with _ | ⟨t, v⟩ <;> rcases stopDelay with _ | d <;>
    simp only [reduceCtorEq, Option.some.injEq, Prod.mk.injEq, exists_false, false_and, or_false,
      false_or, exists_and_left, exists_eq', exists_eq_left', and_true]
  · exact ⟨trivial, fun _ => not_false⟩
  · exact ⟨rfl, fun t ht => ht.le⟩
  · exact ⟨rfl, fun t' ht => ht.le⟩
  · constructor
    · rcases min_choice t (s + d) with hmin | hmin
      · exact .inl hmin.symm
      · exact .inr hmin.symm
    · rintro t' (rfl | rfl)
      · exact min_le_left _ _
      · exact min_le_right _ _

/-- Whether an action stops can be computed. -/
instance (w : Watchdog) (a : Action α) : Decidable (Stops w a) :=
  decidable_of_iff ((endAfterStop w.deadline a).any (· ≤ w.deadline + w.grace) = true) <| by
    rcases endAfterStop_cases w.deadline a with ⟨hnone, hnever⟩ | ⟨t, hsome, hfirst⟩
    · simp [Stops, hnone, hnever]
    · rw [hsome, Option.any_some, decide_eq_true_iff]
      exact ⟨fun hle => ⟨t, hfirst.1, hle⟩, fun ⟨t', ht', hle⟩ => le_trans (hfirst.2 ht') hle⟩

/-- What a run has come to when it is over is what is reported of it. -/
theorem Sound.watch_eq {outcome : Watched α} {elapsed : Nat} {signals : List Nat}
    (h : Sound w a ⟨elapsed, .over outcome, signals⟩) :
    w.watch a = ⟨outcome, elapsed, signals.length⟩ := by
  cases h with
  | finished hfinish hle => exact watch_of_inTime hfinish hle
  | stopped hlate hleast hle =>
    rw [watch_of_late hlate, forceStop]
    rcases endAfterStop_cases w.deadline a with ⟨-, hnone⟩ | ⟨t, hsome, hfirst⟩
    · exact absurd hleast.1 (hnone elapsed)
    · rw [hsome, hfirst.unique hleast]
      simp only [if_pos hle, List.length_singleton]
  | abandoned hlate hafter =>
    rw [watch_of_late hlate, forceStop]
    rcases endAfterStop_cases w.deadline a with ⟨hnone, -⟩ | ⟨t, hsome, hfirst⟩
    · rw [hnone]
      rfl
    · rw [hsome]
      simp only [if_neg (not_le.mpr (hafter t hfirst.1)), List.length_singleton]

/-- How a run ends under a watchdog. -/
structure Law (w : Watchdog) (a : Action α) (outcome : Watched α) (elapsed : Nat)
    (signals : List Nat) : Prop where
  /-- A value is returned exactly if the action finishes by the deadline. -/
  finished : ∀ v, outcome = .finished v ↔ ∃ t, a.finish = some (t, v) ∧ t ≤ w.deadline
  /-- It is returned when the action finishes, and the action is not told to stop. -/
  inTime : ∀ t v, a.finish = some (t, v) → t ≤ w.deadline → elapsed = t ∧ signals = []
  /-- Otherwise the action is told to stop, once and at the deadline, and has no outcome of its own. -/
  timedOut : Late w a → signals = [w.deadline] ∧ ∃ stopped, outcome = .timedOut stopped
  /-- It is stopped exactly if it ends by the end of the grace period. -/
  stopped : Late w a → (outcome = .timedOut true ↔
    ∃ t, a.EndsAt [w.deadline] t ∧ t ≤ w.deadline + w.grace)
  /-- If it is stopped the run is over when it ends. -/
  atEnd : outcome = .timedOut true → IsLeast {t | a.EndsAt [w.deadline] t} elapsed
  /-- If it is not the run is over at the end of the grace period. -/
  atLimit : outcome = .timedOut false → elapsed = w.deadline + w.grace
  bounded : elapsed ≤ w.deadline + w.grace

theorem law_of_inTime {t : Nat} {v : α} (hfinish : a.finish = some (t, v))
    (hle : t ≤ w.deadline) : Law w a (.finished v) t [] where
  finished v' := by
    constructor
    · rintro ⟨⟩
      exact ⟨t, hfinish, hle⟩
    · rintro ⟨t', h', -⟩
      rw [hfinish] at h'
      cases h'
      rfl
  inTime t' v' h' _ := by
    rw [hfinish] at h'
    cases h'
    exact ⟨rfl, rfl⟩
  timedOut hlate := absurd hle (not_le.mpr (hlate t v hfinish))
  stopped hlate := absurd hle (not_le.mpr (hlate t v hfinish))
  atEnd h := by cases h
  atLimit h := by cases h
  bounded := le_trans hle (Nat.le_add_right _ _)

theorem law_of_late {stopped : Bool} {elapsed : Nat} (hlate : Late w a)
    (hstopped : stopped = true ↔ ∃ t, a.EndsAt [w.deadline] t ∧ t ≤ w.deadline + w.grace)
    (hend : stopped = true → IsLeast {t | a.EndsAt [w.deadline] t} elapsed)
    (hlimit : stopped = false → elapsed = w.deadline + w.grace) :
    Law w a (.timedOut stopped) elapsed [w.deadline] where
  finished v := by
    constructor
    · rintro ⟨⟩
    · rintro ⟨t, hfinish, hle⟩
      exact absurd hle (not_le.mpr (hlate t v hfinish))
  inTime t v hfinish hle := absurd hle (not_le.mpr (hlate t v hfinish))
  timedOut _ := ⟨rfl, stopped, rfl⟩
  stopped _ := by rw [Watched.timedOut.injEq, hstopped]
  atEnd h := hend (Watched.timedOut.inj h)
  atLimit h := hlimit (Watched.timedOut.inj h)
  bounded := by
    cases stopped with
    | true =>
      obtain ⟨t, ht, hle⟩ := hstopped.mp rfl
      exact le_trans ((hend rfl).2 ht) hle
    | false => exact (hlimit rfl).le

theorem Sound.law {outcome : Watched α} {elapsed : Nat} {signals : List Nat}
    (h : Sound w a ⟨elapsed, .over outcome, signals⟩) : Law w a outcome elapsed signals := by
  cases h with
  | finished hfinish hle => exact law_of_inTime hfinish hle
  | stopped hlate hleast hle =>
    refine law_of_late hlate ⟨fun _ => ⟨elapsed, hleast.1, hle⟩, fun _ => rfl⟩ (fun _ => hleast) ?_
    exact fun h => absurd h (by decide)
  | abandoned hlate hafter =>
    refine law_of_late hlate ⟨fun h => absurd h (by decide), ?_⟩ (fun h => absurd h (by decide))
      fun _ => rfl
    rintro ⟨t, ht, hle⟩
    exact absurd hle (not_le.mpr (hafter t ht))

/-- What is reported of a run obeys the law. -/
theorem law_watch (w : Watchdog) (a : Action α) :
    ∃ signals, Law w a (w.watch a).outcome (w.watch a).elapsed signals := by
  obtain ⟨outcome, elapsed, signals, hends⟩ := exists_ends_of_reaches (w := w) (a := a) .refl
  have hsound := Sound.run hends
  rw [hsound.watch_eq]
  exact ⟨signals, hsound.law⟩

/-- A value is reported if the action finishes by the deadline. -/
theorem inTime_of_finished {v : α} (h : (w.watch a).outcome = .finished v) : InTime w a v := by
  obtain ⟨signals, hlaw⟩ := law_watch w a
  exact (hlaw.finished v).mp h

/-- No value is reported if it does not, and then whether it has stopped in the grace period. -/
theorem late_of_timedOut {stopped : Bool} (h : (w.watch a).outcome = .timedOut stopped) :
    Late w a ∧ (stopped = true ↔ Stops w a) := by
  obtain ⟨signals, hlaw⟩ := law_watch w a
  rw [h] at hlaw
  have hlate : Late w a := by
    rcases late_or_inTime w a with hlate | ⟨v, hin⟩
    · exact hlate
    · exact nomatch (hlaw.finished v).mpr hin
  refine ⟨hlate, ?_⟩
  have hstopped := hlaw.stopped hlate
  rwa [Watched.timedOut.injEq] at hstopped

/-- **The law of the watchdog.**  Every run comes to an end, and ends as the watchdog reports.  It
returns what the action yields, when it finishes, exactly if that is by the deadline; otherwise the
action is told to stop once, at the deadline, and the run is over when it ends, or at the end of the
grace period. -/
theorem deadline_law (w : Watchdog) (a : Action α) :
    (∃ outcome elapsed signals, Ends w a outcome elapsed signals) ∧
      ∀ outcome elapsed signals, Ends w a outcome elapsed signals →
        w.watch a = ⟨outcome, elapsed, signals.length⟩ ∧ Law w a outcome elapsed signals := by
  refine ⟨exists_ends_of_reaches .refl, fun outcome elapsed signals hends => ?_⟩
  exact ⟨(Sound.run hends).watch_eq, (Sound.run hends).law⟩

/-- An action that ends by itself at the last moment of the grace period counts as stopped. -/
example : (Watchdog.mk 100 50).watch ⟨some (150, "late"), none⟩ = ⟨.timedOut true, 150, 1⟩ := by
  decide

end Watchdog
end GuardedRepl
