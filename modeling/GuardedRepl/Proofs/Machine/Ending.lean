import GuardedRepl.Proofs.Machine.Assembly

/-!
# How runs end

A run that a refusal or the signal to stop cuts off ends with the question that was answered so: all
questions before it were answered in favour of the run, and nothing happens after it.

**Results.**
* `Assembled.ended`: every run passes all its questions or is cut off in this way.
* `Assembled.polls_le`: questions are only ever added.
-/

namespace GuardedRepl
namespace Machine

/-- The access that an effect asks for. -/
def Effect.access? : Effect → Option Access
  | .checked a => some a
  | .written _ _ => none

/-- The accesses that a log asks for, the first one first. -/
def asked (log : List Entry) : List Access :=
  log.reverse.filterMap fun e => e.effect.access?

@[simp] theorem asked_nil : asked [] = [] := rfl

@[simp] theorem asked_append (new old : List Entry) :
    asked (new ++ old) = asked old ++ asked new := by
  simp [asked]

@[simp] theorem asked_checked (polls : Nat) (a : Access) (log : List Entry) :
    asked (⟨polls, .checked a⟩ :: log) = asked log ++ [a] := by
  simp [asked, Effect.access?]

/-- What a run without a question adds to the log asks for nothing. -/
theorem asked_written {new : List Entry}
    (h : ∀ e ∈ new, ∃ stream text, e.effect = .written stream text) : asked new = [] := by
  rw [asked, List.filterMap_eq_nil_iff]
  intro e he
  obtain ⟨stream, text, hw⟩ := h e (List.mem_reverse.mp he)
  rw [hw]
  rfl

/-- Between two states every question was answered in favour of the run. -/
structure Passed (h : Host) (s t : State) : Prop where
  polls : s.progress.polls ≤ t.progress.polls
  patient : s.progress.polls = t.progress.polls ∨
    ∃ p : Progress, p.polls = t.progress.polls ∧ h.stops p = false
  log : ∃ new, t.effects = new ++ s.effects ∧
    t.progress.checks = s.progress.checks + (asked new).length ∧
    (∀ e ∈ new, s.progress.polls ≤ e.polls ∧ e.polls ≤ t.progress.polls) ∧
    ∀ j a, (asked new)[j]? = some a → h.gate (s.progress.checks + j) a = none

namespace Passed

variable {h : Host} {s t u : State}

theorem of_quiet (hq : s.Quiet t) : Passed h s t := by
  obtain ⟨new, hnew, hall⟩ := hq.effects
  have hasked : asked new = [] := asked_written fun e he => (hall e he).2
  refine ⟨Nat.le_of_eq hq.polls.symm, Or.inl hq.polls.symm, new, hnew, ?_, ?_, ?_⟩
  · rw [hasked, hq.checks]
    rfl
  · intro e he
    rw [hq.polls, (hall e he).1]
    exact ⟨Nat.le_refl _, Nat.le_refl _⟩
  · simp [hasked]

theorem refl (h : Host) (s : State) : Passed h s s :=
  of_quiet (.of_eq rfl rfl rfl)

theorem trans (hst : Passed h s t) (htu : Passed h t u) : Passed h s u := by
  obtain ⟨hp₁, hq₁, new₁, he₁, hc₁, hs₁, ha₁⟩ := hst
  obtain ⟨hp₂, hq₂, new₂, he₂, hc₂, hs₂, ha₂⟩ := htu
  refine ⟨Nat.le_trans hp₁ hp₂, ?_, new₂ ++ new₁, ?_, ?_, ?_, ?_⟩
  · rcases hq₂ with hq₂ | hq₂
    · rw [← hq₂]
      exact hq₁
    · exact Or.inr hq₂
  · rw [he₂, he₁, List.append_assoc]
  · rw [hc₂, hc₁, asked_append, List.length_append, Nat.add_assoc]
  · intro e he
    rcases List.mem_append.mp he with he | he
    · exact ⟨Nat.le_trans hp₁ (hs₂ e he).1, (hs₂ e he).2⟩
    · exact ⟨(hs₁ e he).1, Nat.le_trans (hs₁ e he).2 hp₂⟩
  · intro j a hj
    rw [asked_append] at hj
    by_cases hlt : j < (asked new₁).length
    · rw [List.getElem?_append_left hlt] at hj
      exact ha₁ j a hj
    · rw [List.getElem?_append_right (by omega)] at hj
      have := ha₂ _ a hj
      rwa [hc₁, show s.progress.checks + (asked new₁).length + (j - (asked new₁).length) =
        s.progress.checks + j by omega] at this

/-- The local variables and the session play no part. -/
theorem congr {s' t' : State} (hst : Passed h s t) (hs : s'.progress = s.progress)
    (hse : s'.effects = s.effects) (ht : t'.progress = t.progress) (hte : t'.effects = t.effects) :
    Passed h s' t' := by
  obtain ⟨hp, hq, hl⟩ := hst
  exact ⟨by rwa [hs, ht], by rwa [hs, ht], by rwa [hs, ht, hse, hte]⟩

end Passed

/-- The same host, which allows everything and has fuel to spare. -/
def Host.opened (h : Host) : Host :=
  { h with gate := fun _ _ => none, stops := fun _ => false, fuel := h.fuel + 1 }

/-- A run is cut off by its host `h` where `g` would let it go on: its last act is the question that
was answered against it, and every question before was answered in its favour. -/
inductive CutOff {α : Type} (h g : Host) (s : State) : Except Interrupt α × State → Prop
  | denied {t u : State} {a : Access} {d : Denial} :
      Passed h s t → h.gate t.progress.checks a = some d → g.gate t.progress.checks a = none →
      u.progress.polls = t.progress.polls → u.progress.checks = t.progress.checks + 1 →
      u.effects = ⟨t.progress.polls, .checked a⟩ :: t.effects →
      CutOff h g s (.error (.thrown (.denied d)), u)
  | stopped {t u : State} :
      Passed h s t → h.stops u.progress = true → g.stops u.progress = false →
      u.progress.polls = t.progress.polls + 1 → u.progress.checks = t.progress.checks →
      u.effects = t.effects → CutOff h g s (.error .stopped, u)
  | exhausted {t : State} :
      Passed h s t → h.fuel < g.fuel → CutOff h g s (.error .exhausted, t)

namespace CutOff

variable {α β : Type} {h g : Host} {s t : State}

/-- What comes before a run may be added to it. -/
theorem after (hst : Passed h s t) {r : Except Interrupt α × State} (hr : CutOff h g t r) :
    CutOff h g s r := by
  cases hr with
  | denied hp hg ho hpolls hchecks heff =>
      exact .denied (hst.trans hp) hg ho hpolls hchecks heff
  | stopped hp hs ho hpolls hchecks heff =>
      exact .stopped (hst.trans hp) hs ho hpolls hchecks heff
  | exhausted hp hlt => exact .exhausted (hst.trans hp) hlt

/-- Where a part of a run is cut off, the whole is. -/
theorem error {r : Except Interrupt α × State} (hr : CutOff h g s r) :
    ∃ e, r.1 = .error e ∧ CutOff h g s ((.error e : Except Interrupt β), r.2) := by
  cases hr with
  | denied hp hg ho hpolls hchecks heff =>
      exact ⟨_, rfl, .denied hp hg ho hpolls hchecks heff⟩
  | stopped hp hs ho hpolls hchecks heff =>
      exact ⟨_, rfl, .stopped hp hs ho hpolls hchecks heff⟩
  | exhausted hp hlt => exact ⟨_, rfl, .exhausted hp hlt⟩

theorem congr {s' t' : State} {r : Except Interrupt α} (hr : CutOff h g s (r, t))
    (hs : s'.progress = s.progress) (hse : s'.effects = s.effects)
    (ht : t'.progress = t.progress) (hte : t'.effects = t.effects) : CutOff h g s' (r, t') := by
  cases hr with
  | denied hp hg ho hpolls hchecks heff =>
      exact .denied (hp.congr hs hse rfl rfl) hg ho (ht ▸ hpolls) (ht ▸ hchecks) (hte ▸ heff)
  | stopped hp hstop ho hpolls hchecks heff =>
      exact .stopped (hp.congr hs hse rfl rfl) (ht ▸ hstop) (ht ▸ ho) (ht ▸ hpolls)
        (ht ▸ hchecks) (hte ▸ heff)
  | exhausted hp hlt => exact .exhausted (hp.congr hs hse ht hte) hlt

end CutOff

/-- The ways in which a run ends: nothing was answered against it, or it was cut off. -/
inductive Ended {α : Type} (h : Host) (s : State) : Except Interrupt α × State → Prop
  | passed {r : Except Interrupt α} {t : State} :
      Passed h s t → r ≠ .error .stopped → Ended h s (r, t)
  | cutOff {r : Except Interrupt α × State} : CutOff h h.opened s r → Ended h s r

namespace Ended

variable {α β : Type} {h : Host} {s t : State}

theorem after (hst : Passed h s t) {r : Except Interrupt α × State} (hr : Ended h t r) :
    Ended h s r := by
  cases hr with
  | passed hp hne => exact .passed (hst.trans hp) hne
  | cutOff hc => exact .cutOff (hc.after hst)

/-- The end of an interrupted run is that of the whole. -/
theorem error {e : Interrupt} (hr : Ended h s ((.error e : Except Interrupt α), t)) :
    Ended h s ((.error e : Except Interrupt β), t) := by
  cases hr with
  | passed hp hne => exact .passed hp fun he => hne (by cases he; rfl)
  | cutOff hc =>
      obtain ⟨e', he, hc'⟩ := hc.error (β := β)
      cases he
      exact .cutOff hc'

theorem ok {a : α} (hr : Ended h s (.ok a, t)) : Passed h s t := by
  cases hr with
  | passed hp _ => exact hp
  | cutOff hc => cases hc

theorem congr {s' t' : State} {r : Except Interrupt α} (hr : Ended h s (r, t))
    (hs : s'.progress = s.progress) (hse : s'.effects = s.effects)
    (ht : t'.progress = t.progress) (hte : t'.effects = t.effects) : Ended h s' (r, t') := by
  cases hr with
  | passed hp hne => exact .passed (hp.congr hs hse ht hte) hne
  | cutOff hc => exact .cutOff (hc.congr hs hse ht hte)

end Ended

/-- A state that comes after another one in a run: entries are only ever added to the log. -/
structure Later (s t : State) : Prop where
  polls : s.progress.polls ≤ t.progress.polls
  log : ∃ new, t.effects = new ++ s.effects ∧ ∀ e ∈ new, s.progress.polls ≤ e.polls

namespace Later

variable {h g : Host} {s t u : State}

theorem refl (s : State) : Later s s :=
  ⟨Nat.le_refl _, [], rfl, fun _ he => absurd he List.not_mem_nil⟩

theorem trans (hst : Later s t) (htu : Later t u) : Later s u := by
  obtain ⟨hp₁, new₁, he₁, ha₁⟩ := hst
  obtain ⟨hp₂, new₂, he₂, ha₂⟩ := htu
  refine ⟨Nat.le_trans hp₁ hp₂, new₂ ++ new₁, by rw [he₂, he₁, List.append_assoc], ?_⟩
  intro e he
  rcases List.mem_append.mp he with he | he
  · exact Nat.le_trans hp₁ (ha₂ e he)
  · exact ha₁ e he

theorem congr {s' t' : State} (hst : Later s t) (hs : s'.progress = s.progress)
    (hse : s'.effects = s.effects) (ht : t'.progress = t.progress) (hte : t'.effects = t.effects) :
    Later s' t' := by
  obtain ⟨hp, hl⟩ := hst
  exact ⟨by rwa [hs, ht], by rwa [hs, hse, hte]⟩

theorem of_passed (hst : Passed h s t) : Later s t := by
  obtain ⟨new, he, -, hs, -⟩ := hst.log
  exact ⟨hst.polls, new, he, fun e hmem => (hs e hmem).1⟩

theorem of_cutOff {α : Type} {r : Except Interrupt α × State} (hr : CutOff h g s r) :
    Later s r.2 := by
  cases hr with
  | @denied t u a d hp _ _ hpolls _ heff =>
      have hle : t.progress.polls ≤ u.progress.polls := Nat.le_of_eq hpolls.symm
      exact (of_passed hp).trans ⟨hle, [⟨t.progress.polls, .checked a⟩], heff, by simp⟩
  | @stopped t u hp _ _ hpolls _ heff =>
      have hle : t.progress.polls ≤ u.progress.polls := by omega
      exact (of_passed hp).trans ⟨hle, [], heff, by simp⟩
  | exhausted hp _ => exact of_passed hp

theorem of_ended {α : Type} {r : Except Interrupt α × State} (hr : Ended h s r) :
    Later s r.2 := by
  cases hr with
  | passed hp _ => exact of_passed hp
  | cutOff hc => exact of_cutOff hc

end Later

namespace Run

variable {α : Type} {R : State → State → Prop}

theorem ended_poll (h : Host) (s : State) : Ended h s (poll h s) := by
  simp only [poll]
  split
  · rename_i hstop
    exact .cutOff (.stopped (.refl h s) hstop rfl rfl rfl rfl)
  · rename_i hgo
    have hgo : h.stops { s.progress with polls := s.progress.polls + 1 } = false :=
      Bool.eq_false_iff.mpr hgo
    refine .passed ⟨Nat.le_succ _, Or.inr ⟨_, rfl, hgo⟩, [], rfl, rfl, ?_, ?_⟩ ?_
    all_goals simp

theorem ended_check (a : Access) (h : Host) (s : State) : Ended h s (check a h s) := by
  simp only [check]
  cases hgate : h.gate s.progress.checks a with
  | some d => exact .cutOff (.denied (.refl h s) hgate rfl rfl rfl rfl)
  | none =>
      refine .passed ⟨Nat.le_refl _, Or.inl rfl, [⟨s.progress.polls, .checked a⟩], rfl, rfl,
        ?_, ?_⟩ ?_
      · simp
      · intro j b hj
        have hasked : asked [⟨s.progress.polls, .checked a⟩] = [a] := rfl
        rw [hasked] at hj
        cases j with
        | zero =>
            cases hj
            exact hgate
        | succ j => simp at hj
      · simp

/-- A loop ends like its rounds. -/
theorem ended_rounds {round : Run Bool} {h : Host} (hround : ∀ s, Ended h s (round h s)) (n : Nat)
    (s : State) : Ended h s (rounds round n h s) := by
  induction n generalizing s with
  | zero => exact .passed (.refl h s) (by simp)
  | succ n ih =>
      have hr := hround s
      rcases rounds_succ_cases round n h s with ⟨t, ht, heq⟩ | ⟨t, ht, heq⟩ | ⟨e, t, ht, heq⟩ <;>
        rw [ht] at hr <;> rw [heq]
      · exact (ih t).after hr.ok
      · exact .passed hr.ok (by simp)
      · exact hr.error

/-- **How runs end.**  The induction is on the way in which the run is put together. -/
theorem Assembled.ended {x : Run α} (hx : Assembled R x) (h : Host) (s : State) :
    Ended h s (x h s) := by
  induction hx generalizing s with
  | step hl _ => exact .passed (.of_quiet (hl.quiet h s)) (hl.ends h s).1
  | poll => exact ended_poll h s
  | check a => exact ended_check a h s
  | @bind α β x f _ _ ihx ihf =>
      have hr := ihx s
      rcases bind_cases x f h s with ⟨a, t, ht, heq⟩ | ⟨e, t, ht, heq⟩ <;>
        rw [ht] at hr <;> rw [heq]
      · exact (ihf a t).after hr.ok
      · exact hr.error
  | inBlock _ ih =>
      rw [inBlock_eq]
      exact (ih { s with frames := [] :: s.frames }).congr rfl rfl rfl rfl
  | repeated _ _ ih => exact ended_rounds ih h.fuel s

theorem Assembled.polls_le {x : Run α} (hx : Assembled R x) (h : Host) (s : State) :
    s.progress.polls ≤ (x h s).2.progress.polls :=
  (Later.of_ended (hx.ended h s)).polls

end Run
end Machine
end GuardedRepl
