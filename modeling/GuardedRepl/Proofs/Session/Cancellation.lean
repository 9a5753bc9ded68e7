import GuardedRepl.Proofs.Machine.Lockstep
import GuardedRepl.Proofs.Machine.Programs
import GuardedRepl.Proofs.Session.Fragments

/-!
# Forced stops

A snippet need not come to an end of its own accord, but it asks again and again whether to stop.
The first time that the answer is yes is the last time that it asks: the run ends there, and what it
did before is what it would have done anyway.

Between two questions a run goes on by itself or waits for the host, which answers: it sleeps no
longer than it is told to, and a file that it reads has an end.

**Results.**
* `forced_stop`: a snippet that the host stops ends with that question, and a snippet that asks less
  often is not touched.
-/

namespace GuardedRepl
namespace Machine

/-- The same host, which says to stop at every question but the first `n`. -/
def Host.stoppedAfter (h : Host) (n : Nat) : Host :=
  { h with stops := fun p => n < p.polls }

/-- The same host, which never says to stop. -/
def Host.unstopped (h : Host) : Host :=
  { h with stops := fun _ => false }

section Runs

variable {α : Type} {R : State → State → Prop} {x : Run α} {h : Host} {n : Nat} {s : State}

theorem laxer_unstopped (h : Host) (n : Nat) : (h.stoppedAfter n).Laxer h.unstopped where
  world := ⟨rfl, rfl, rfl⟩
  gate := id
  stops hp := nomatch hp
  fuel := Nat.le_refl _

/-- As long as the questions are answered in favour of a run, there are at most `n` of them. -/
theorem polls_le_of_passed {t : State} (hp : Passed (h.stoppedAfter n) s t)
    (hs : s.progress.polls ≤ n) : t.progress.polls ≤ n := by
  rcases hp.patient with heq | ⟨p, heq, hgo⟩
  · rw [← heq]
    exact hs
  · rw [← heq]
    exact Nat.le_of_not_lt (of_decide_eq_false hgo)

/-- A run under a host that stops it is the run under a host that does not, or it was stopped at the
first question after `n` ones. -/
theorem stoppedAfter_cases (hx : Run.Assembled R x) (hs : s.progress.polls ≤ n)
    (hlog : s.effects = []) :
    (x (h.stoppedAfter n) s = x h.unstopped s ∧ (x h.unstopped s).2.progress.polls ≤ n) ∨
      ((x (h.stoppedAfter n) s).1 = .error .stopped ∧
        (x (h.stoppedAfter n) s).2.progress.polls = n + 1 ∧
        (∀ e ∈ (x (h.stoppedAfter n) s).2.effects, e.polls ≤ n) ∧
        Later (x (h.stoppedAfter n) s).2 (x h.unstopped s).2) := by
  rcases hx.lockstep (laxer_unstopped h n) s with heq | ⟨hcut, hlater⟩
  · refine Or.inl ⟨heq, ?_⟩
    have hfree := hx.ended h.unstopped s
    have hend := hx.ended (h.stoppedAfter n) s
    rw [heq] at hend
    generalize x h.unstopped s = r at hfree hend ⊢
    cases hend with
    | passed hp _ => exact polls_le_of_passed hp hs
    | cutOff hcut =>
        cases hcut with
        | denied hp _ _ hpolls _ _ =>
            rw [hpolls]
            exact polls_le_of_passed hp hs
        | exhausted hp _ => exact polls_le_of_passed hp hs
        | stopped _ _ _ _ _ _ =>
            -- The run is the same under a host that never stops it, so it was not stopped.
            cases hfree with
            | passed _ hne => exact absurd rfl hne
            | cutOff hcut =>
                cases hcut with
                | stopped _ hstop _ _ _ _ => cases hstop
  · right
    generalize x (h.stoppedAfter n) s = r at hcut hlater ⊢
    cases hcut with
    | denied _ hh hg _ _ _ => exact absurd (hh.symm.trans hg) (by simp)
    | exhausted _ hlt => exact absurd hlt (Nat.lt_irrefl _)
    | @stopped t u hp hstop _ hpolls _ heff =>
        have hle := polls_le_of_passed hp hs
        have hlt : n < u.progress.polls := of_decide_eq_true hstop
        obtain ⟨new, hnew, -, hstamps, -⟩ := hp.log
        rw [hlog, List.append_nil] at hnew
        refine ⟨rfl, by simp only; omega, fun e he => ?_, hlater⟩
        rw [heff, hnew] at he
        exact Nat.le_trans (hstamps e he).2 hle

/-- What was done before the question that stopped a run is what the other run did before it. -/
theorem effects_of_later {t u : State} (hlater : Later t u) (hpolls : t.progress.polls = n + 1)
    (hstamps : ∀ e ∈ t.effects, e.polls ≤ n) : t.effects = u.effects.filter (·.polls ≤ n) := by
  obtain ⟨new, hnew, hafter⟩ := hlater.log
  -- What the other run did after the question carries a later stamp.
  have hnone : new.filter (·.polls ≤ n) = [] := by
    refine List.filter_eq_nil_iff.mpr fun e he hle => ?_
    have hge := hafter e he
    have hle := of_decide_eq_true hle
    omega
  rw [hnew, List.filter_append, hnone, List.nil_append]
  exact (List.filter_eq_self.mpr fun e he => decide_eq_true (hstamps e he)).symm

/-- A host that stops a run does so before the fuel runs out. -/
theorem stoppedAfter_ends (hx : Run.Assembled R x) (hs : s.progress.polls ≤ n)
    (hfuel : n < s.progress.polls + h.fuel) :
    (x (h.stoppedAfter n) s).1 ≠ .error .exhausted := by
  intro hexhausted
  have hfull := hx.exhausted s hexhausted
  have hend := hx.ended (h.stoppedAfter n) s
  have hless : ∀ {t : State}, Passed (h.stoppedAfter n) s t → ¬ s.progress.polls + h.fuel ≤
      t.progress.polls := by
    intro t hp hle
    have := polls_le_of_passed hp hs
    omega
  generalize x (h.stoppedAfter n) s = r at hexhausted hfull hend
  cases hend with
  | passed hp _ => exact hless hp hfull
  | cutOff hcut =>
      cases hcut with
      | exhausted hp _ => exact hless hp hfull
      | denied => cases hexhausted
      | stopped => cases hexhausted

end Runs

end Machine

namespace Interpreter

open Machine

/-- A snippet was stopped at the first question after `n` ones, and `whole` is how it would go
on. -/
structure EndsStopped (snippet : Snippet) (n : Nat) (cut whole : Portion) : Prop where
  event : cut.events =
    [{ snippet, status := .valid, value := none,
       exception := some ⟨"Stopped", "evaluation stopped by host"⟩ }]
  isStopped : cut.isStopped = true
  polls : cut.interpreter.progress.polls = n + 1
  effects : cut.effects = whole.effects.filter (·.polls ≤ n)

section Snippets

variable {i : Interpreter} {text : List Char} {snippet : Snippet} {p : Program.TopLevel}
  {n fuel : Nat}

/-- A snippet that the host stops ends, and more fuel makes no difference to it. -/
theorem run_stoppedAfter_ends (i : Interpreter) (h : Host) (snippet : Snippet)
    (p : Program.TopLevel) (hfuel : n < fuel) :
    (runTop snippet p ((h.stoppedAfter (i.progress.polls + n)).withFuel fuel) i.start).1 ≠
        .error .exhausted ∧
      runTop snippet p ((h.stoppedAfter (i.progress.polls + n)).withFuel fuel) i.start =
        runTop snippet p ((h.stoppedAfter (i.progress.polls + n)).withFuel (n + 1)) i.start := by
  have hx := assembled_runTop snippet p
  have hends (m : Nat) (hm : n < m) :=
    stoppedAfter_ends (h := h.withFuel m) (n := i.progress.polls + n) (s := i.start) hx
      (Nat.le_add_right _ _) (Nat.add_lt_add_left hm _)
  refine ⟨hends fuel hfuel, ?_⟩
  rcases hx.fuel_mono (h := h.stoppedAfter (i.progress.polls + n)) i.start hfuel with
    heq | ⟨hexhausted, -⟩
  · exact heq
  · exact absurd hexhausted (hends (n + 1) (Nat.lt_succ_self n))

/-- **Forced stops.**  A snippet ends if the host says to stop at every question but the first `n`.
If it asks at most so often in a run that is not stopped, it ends like that run.  Otherwise the
question after these is its last act, and the stop is what it reports. -/
theorem forced_stop (haccepts : i.Accepts text snippet p) (h : Host) (n : Nat)
    (hfuel : n < fuel) :
    let stopping := h.stoppedAfter (i.progress.polls + n)
    let cut := i.evalFragment (stopping.withFuel fuel) text
    let whole := i.evalFragment (h.unstopped.withFuel fuel) text
    ((runTop snippet p (stopping.withFuel fuel) i.start).1 ≠ .error .exhausted ∧
        cut = i.evalFragment (stopping.withFuel (n + 1)) text) ∧
      (whole.interpreter.progress.polls ≤ i.progress.polls + n → cut = whole) ∧
      (i.progress.polls + n < whole.interpreter.progress.polls →
        (runTop snippet p (stopping.withFuel fuel) i.start).1 = .error .stopped ∧
          EndsStopped snippet (i.progress.polls + n) cut whole) := by
  intro stopping cut whole
  obtain ⟨ds, heval⟩ := haccepts.evalFragment_eq
  have hx := assembled_runTop snippet p
  obtain ⟨hends, hsame⟩ := run_stoppedAfter_ends i h snippet p hfuel
  refine ⟨⟨hends, ?_⟩, ?_⟩
  · simp only [cut, heval]
    exact run_congr hsame
  · simp only [cut, whole, heval]
    rcases stoppedAfter_cases (h := h.withFuel fuel) (n := i.progress.polls + n) (s := i.start) hx
      (Nat.le_add_right _ _) rfl with ⟨heq, hle⟩ | ⟨hstopped, hpolls, hstamps, hlater⟩
    · exact ⟨fun _ => run_congr heq, fun hlt => absurd hlt (Nat.not_lt.mpr hle)⟩
    · have hmore := hlater.polls
      rw [hpolls] at hmore
      refine ⟨fun hle => absurd hmore (Nat.not_le.mpr (Nat.lt_succ_of_le hle)), fun _ => ?_⟩
      refine ⟨hstopped, ?_, ?_, hpolls, effects_of_later hlater hpolls hstamps⟩
      · exact congrArg (fun outcome => (eventsOf snippet outcome).reverse) hstopped
      · exact run_isStopped hstopped

/-- A loop without an end is stopped at its fourth question. -/
theorem forced_stop_loop :
    ∃ snippet p, Accepts {} "while (true) {}".toList snippet p ∧ 3 < 8 ∧
      3 < (evalFragment {} (Host.bare.unstopped.withFuel 8)
        "while (true) {}".toList).interpreter.progress.polls ∧
      EndsStopped snippet 3
        (evalFragment {} ((Host.bare.stoppedAfter 3).withFuel 8) "while (true) {}".toList)
        (evalFragment {} (Host.bare.unstopped.withFuel 8) "while (true) {}".toList) := by
  have hmany : 3 < (evalFragment {} (Host.bare.unstopped.withFuel 8)
      "while (true) {}".toList).interpreter.progress.polls := by decide +kernel
  rcases evalFragment_cases {} "while (true) {}".toList with
    ⟨snippet, p, ds, haccepts, -⟩ | ⟨snippet, ds, heq⟩
  · have hstop := forced_stop haccepts .bare 3 (show 3 < 8 by decide)
    rw [show (({} : Interpreter).progress.polls + 3) = 3 from rfl] at hstop
    exact ⟨snippet, p, haccepts, by decide, hmany, (hstop.2.2 hmany).2⟩
  · rw [heq] at hmany
    exact absurd hmany (Nat.not_lt_zero 3)

end Snippets

end Interpreter
end GuardedRepl
