import GuardedRepl.Proofs.Machine.Ending

/-!
# Runs in lockstep

Of two hosts in the same world the laxer one lets a run go on at least as far.  Under both hosts a
run does the same, up to the question at which the stricter host cuts it off.

**Results.**
* `Assembled.lockstep`: a run under the stricter host is the run under the laxer one, or it is cut
  off, and the other run goes on from there.
* `Assembled.fuel_mono`: more fuel changes nothing about a run that has enough of it.
-/

namespace GuardedRepl
namespace Machine

/-- The host `g` gives every answer of `h` that is against a run only if `h` does too. -/
structure Host.Laxer (h g : Host) : Prop where
  world : h.SameWorld g
  gate : ∀ {n : Nat} {a : Access} {d : Denial}, g.gate n a = some d → h.gate n a = some d
  stops : ∀ {p : Progress}, g.stops p = true → h.stops p = true
  fuel : h.fuel ≤ g.fuel

/-- The same host with another amount of fuel. -/
def Host.withFuel (h : Host) (n : Nat) : Host :=
  { h with fuel := n }

namespace Run

variable {α β : Type} {R : State → State → Prop} {h g : Host}

/-- The run under `h` is that under `g`, or it is cut off where `g` lets it go on. -/
def Lockstep (h g : Host) (s : State) (x : Run α) : Prop :=
  x h s = x g s ∨ (CutOff h g s (x h s) ∧ Later (x h s).2 (x g s).2)

theorem lockstep_poll (hlax : h.Laxer g) (s : State) : Lockstep h g s poll := by
  unfold Lockstep
  simp only [poll]
  generalize hp : ({ s.progress with polls := s.progress.polls + 1 } : Progress) = p
  cases hh : h.stops p with
  | false =>
      cases hg : g.stops p with
      | false => exact Or.inl rfl
      | true =>
          rw [hlax.stops hg] at hh
          cases hh
  | true =>
      cases hg : g.stops p with
      | true => exact Or.inl rfl
      | false =>
          exact Or.inr ⟨.stopped (.refl h s) hh hg (hp ▸ rfl) (hp ▸ rfl) rfl, .refl _⟩

theorem lockstep_check (hlax : h.Laxer g) (a : Access) (s : State) :
    Lockstep h g s (check a) := by
  unfold Lockstep
  simp only [check]
  cases hg : g.gate s.progress.checks a with
  | some d =>
      rw [hlax.gate hg]
      exact Or.inl rfl
  | none =>
      cases hh : h.gate s.progress.checks a with
      | none => exact Or.inl rfl
      | some d => exact Or.inr ⟨.denied (.refl h s) hh hg rfl rfl rfl, .refl _⟩

theorem lockstep_bind {x : Run α} {f : α → Run β} {s : State} (hx : Assembled R x)
    (hf : ∀ a, Assembled R (f a)) (ihx : Lockstep h g s x)
    (ihf : ∀ a t, Lockstep h g t (f a)) : Lockstep h g s (x >>= f) := by
  have hend := hx.ended h s
  rcases ihx with heq | ⟨hcut, hlater⟩
  · rcases bind_cases x f g s with ⟨a, t, ht, hg⟩ | ⟨e, t, ht, hg⟩
    · have hh : (x >>= f) h s = f a h t := by
        rcases bind_cases x f h s with ⟨a', t', ht', hh⟩ | ⟨e, t', ht', hh⟩ <;>
          rw [heq, ht] at ht' <;> cases ht'
        exact hh
      rw [heq, ht] at hend
      unfold Lockstep
      rw [hh, hg]
      rcases ihf a t with heq' | ⟨hcut, hlater⟩
      · exact Or.inl heq'
      · exact Or.inr ⟨hcut.after hend.ok, hlater⟩
    · rcases bind_cases x f h s with ⟨a', t', ht', hh⟩ | ⟨e', t', ht', hh⟩ <;>
        rw [heq, ht] at ht' <;> cases ht'
      exact Or.inl (hh.trans hg.symm)
  · obtain ⟨e, he, hcut'⟩ := hcut.error (β := β)
    have hh : (x >>= f) h s = (.error e, (x h s).2) := by
      rcases bind_cases x f h s with ⟨a, t, ht, hh⟩ | ⟨e', t, ht, hh⟩ <;> rw [ht] at he <;> cases he
      rw [hh, ht]
    unfold Lockstep
    rw [hh]
    refine Or.inr ⟨hcut', ?_⟩
    -- The other run comes past the state of the cut in its first part, and goes on from there.
    rcases bind_cases x f g s with ⟨a, t, ht, hg⟩ | ⟨e', t, ht, hg⟩ <;>
      rw [ht] at hlater <;> rw [hg]
    · exact hlater.trans (.of_ended ((hf a).ended g t))
    · exact hlater

theorem lockstep_inBlock {x : Run α} {s : State}
    (ih : Lockstep h g { s with frames := [] :: s.frames } x) : Lockstep h g s (inBlock x) := by
  unfold Lockstep
  rw [inBlock_eq, inBlock_eq]
  rcases ih with heq | ⟨hcut, hlater⟩
  · rw [heq]
    exact Or.inl rfl
  · exact Or.inr ⟨hcut.congr rfl rfl rfl rfl, hlater.congr rfl rfl rfl rfl⟩

/-- The host with less fuel lets a loop take fewer rounds. -/
theorem lockstep_rounds {round : Run Bool} (hround : Assembled R round)
    (ih : ∀ s, Lockstep h g s round) {n m : Nat} (hnm : n ≤ m) (hfuel : n < m → h.fuel < g.fuel)
    (s : State) : rounds round n h s = rounds round m g s ∨
      (CutOff h g s (rounds round n h s) ∧
        Later (rounds round n h s).2 (rounds round m g s).2) := by
  induction n generalizing m s with
  | zero =>
      cases m with
      | zero => exact Or.inl rfl
      | succ m =>
          exact Or.inr ⟨.exhausted (.refl h s) (hfuel (Nat.succ_pos m)),
            .of_ended (ended_rounds (hround.ended g) (m + 1) s)⟩
  | succ n ihn =>
      obtain ⟨m, rfl⟩ : ∃ k, m = k + 1 := ⟨m - 1, by omega⟩
      have hend := hround.ended h s
      rcases ih s with heq | ⟨hcut, hlater⟩
      · rcases rounds_succ_cases round n h s with ⟨t, ht, hh⟩ | ⟨t, ht, hh⟩ | ⟨e, t, ht, hh⟩ <;>
          rcases rounds_succ_cases round m g s with
            ⟨t', ht', hg⟩ | ⟨t', ht', hg⟩ | ⟨e', t', ht', hg⟩ <;>
            rw [← heq, ht] at ht' <;> cases ht' <;> rw [hh, hg]
        · rw [ht] at hend
          rcases ihn (m := m) (by omega) (fun hlt => hfuel (by omega)) t with heq' | ⟨hcut, hlater⟩
          · exact Or.inl heq'
          · exact Or.inr ⟨hcut.after hend.ok, hlater⟩
        · exact Or.inl rfl
        · exact Or.inl rfl
      · obtain ⟨e, he, hcut'⟩ := hcut.error (β := Unit)
        have hh : rounds round (n + 1) h s = (.error e, (round h s).2) := by
          rcases rounds_succ_cases round n h s with ⟨t, ht, hh⟩ | ⟨t, ht, hh⟩ | ⟨e', t, ht, hh⟩ <;>
            rw [ht] at he <;> cases he
          rw [hh, ht]
        rw [hh]
        refine Or.inr ⟨hcut', hlater.trans ?_⟩
        rcases rounds_succ_cases round m g s with ⟨t, ht, hg⟩ | ⟨t, ht, hg⟩ | ⟨e', t, ht, hg⟩ <;>
          rw [ht, hg]
        · exact .of_ended (ended_rounds (hround.ended g) m t)
        · exact .refl t
        · exact .refl t

/-- **Runs in lockstep.**  The induction is on the way in which the run is put together. -/
theorem Assembled.lockstep (hlax : h.Laxer g) {x : Run α} (hx : Assembled R x) (s : State) :
    Lockstep h g s x := by
  induction hx generalizing s with
  | step hl _ => exact Or.inl (hl.world hlax.world s)
  | poll => exact lockstep_poll hlax s
  | check a => exact lockstep_check hlax a s
  | bind hx hf ihx ihf => exact lockstep_bind hx hf (ihx s) ihf
  | inBlock _ ih => exact lockstep_inBlock (ih _)
  | repeated hround _ ih => exact lockstep_rounds hround ih hlax.fuel id s

/-- More fuel changes nothing about a run that has enough of it, and lets others go on. -/
theorem Assembled.fuel_mono {x : Run α} (hx : Assembled R x) (s : State) {n m : Nat} (hnm : n ≤ m) :
    x (h.withFuel m) s = x (h.withFuel n) s ∨
      ((x (h.withFuel n) s).1 = .error .exhausted ∧
        Later (x (h.withFuel n) s).2 (x (h.withFuel m) s).2) := by
  have hlax : (h.withFuel n).Laxer (h.withFuel m) := ⟨⟨rfl, rfl, rfl⟩, id, id, hnm⟩
  have hnone {α : Type} {r : Except Interrupt α × State}
      (hr : CutOff (h.withFuel n) (h.withFuel m) s r) : r.1 = .error .exhausted := by
    cases hr with
    | denied _ hh hg _ _ _ =>
        rw [show (h.withFuel m).gate = (h.withFuel n).gate from rfl, hh] at hg
        cases hg
    | stopped _ hh hg _ _ _ =>
        rw [show (h.withFuel m).stops = (h.withFuel n).stops from rfl, hh] at hg
        cases hg
    | exhausted _ _ => rfl
  rcases hx.lockstep hlax s with heq | ⟨hcut, hlater⟩
  · exact Or.inl heq.symm
  · exact Or.inr ⟨hnone hcut, hlater⟩

/-- A loop that takes too many rounds has asked in each of them whether to stop. -/
theorem exhausted_rounds {round : Run Bool} (hround : Assembled R round) (hpaced : Paced round)
    (ih : ∀ s, (round h s).1 = .error .exhausted →
      s.progress.polls + h.fuel ≤ (round h s).2.progress.polls) (n : Nat) {s : State}
    (hs : (rounds round n h s).1 = .error .exhausted) :
    s.progress.polls + min n h.fuel ≤ (rounds round n h s).2.progress.polls := by
  induction n generalizing s with
  | zero => simp [rounds, interrupt]
  | succ n ihn =>
      have hpolls := hround.polls_le h s
      have hfull := ih s
      rcases rounds_succ_cases round n h s with ⟨t, ht, heq⟩ | ⟨t, ht, heq⟩ | ⟨e, t, ht, heq⟩ <;>
        rw [heq] at hs ⊢ <;> rw [ht] at hpolls hfull
      · have hlt := hpaced h s t ht
        have := ihn hs
        omega
      · cases hs
      · cases hs
        have := hfull rfl
        simp only at this ⊢
        omega

/-- A run that runs out of fuel has asked at least as often whether to stop. -/
theorem Assembled.exhausted {x : Run α} (hx : Assembled R x) (s : State)
    (hs : (x h s).1 = .error .exhausted) :
    s.progress.polls + h.fuel ≤ (x h s).2.progress.polls := by
  induction hx generalizing s with
  | step hl _ => exact absurd hs (hl.ends h s).2
  | poll =>
      simp only [Run.poll] at hs
      split at hs <;> cases hs
  | check a =>
      simp only [Run.check] at hs
      split at hs <;> cases hs
  | @bind α β x f hx hf ihx ihf =>
      have hpolls := hx.polls_le h s
      have hfull := ihx s
      rcases bind_cases x f h s with ⟨a, t, ht, heq⟩ | ⟨e, t, ht, heq⟩ <;>
        rw [heq] at hs ⊢ <;> rw [ht] at hpolls hfull
      · have := ihf a t hs
        simp only at hpolls
        omega
      · cases hs
        exact hfull rfl
  | inBlock _ ih => exact ih _ hs
  | repeated hround hpaced ih =>
      have := exhausted_rounds hround hpaced ih h.fuel hs
      rwa [Nat.min_self] at this

end Run
end Machine
end GuardedRepl
