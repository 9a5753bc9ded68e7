import GuardedRepl.Proofs.Machine.Assembly

/-!
# Triples

What holds before and after a run.  A triple speaks of two hosts that differ at most in files which
the gate keeps out of sight: the run does the same under both.  It also says that no variable was
missing.

**Results.**
* `Meets.bind`, `Meets.inBlock`, `Meets.repeated`: how the triples of runs are put together.
-/

namespace GuardedRepl
namespace Machine

open Library (HostClass)

/-- Accesses that are refused whenever they are asked for. -/
abbrev Barrier := Access → Prop

/-- No file can be looked for: the classes that do so cannot be used. -/
def Barrier.HidesFiles (B : Barrier) : Prop :=
  B (.cls HostClass.file.name) ∧ B (.cls HostClass.files.name)

/-- Two hosts with the same answers, but for files that nobody can look for, behind a barrier. -/
structure Host.Twins (B : Barrier) (h g : Host) : Prop where
  gate : g.gate = h.gate
  stops : g.stops = h.stops
  clock : g.clock = h.clock
  processors : g.processors = h.processors
  fuel : g.fuel = h.fuel
  files : B.HidesFiles ∨ g.files = h.files
  bars : ∀ {n : Nat} {a : Access}, B a → h.gate n a ≠ none

/-- A host is its own twin. -/
theorem Host.Twins.refl {B : Barrier} {h : Host} (bars : ∀ {n a}, B a → h.gate n a ≠ none) :
    h.Twins B h :=
  ⟨rfl, rfl, rfl, rfl, rfl, Or.inr rfl, bars⟩

/-- The state inside a new block. -/
def State.enter (s : State) : State :=
  { s with frames := [] :: s.frames }

/-- The state behind the innermost block. -/
def State.leave (s : State) : State :=
  { s with frames := s.frames.tail }

/-- A condition on states that questions do not touch. -/
structure State.Stable (P : State → Prop) : Prop where
  progress : ∀ {s : State} (p : Progress), P s → P { s with progress := p }
  checked : ∀ {s : State} (n : Nat) (a : Access), P s →
    P { s with effects := ⟨n, .checked a⟩ :: s.effects }

namespace Run

variable {α β : Type}

/-- From a state with `P` the run does the same under both hosts.  It ends in a state with `Q`, or
it is interrupted in a state with `E`, and not for want of a variable. -/
def Meets (h g : Host) (P : State → Prop) (x : Run α) (Q : α → State → Prop) (E : State → Prop) :
    Prop :=
  ∀ s, P s → x h s = x g s ∧
    (∀ a t, x h s = (.ok a, t) → Q a t) ∧
    ∀ e t, x h s = (.error e, t) → E t ∧ ∀ name, e ≠ .unbound name

namespace Meets

variable {h g : Host} {P P' : State → Prop} {Q Q' : α → State → Prop} {E E' : State → Prop}

theorem mono {x : Run α} (hx : Meets h g P' x Q' E') (hp : ∀ s, P s → P' s)
    (hq : ∀ a t, Q' a t → Q a t) (he : ∀ t, E' t → E t) : Meets h g P x Q E := by
  intro s hs
  obtain ⟨heq, hok, herr⟩ := hx s (hp s hs)
  refine ⟨heq, fun a t ht => hq a t (hok a t ht), fun e t ht => ?_⟩
  obtain ⟨hE, hbound⟩ := herr e t ht
  exact ⟨he t hE, hbound⟩

/-- What holds behind a run that came to its end. -/
theorem ok {x : Run α} (hx : Meets h g P x Q E) {s t : State} {a : α} (hs : P s)
    (hrun : x h s = (.ok a, t)) : Q a t :=
  (hx s hs).2.1 a t hrun

/-- What holds behind a run in either case. -/
theorem always {x : Run α} {S : State → Prop} (hx : Meets h g P x (fun _ => S) S) {s : State}
    (hs : P s) : x h s = x g s ∧ S (x h s).2 := by
  obtain ⟨heq, hok, herr⟩ := hx s hs
  refine ⟨heq, ?_⟩
  rcases hrun : x h s with ⟨e | a, t⟩
  · exact (herr e t hrun).1
  · exact hok a t hrun

/-- A fact that does not depend on the state may be used. -/
theorem assume {φ : Prop} {x : Run α} (hx : φ → Meets h g P x Q E) :
    Meets h g (fun s => P s ∧ φ) x Q E :=
  fun s hs => hx hs.2 s hs.1

theorem result {a : α} (hq : ∀ s, P s → Q a s) : Meets h g P (pure a) Q E := by
  refine fun s hs => ⟨rfl, fun b t ht => ?_, fun e t ht => by cases ht⟩
  cases ht
  exact hq s hs

theorem thrown {e : Exception} (he : ∀ s, P s → E s) :
    Meets h g P (Run.throw e : Run α) Q E := by
  refine fun s hs => ⟨rfl, fun b t ht => (by cases ht), fun e t ht => ?_⟩
  cases ht
  exact ⟨he s hs, fun name => by simp⟩

theorem lifted {x : Except Exception α} (hq : ∀ a, x = .ok a → ∀ s, P s → Q a s)
    (he : ∀ s, P s → E s) : Meets h g P (Run.lift x) Q E := by
  cases x with
  | ok a => exact result fun s hs => hq a rfl s hs
  | error e => exact thrown he

theorem bind {x : Run α} {f : α → Run β} {R : β → State → Prop} (hx : Meets h g P x Q E)
    (hf : ∀ a, Meets h g (Q a) (f a) R E) : Meets h g P (x >>= f) R E := by
  intro s hs
  obtain ⟨heq, hok, herr⟩ := hx s hs
  rcases bind_cases x f h s with ⟨a, t, ht, hh⟩ | ⟨e, t, ht, hh⟩ <;>
    rcases bind_cases x f g s with ⟨a', t', ht', hg⟩ | ⟨e', t', ht', hg⟩ <;>
      rw [← heq, ht] at ht' <;> cases ht' <;> rw [hh, hg]
  · exact hf a t (hok a t ht)
  · refine ⟨rfl, fun b u hu => (by cases hu), fun e' u hu => ?_⟩
    cases hu
    exact herr e t ht

theorem poll {B : Barrier} (hhosts : h.Twins B g) (hP : State.Stable P) :
    Meets h g P Run.poll (fun _ => P) P := by
  intro s hs
  simp only [Run.poll, hhosts.stops]
  refine ⟨trivial, fun a t ht => ?_, fun e t ht => ?_⟩
  · split at ht <;> cases ht
    exact hP.progress _ hs
  · split at ht <;> cases ht
    exact ⟨hP.progress _ hs, fun name => by simp⟩

/-- What is asked for and not refused is not behind the barrier. -/
theorem check {B : Barrier} (hhosts : h.Twins B g) (hP : State.Stable P) (a : Access) :
    Meets h g P (Run.check a) (fun _ s => P s ∧ ¬ B a) P := by
  intro s hs
  have hchecked := hP.checked s.progress.polls a (hP.progress
    { s.progress with checks := s.progress.checks + 1 } hs)
  simp only [Run.check, hhosts.gate]
  cases hgate : h.gate s.progress.checks a with
  | none =>
      refine ⟨trivial, fun b t ht => ?_, fun e t ht => by cases ht⟩
      cases ht
      exact ⟨hchecked, fun hB => hhosts.bars hB hgate⟩
  | some d =>
      refine ⟨trivial, fun b t ht => (by cases ht), fun e t ht => ?_⟩
      cases ht
      exact ⟨hchecked, fun name => by simp⟩

theorem doze {ms : Nat} (hP : State.Stable P) : Meets h g P (Run.doze ms) (fun _ => P) E := by
  refine fun s hs => ⟨rfl, fun a t ht => ?_, fun e t ht => by cases ht⟩
  cases ht
  exact hP.progress _ hs

theorem sleep {B : Barrier} (hhosts : h.Twins B g) (hP : State.Stable P) (ms : Nat) :
    Meets h g P (Run.sleep ms) (fun _ => P) P := by
  induction ms using Run.sleep.induct with
  | case1 ms ih =>
      rw [Run.sleep]
      refine bind (poll hhosts hP) fun _ => ?_
      split
      · exact result fun _ hs => hs
      · exact bind (doze hP) fun _ => ih ‹_›

theorem readClock {B : Barrier} (hhosts : h.Twins B g) (hP : State.Stable P) :
    Meets h g P Run.readClock (fun _ => P) E := by
  refine fun s hs => ⟨by simp only [Run.readClock, hhosts.clock], fun a t ht => ?_,
    fun e t ht => by cases ht⟩
  cases ht
  exact hP.progress _ hs

theorem processors {B : Barrier} (hhosts : h.Twins B g) :
    Meets h g P Run.processors (fun _ => P) E := by
  refine fun s hs => ⟨by simp only [Run.processors, hhosts.processors], fun a t ht => ?_,
    fun e t ht => by cases ht⟩
  cases ht
  exact hs

/-- Only files that can be looked for are the same under both hosts. -/
theorem files {B : Barrier} (hhosts : h.Twins B g) (hB : ¬ B.HidesFiles) :
    Meets h g P Run.files (fun _ => P) E := by
  have hfiles := hhosts.files.resolve_left hB
  refine fun s hs => ⟨by simp only [Run.files, hfiles], fun a t ht => ?_,
    fun e t ht => by cases ht⟩
  cases ht
  exact hs

theorem modify {f : State → State} (hf : ∀ s, P s → P' (f s)) :
    Meets h g P (Run.modify f) (fun _ => P') E := by
  refine fun s hs => ⟨rfl, fun a t ht => ?_, fun e t ht => by cases ht⟩
  cases ht
  exact hf s hs

theorem gets {f : State → α} : Meets h g P (Run.gets f) (fun _ => P) E := by
  refine fun s hs => ⟨rfl, fun a t ht => ?_, fun e t ht => by cases ht⟩
  cases ht
  exact hs

/-- A block, with a relation `R` that holds between the states before and after its body. -/
theorem inBlock {R : State → State → Prop} {x : Run α} (hx : Meets h g P' x Q' E') (hk : Keeps R x)
    (hp : ∀ s, P s → P' s.enter) (hq : ∀ a s t, P s → R s.enter t → Q' a t → Q a t.leave)
    (he : ∀ s t, P s → R s.enter t → E' t → E t.leave) : Meets h g P (Run.inBlock x) Q E := by
  intro s hs
  have hkeeps := hk h s.enter
  obtain ⟨heq, hok, herr⟩ := hx s.enter (hp s hs)
  have hrun (host : Host) : Run.inBlock x host s = ((x host s.enter).1, (x host s.enter).2.leave) :=
    inBlock_eq x host s
  rw [hrun h, hrun g, ← heq]
  generalize x h s.enter = r at hkeeps hok herr
  rcases r with ⟨e | a, t⟩
  · refine ⟨rfl, fun b u hu => (by cases hu), fun e' u hu => ?_⟩
    cases hu
    obtain ⟨ht, hbound⟩ := herr e t rfl
    exact ⟨he s t hs hkeeps ht, hbound⟩
  · refine ⟨rfl, fun b u hu => ?_, fun e' u hu => by cases hu⟩
    cases hu
    exact hq a s t hs hkeeps (hok a t rfl)

theorem rounds {round : Run Bool} (hround : Meets h g P round (fun _ => P) P) (n : Nat) :
    ∀ s, P s → Run.rounds round n h s = Run.rounds round n g s ∧
      P (Run.rounds round n h s).2 ∧
      ∀ name, (Run.rounds round n h s).1 ≠ .error (.unbound name) := by
  induction n with
  | zero => exact fun s hs => ⟨rfl, hs, fun name => by simp [Run.rounds, Run.interrupt]⟩
  | succ n ih =>
      intro s hs
      obtain ⟨heq, hok, herr⟩ := hround s hs
      rcases rounds_succ_cases round n h s with ⟨t, ht, hh⟩ | ⟨t, ht, hh⟩ | ⟨e, t, ht, hh⟩ <;>
        rcases rounds_succ_cases round n g s with
          ⟨t', ht', hg⟩ | ⟨t', ht', hg⟩ | ⟨e', t', ht', hg⟩ <;>
          rw [← heq, ht] at ht' <;> cases ht' <;> rw [hh, hg]
      · exact ih t (hok _ t ht)
      · exact ⟨rfl, hok _ t ht, fun name => by simp⟩
      · obtain ⟨hE, hbound⟩ := herr e t ht
        exact ⟨rfl, hE, fun name hname => by cases hname; exact hbound name rfl⟩

/-- What every round keeps, the loop keeps. -/
theorem repeated {B : Barrier} (hhosts : h.Twins B g) {round : Run Bool}
    (hround : Meets h g P round (fun _ => P) P) :
    Meets h g P (Run.repeated round) (fun _ => P) P := by
  intro s hs
  have hrun : Run.repeated round g s = Run.rounds round h.fuel g s := by
    rw [← hhosts.fuel]
    rfl
  obtain ⟨heq, hkeeps, hbound⟩ := rounds hround h.fuel s hs
  have hloop : Run.repeated round h s = Run.rounds round h.fuel h s := rfl
  rw [hrun, hloop]
  refine ⟨heq, fun a t ht => ?_, fun e t ht => ?_⟩
  · rwa [ht] at hkeeps
  · rw [ht] at hkeeps hbound
    exact ⟨hkeeps, fun name he => hbound name (by rw [he])⟩

end Meets

end Run
end Machine
end GuardedRepl
