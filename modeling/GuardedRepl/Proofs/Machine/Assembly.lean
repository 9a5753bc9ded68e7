import GuardedRepl.Machine.Exec

/-!
# What programs are made of

Every program is put together from questions to the host and from local runs, which ask the host
neither whether to stop nor for an access.  What holds of these and passes on to runs in turn, to
blocks and to loops holds of every program.

**Results.**
* `bind_cases`, `rounds_succ_cases`: how a run of two parts, and how a loop, can go.
* `Assembled.observe`, `Assembled.modify`: reading off the state and changing it are local runs.
-/

namespace GuardedRepl
namespace Machine

/-- Hosts that differ at most in the accesses and the time that they allow. -/
structure Host.SameWorld (h₁ h₂ : Host) : Prop where
  clock : h₁.clock = h₂.clock
  processors : h₁.processors = h₂.processors
  files : h₁.files = h₂.files

/-- Between two states nothing was asked of the host, and what was written was written at once. -/
structure State.Quiet (s t : State) : Prop where
  polls : t.progress.polls = s.progress.polls
  checks : t.progress.checks = s.progress.checks
  effects : ∃ new, t.effects = new ++ s.effects ∧
    ∀ e ∈ new, e.polls = s.progress.polls ∧ ∃ stream text, e.effect = .written stream text

theorem State.Quiet.of_eq {s t : State} (hp : t.progress.polls = s.progress.polls)
    (hc : t.progress.checks = s.progress.checks) (he : t.effects = s.effects) : s.Quiet t :=
  ⟨hp, hc, [], he, fun _ h => absurd h List.not_mem_nil⟩

/-- What a run may do to the state, if programs are to be put together from such runs: the relation
does not see questions, and a block or an assignment keeps it. -/
structure Tolerant (R : State → State → Prop) : Prop where
  trans : ∀ {s t u : State}, R s t → R t u → R s u
  asked : ∀ {s t : State}, t.session = s.session → t.frames = s.frames → R s t
  block : ∀ {s t : State}, R { s with frames := [] :: s.frames } t →
    R s { t with frames := t.frames.tail }
  assign : ∀ {s t : State} {name : String} {v : Value}, s.assign name v = some t → R s t

theorem Tolerant.refl {R : State → State → Prop} (hR : Tolerant R) (s : State) : R s s :=
  hR.asked rfl rfl

/-- An assignment changes a local variable, or a variable of the session if there is no local one
with the name. -/
theorem State.assign_cases {s t : State} {name : String} {v : Value}
    (h : s.assign name v = some t) :
    (∃ frames, State.assignIn name v s.frames = some frames ∧ t = { s with frames }) ∨
      State.assignIn name v s.frames = none ∧
        t = { s with session := s.session.assign name v } := by
  unfold State.assign at h
  split at h
  · rename_i frames hframes
    cases h
    exact Or.inl ⟨frames, hframes, rfl⟩
  · rename_i hnone
    split at h <;> cases h
    exact Or.inr ⟨hnone, rfl⟩

theorem State.assign_eq {s t : State} {name : String} {v : Value} (h : s.assign name v = some t) :
    t.progress = s.progress ∧ t.effects = s.effects := by
  rcases State.assign_cases h with ⟨frames, -, rfl⟩ | ⟨-, rfl⟩ <;> exact ⟨rfl, rfl⟩

/-- A tolerant relation that also allows local variables to be declared. -/
structure Roomy (R : State → State → Prop) : Prop extends Tolerant R where
  declare : ∀ (s : State) (name : String) (v : Value), R s (s.declareLocal name v)

theorem roomy_true : Roomy fun _ _ => True :=
  ⟨⟨fun _ _ => trivial, fun _ _ => trivial, fun _ => trivial, fun _ => trivial⟩,
    fun _ _ _ => trivial⟩

namespace Run

variable {α β : Type}

/-- A run that asks the host neither whether to stop nor for an access. -/
structure Local (x : Run α) : Prop where
  world : ∀ {h₁ h₂ : Host}, h₁.SameWorld h₂ → ∀ s, x h₁ s = x h₂ s
  quiet : ∀ (h : Host) (s : State), s.Quiet (x h s).2
  ends : ∀ h s, (x h s).1 ≠ .error .stopped ∧ (x h s).1 ≠ .error .exhausted

/-- A relation holds between the states before and after a run. -/
def Keeps (R : State → State → Prop) (x : Run α) : Prop :=
  ∀ h s, R s (x h s).2

/-- A round of a loop that asks whether to stop before it lets another one follow. -/
def Paced (round : Run Bool) : Prop :=
  ∀ h s t, round h s = (.ok true, t) → s.progress.polls < t.progress.polls

/-- Runs that are put together from questions and from local runs that keep a relation. -/
inductive Assembled (R : State → State → Prop) : {α : Type} → Run α → Prop
  | step {α : Type} {x : Run α} : Local x → Keeps R x → Assembled R x
  | poll : Assembled R Run.poll
  | check (a : Access) : Assembled R (Run.check a)
  | bind {α β : Type} {x : Run α} {f : α → Run β} :
      Assembled R x → (∀ a, Assembled R (f a)) → Assembled R (x >>= f)
  | inBlock {α : Type} {x : Run α} : Assembled R x → Assembled R (Run.inBlock x)
  | repeated {round : Run Bool} :
      Assembled R round → Paced round → Assembled R (Run.repeated round)

/-- The first run comes to its end, or it is interrupted and the whole with it. -/
theorem bind_cases (x : Run α) (f : α → Run β) (h : Host) (s : State) :
    (∃ a t, x h s = (.ok a, t) ∧ (x >>= f) h s = f a h t) ∨
      ∃ e t, x h s = (.error e, t) ∧ (x >>= f) h s = (.error e, t) := by
  rcases hx : x h s with ⟨e | a, t⟩
  · refine Or.inr ⟨e, t, rfl, ?_⟩
    simp only [bind, andThen, hx]
  · refine Or.inl ⟨a, t, rfl, ?_⟩
    simp only [bind, andThen, hx]

theorem bind_ok {x : Run α} {f : α → Run β} {h : Host} {s u : State} {b : β}
    (hrun : (x >>= f) h s = (.ok b, u)) : ∃ a t, x h s = (.ok a, t) ∧ f a h t = (.ok b, u) := by
  rcases bind_cases x f h s with ⟨a, t, ht, heq⟩ | ⟨e, t, ht, heq⟩ <;> rw [heq] at hrun
  · exact ⟨a, t, ht, hrun⟩
  · cases hrun

theorem bind_of_ok {x : Run α} {f : α → Run β} {a : α} {h : Host} {s t : State}
    (hx : x h s = (.ok a, t)) : (x >>= f) h s = f a h t := by
  simp only [bind, andThen, hx]

theorem bind_of_error {x : Run α} {f : α → Run β} {e : Interrupt} {h : Host} {s t : State}
    (hx : x h s = (.error e, t)) : (x >>= f) h s = (.error e, t) := by
  simp only [bind, andThen, hx]

/-- A run in two parts hangs on no more than how its first part goes. -/
theorem bind_congr {x y : Run α} {f : α → Run β} {h : Host} {s t : State}
    (hxy : x h s = y h t) : (x >>= f) h s = (y >>= f) h t := by
  simp only [bind, andThen, hxy]

theorem lookup_eq_ok {name : String} {v : Value} {s : State} (hv : s.lookup name = some v)
    (h : Host) : lookup name h s = (.ok v, s) := by
  simp only [lookup, bind, andThen, gets, hv]
  rfl

theorem lookup_eq_unbound {name : String} {s : State} (hv : s.lookup name = none) (h : Host) :
    lookup name h s = (.error (.unbound name), s) := by
  simp only [lookup, bind, andThen, gets, hv]
  rfl

theorem assign_eq_ok {name : String} {v : Value} {s t : State} (ht : s.assign name v = some t)
    (h : Host) : assign name v h s = (.ok (), t) := by
  simp only [assign, ht]

theorem assign_eq_unbound {name : String} {v : Value} {s : State} (ht : s.assign name v = none)
    (h : Host) : assign name v h s = (.error (.unbound name), s) := by
  simp only [assign, ht]

theorem poll_ok {h : Host} {s t : State} (hpoll : poll h s = (.ok (), t)) :
    t.progress.polls = s.progress.polls + 1 := by
  simp only [poll] at hpoll
  split at hpoll
  · cases hpoll
  · cases hpoll
    rfl

theorem inBlock_eq (x : Run α) (h : Host) (s : State) :
    inBlock x h s = ((x h { s with frames := [] :: s.frames }).1,
      { (x h { s with frames := [] :: s.frames }).2 with
        frames := (x h { s with frames := [] :: s.frames }).2.frames.tail }) :=
  rfl

/-- Another round follows, the last one was reached, or the round was interrupted. -/
theorem rounds_succ_cases (round : Run Bool) (n : Nat) (h : Host) (s : State) :
    (∃ t, round h s = (.ok true, t) ∧ rounds round (n + 1) h s = rounds round n h t) ∨
      (∃ t, round h s = (.ok false, t) ∧ rounds round (n + 1) h s = (.ok (), t)) ∨
        ∃ e t, round h s = (.error e, t) ∧ rounds round (n + 1) h s = (.error e, t) := by
  rcases hr : round h s with ⟨e | _ | _, t⟩
  · exact Or.inr (Or.inr ⟨e, t, rfl, by simp only [rounds, hr]⟩)
  · exact Or.inr (Or.inl ⟨t, rfl, by simp only [rounds, hr]⟩)
  · exact Or.inl ⟨t, rfl, by simp only [rounds, hr]⟩

/-! ### Local runs -/

namespace Assembled

variable {R : State → State → Prop}

/-- Reading off the world and the state, without a change. -/
theorem observe (hR : Tolerant R) (f : Host → State → Except Interrupt α)
    (world : ∀ {h₁ h₂ : Host}, h₁.SameWorld h₂ → ∀ s, f h₁ s = f h₂ s)
    (ends : ∀ h s, f h s ≠ .error .stopped ∧ f h s ≠ .error .exhausted) :
    Assembled R (fun h s => (f h s, s)) := by
  refine .step ⟨?_, fun h s => .of_eq rfl rfl rfl, ends⟩ fun h s => hR.refl s
  intro h₁ h₂ hw s
  rw [world hw s]

/-- A change of the state that no question and no effect goes with. -/
theorem modify {f : State → State} (progress : ∀ s, (f s).progress = s.progress)
    (effects : ∀ s, (f s).effects = s.effects) (keeps : ∀ s, R s (f s)) :
    Assembled R (Run.modify f) := by
  refine .step ⟨fun _ _ => rfl, fun h s => ?_, fun h s => by simp [Run.modify]⟩ fun h s => keeps s
  exact .of_eq (by rw [← progress s]; rfl) (by rw [← progress s]; rfl) (effects s)

theorem result (hR : Tolerant R) (a : α) : Assembled R (pure a : Run α) :=
  observe hR (fun _ _ => .ok a) (fun _ _ => rfl) (by simp)

theorem thrown (hR : Tolerant R) (e : Exception) : Assembled R (throw e : Run α) :=
  observe hR (fun _ _ => .error (.thrown e)) (fun _ _ => rfl) (by simp)

theorem files (hR : Tolerant R) : Assembled R Run.files :=
  observe hR (fun h _ => .ok h.files) (fun hw _ => by rw [hw.files]) (by simp)

theorem processors (hR : Tolerant R) : Assembled R Run.processors :=
  observe hR (fun h _ => .ok h.processors) (fun hw _ => by rw [hw.processors]) (by simp)

theorem gets (hR : Tolerant R) (f : State → α) : Assembled R (Run.gets f) :=
  observe hR (fun _ s => .ok (f s)) (fun _ _ => rfl) (by simp)

theorem lookup (hR : Tolerant R) (name : String) : Assembled R (Run.lookup name) := by
  refine .bind (gets hR _) fun found => ?_
  cases found with
  | none => exact observe hR (fun _ _ => .error (.unbound name)) (fun _ _ => rfl) (by simp)
  | some v => exact result hR v

theorem assign (hR : Tolerant R) (name : String) (v : Value) : Assembled R (Run.assign name v) := by
  have hstate : ∀ h s, (∃ t, s.assign name v = some t ∧ Run.assign name v h s = (.ok (), t)) ∨
      Run.assign name v h s = (.error (.unbound name), s) := by
    intro h s
    cases ht : s.assign name v with
    | none => exact Or.inr (assign_eq_unbound ht h)
    | some t => exact Or.inl ⟨t, rfl, assign_eq_ok ht h⟩
  refine .step ⟨fun _ _ => rfl, fun h s => ?_, fun h s => ?_⟩ fun h s => ?_ <;>
    rcases hstate h s with ⟨t, ht, hx⟩ | hx <;> rw [hx]
  · obtain ⟨hp, he⟩ := State.assign_eq ht
    exact .of_eq (by rw [hp]) (by rw [hp]) he
  · exact .of_eq rfl rfl rfl
  · simp
  · simp
  · exact hR.assign ht
  · exact hR.refl s

theorem readClock (hR : Tolerant R) : Assembled R Run.readClock := by
  refine .step ⟨fun hw s => ?_, fun h s => .of_eq rfl rfl rfl, by simp [Run.readClock]⟩
    fun h s => hR.asked rfl rfl
  simp only [Run.readClock, hw.clock]

theorem doze (hR : Tolerant R) (ms : Nat) : Assembled R (Run.doze ms) :=
  .step ⟨fun _ _ => rfl, fun h s => .of_eq rfl rfl rfl, by simp [Run.doze, Run.modify]⟩
    fun h s => hR.asked rfl rfl

theorem write (hR : Tolerant R) (stream : Stream) (text : String) :
    Assembled R (Run.write stream text) := by
  refine .step ⟨fun _ _ => rfl, fun h s => ?_, by simp [Run.write, Run.modify]⟩
    fun h s => hR.asked rfl rfl
  refine ⟨rfl, rfl, [⟨s.progress.polls, .written stream text⟩], rfl, ?_⟩
  intro e he
  rw [List.mem_singleton.mp he]
  exact ⟨rfl, stream, text, rfl⟩

theorem declareLocal (hR : Roomy R) (name : String) (v : Value) :
    Assembled R (Run.declareLocal name v) :=
  modify (fun _ => rfl) (fun _ => rfl) fun s => hR.declare s name v

end Assembled

end Run

end Machine
end GuardedRepl
