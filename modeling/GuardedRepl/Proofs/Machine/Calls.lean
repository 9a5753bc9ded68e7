import GuardedRepl.Proofs.Machine.Short

/-!
# What calls leave and yield

A call of the library changes no variable, and the value that it yields is short if its arguments
are, but for a few methods that do not measure the string they build.

**Results.**
* `Leads.bind`, `Leads.inBlock`, `Leads.rounds`: what a run leads to, from one state.
* `observes_callStatic`, `observes_callMethod`: calls leave the variables alone and yield short
  values.
-/

namespace GuardedRepl
namespace Machine

open Library (HostClass StaticMethod)

/-- No variable is changed, and no import. -/
def State.Untouched (s t : State) : Prop :=
  t.session = s.session ∧ t.frames = s.frames

theorem State.Untouched.refl (s : State) : s.Untouched s :=
  ⟨rfl, rfl⟩

theorem State.Untouched.trans {s t u : State} (hst : s.Untouched t) (htu : t.Untouched u) :
    s.Untouched u :=
  ⟨htu.1.trans hst.1, htu.2.trans hst.2⟩

namespace Run

variable {α β : Type} {h : Host}

/-- From a state the run comes to its end in a state with `Q`, or it is interrupted in a state with
`E`. -/
structure Leads (x : Run α) (h : Host) (s : State) (Q : α → State → Prop) (E : State → Prop) :
    Prop where
  ok : ∀ a t, x h s = (.ok a, t) → Q a t
  error : ∀ e t, x h s = (.error e, t) → E t

namespace Leads

variable {s : State} {Q Q' : α → State → Prop} {R : β → State → Prop} {E E' : State → Prop}
  {x : Run α}

theorem mono (hx : Leads x h s Q' E') (hq : ∀ a t, Q' a t → Q a t) (he : ∀ t, E' t → E t) :
    Leads x h s Q E :=
  ⟨fun a t ht => hq a t (hx.ok a t ht), fun e t ht => he t (hx.error e t ht)⟩

/-- What is said of the end may refer to the run that leads there. -/
theorem remember (hx : Leads x h s (fun a t => x h s = (.ok a, t) → Q a t) E) : Leads x h s Q E :=
  ⟨fun a t ht => hx.ok a t ht ht, hx.error⟩

theorem result {a : α} (hq : Q a s) : Leads (pure a) h s Q E := by
  refine ⟨fun b t ht => ?_, fun e t ht => by cases ht⟩
  cases ht
  exact hq

theorem thrown {e : Exception} (he : E s) : Leads (Run.throw e : Run α) h s Q E := by
  refine ⟨fun b t ht => (by cases ht), fun e t ht => ?_⟩
  cases ht
  exact he

theorem lifted {x : Except Exception α} (hq : ∀ a, x = .ok a → Q a s) (he : E s) :
    Leads (Run.lift x) h s Q E := by
  cases x with
  | ok a => exact result (hq a rfl)
  | error e => exact thrown he

/-- The second run begins where the first one ended. -/
theorem bind {f : α → Run β} (hx : Leads x h s Q E)
    (hf : ∀ a t, x h s = (.ok a, t) → Q a t → Leads (f a) h t R E) : Leads (x >>= f) h s R E := by
  rcases bind_cases x f h s with ⟨a, t, ht, heq⟩ | ⟨e, t, ht, heq⟩
  · have hrest := hf a t ht (hx.ok a t ht)
    exact ⟨fun b u hu => hrest.ok b u (heq ▸ hu), fun e u hu => hrest.error e u (heq ▸ hu)⟩
  · refine ⟨fun b u hu => ?_, fun e' u hu => ?_⟩ <;> rw [heq] at hu <;> cases hu
    exact hx.error e t ht

theorem inBlock (hx : Leads x h s.enter Q' E') (hq : ∀ a t, Q' a t → Q a t.leave)
    (he : ∀ t, E' t → E t.leave) : Leads (Run.inBlock x) h s Q E := by
  have heq : Run.inBlock x h s = ((x h s.enter).1, (x h s.enter).2.leave) := inBlock_eq x h s
  rcases hrun : x h s.enter with ⟨e | a, t⟩ <;> rw [hrun] at heq
  · refine ⟨fun b u hu => ?_, fun e' u hu => ?_⟩ <;> rw [heq] at hu <;> cases hu
    exact he t (hx.error e t hrun)
  · refine ⟨fun b u hu => ?_, fun e' u hu => ?_⟩ <;> rw [heq] at hu <;> cases hu
    exact hq a t (hx.ok a t hrun)

/-- What leads from one round to the next leads through the loop. -/
theorem rounds {P : State → Prop} {round : Run Bool}
    (hround : ∀ s, P s → Leads round h s (fun again t => E t ∧ (again = true → P t)) E)
    (hP : ∀ s, P s → E s) (n : Nat) (hs : P s) :
    Leads (Run.rounds round n) h s (fun _ => E) E := by
  induction n generalizing s with
  | zero =>
      refine ⟨fun b t ht => (by cases ht), fun e t ht => ?_⟩
      cases ht
      exact hP s hs
  | succ n ih =>
      have hs := hround s hs
      rcases rounds_succ_cases round n h s with ⟨t, ht, heq⟩ | ⟨t, ht, heq⟩ | ⟨e, t, ht, heq⟩
      · have hrest := ih ((hs.ok true t ht).2 rfl)
        exact ⟨fun b u hu => hrest.ok b u (heq ▸ hu), fun e u hu => hrest.error e u (heq ▸ hu)⟩
      · refine ⟨fun b u hu => ?_, fun e' u hu => ?_⟩ <;> rw [heq] at hu <;> cases hu
        exact (hs.ok false t ht).1
      · refine ⟨fun b u hu => ?_, fun e' u hu => ?_⟩ <;> rw [heq] at hu <;> cases hu
        exact hs.error e t ht

theorem repeated {P : State → Prop} {round : Run Bool}
    (hround : ∀ s, P s → Leads round h s (fun again t => E t ∧ (again = true → P t)) E)
    (hP : ∀ s, P s → E s) (hs : P s) : Leads (Run.repeated round) h s (fun _ => E) E :=
  have hloop := rounds hround hP h.fuel hs
  ⟨hloop.ok, hloop.error⟩

end Leads

/-! ### Runs that change no variable -/

/-- The run changes no variable, and what it yields has a property. -/
def Observes (x : Run α) (F : α → Prop) : Prop :=
  ∀ h s, Leads x h s (fun a t => s.Untouched t ∧ F a) s.Untouched

namespace Observes

variable {x : Run α} {F : α → Prop} {G : β → Prop}

theorem result {a : α} (ha : F a) : Observes (pure a) F :=
  fun _ s => .result ⟨.refl s, ha⟩

theorem thrown {e : Exception} : Observes (Run.throw e : Run α) F :=
  fun _ s => .thrown (.refl s)

theorem lifted {x : Except Exception α} (hx : ∀ a, x = .ok a → F a) : Observes (Run.lift x) F :=
  fun _ s => .lifted (fun a ha => ⟨.refl s, hx a ha⟩) (.refl s)

theorem bind {f : α → Run β} (hx : Observes x F) (hf : ∀ a, F a → Observes (f a) G) :
    Observes (x >>= f) G :=
  fun h s => .bind (hx h s) fun a t _ ht =>
    (hf a ht.2 h t).mono (fun _ _ hu => ⟨ht.1.trans hu.1, hu.2⟩) fun _ hu => ht.1.trans hu

/-- A computation without the host before another run. -/
theorem lift {x : Except Exception α} {f : α → Run β} (hf : ∀ a, x = .ok a → Observes (f a) G) :
    Observes (Run.lift x >>= f) G :=
  .bind (lifted fun _ ha => ha) hf

theorem poll : Observes Run.poll fun _ => True := by
  intro h s
  refine ⟨fun _ t ht => ?_, fun _ t ht => ?_⟩ <;> simp only [Run.poll] at ht <;>
    split at ht <;> cases ht
  · exact ⟨⟨rfl, rfl⟩, trivial⟩
  · exact ⟨rfl, rfl⟩

theorem check (a : Access) : Observes (Run.check a) fun _ => True := by
  intro h s
  refine ⟨fun _ t ht => ?_, fun _ t ht => ?_⟩ <;> simp only [Run.check] at ht <;>
    split at ht <;> cases ht
  · exact ⟨⟨rfl, rfl⟩, trivial⟩
  · exact ⟨rfl, rfl⟩

theorem modify {f : State → State} (hf : ∀ s : State, s.Untouched (f s)) :
    Observes (Run.modify f) fun _ => True := by
  refine fun h s => ⟨fun _ t ht => ?_, fun _ t ht => by cases ht⟩
  cases ht
  exact ⟨hf s, trivial⟩

theorem files : Observes Run.files fun _ => True := by
  refine fun h s => ⟨fun _ t ht => ?_, fun _ t ht => by cases ht⟩
  cases ht
  exact ⟨.refl s, trivial⟩

theorem processors : Observes Run.processors fun _ => True := by
  refine fun h s => ⟨fun _ t ht => ?_, fun _ t ht => by cases ht⟩
  cases ht
  exact ⟨.refl s, trivial⟩

theorem gets {f : State → α} : Observes (Run.gets f) fun _ => True := by
  refine fun h s => ⟨fun _ t ht => ?_, fun _ t ht => by cases ht⟩
  cases ht
  exact ⟨.refl s, trivial⟩

theorem readClock : Observes Run.readClock fun _ => True := by
  refine fun h s => ⟨fun _ t ht => ?_, fun _ t ht => by cases ht⟩
  cases ht
  exact ⟨⟨rfl, rfl⟩, trivial⟩

theorem sleep (ms : Nat) : Observes (Run.sleep ms) fun _ => True := by
  induction ms using Run.sleep.induct with
  | case1 ms ih =>
      rw [Run.sleep]
      refine .bind poll fun _ _ => ?_
      split
      · exact result trivial
      · exact .bind (modify fun _ => ⟨rfl, rfl⟩) fun _ _ => ih ‹_›

end Observes

/-! ### Calls -/

/-- A static method changes no variable.  It yields a short value, unless it is the text of a
value. -/
theorem observes_callStatic (m : StaticMethod) (args : List Value) :
    Observes (callStatic m args) fun v => m ≠ .valueOf → v.Short := by
  unfold callStatic
  split
  · exact .bind .readClock fun _ _ => .result fun _ => trivial
  · exact .bind .readClock fun _ _ => .result fun _ => trivial
  · exact .thrown
  · exact .lift fun key _ => .result fun _ => systemProperty_short key
  · exact .result fun _ => trivial
  · exact .result fun _ => (by decide : (1 : Nat) ≤ 1048576)
  · exact .lift fun _ _ => .result fun _ => trivial
  · exact .lift fun _ _ => .lift fun _ _ => .result fun _ => trivial
  · exact .lift fun _ _ => .lift fun _ _ => .result fun _ => trivial
  · exact .lift fun _ _ => .lift fun _ _ => .lift fun _ _ => .result fun _ => trivial
  · exact .result fun hne => absurd rfl hne
  · exact .lift fun _ _ => .lifted fun _ hv _ => parseInt_short hv
  · exact .lift fun n _ => .result fun _ => Value.intText_short n
  · exact .result fun _ => trivial
  · refine .lift fun ms _ => ?_
    unfold sleepFor
    split
    · exact .thrown
    · exact .bind (.sleep _) fun _ _ => .result fun _ => trivial
  · exact .result fun _ => trivial
  · exact .lift fun _ _ => .bind .files fun _ _ => .result fun _ => trivial
  · exact .lift fun _ _ => .bind .files fun _ _ => .lifted fun _ hv _ => readString_short hv
  · exact .lift fun _ _ => .lifted fun _ hv _ => joinPaths_short hv
  · exact .thrown

theorem construct_ne_str {c : HostClass} {args : List Value} {v : Value}
    (hv : construct c args = .ok v) (s : String) : v ≠ .str s := by
  unfold construct at hv
  split at hv
  · obtain ⟨text, -, hv⟩ := ok_bind hv
    cases hv
    simp
  · cases hv

/-- The methods of objects that build a string without measuring it. -/
def unmeasured : List String :=
  ["toString", "toUpperCase", "toLowerCase", "getName", "getPath"]

theorem callObject_short {target : Value} {m : Library.ObjectMethod} {name : String}
    {args : List Value} {v : Value} (hm : m ≠ .toString)
    (hv : callObject target m name args = .ok v) : v.Short := by
  unfold callObject at hv
  split at hv
  · exact absurd rfl hm
  · cases hv
    trivial
  · cases hv
    trivial
  · cases hv

theorem callPath_short {p : Files.Path} {m : Library.PathMethod} {name : String}
    {args : List Value} {v : Value} (hv : callPath p m name args = .ok v) : v.Short := by
  unfold callPath at hv
  split at hv
  · split at hv <;> cases hv <;> trivial
  · cases hv

/-- A method of an object changes no variable.  On a short string it yields a short value, if it
measures what it builds. -/
theorem observes_callOwn (cls : HostClass) (target : Value) (name : String) (args : List Value) :
    Observes (callOwn cls target name args) fun v =>
      target.Short → name ∉ unmeasured → v.Short := by
  have hmissing : Observes (throw (.noSuchMethod cls name) : Run Value) fun v =>
      target.Short → name ∉ unmeasured → v.Short := .thrown
  unfold callOwn
  split
  · cases Library.PrintMethod.ofName? name with
    | none => exact hmissing
    | some m =>
        exact .lift fun _ _ => .bind (.modify fun _ => ⟨rfl, rfl⟩) fun _ _ =>
          .result fun _ _ => trivial
  · cases hm : Library.StringMethod.ofName? name with
    | none => exact hmissing
    | some m =>
        refine .lifted fun v hv hs hname => Value.Strings.call_short hs ?_ ?_ hv
        all_goals
          rintro rfl
          unfold Library.StringMethod.ofName? at hm
          split at hm <;> simp [unmeasured] at hname hm
  · cases Library.RuntimeMethod.ofName? name with
    | none => exact hmissing
    | some m =>
        show Observes (callRuntime m name args) _
        unfold callRuntime
        split
        · exact .bind .processors fun _ _ => .result fun _ _ => trivial
        · exact .thrown
        · exact .thrown
  · cases hm : Library.FileMethod.ofName? name with
    | none => exact hmissing
    | some m =>
        rename_i p
        show Observes (callFile p m name args) _
        unfold callFile
        unfold Library.FileMethod.ofName? at hm
        split
        · exact .bind .files fun _ _ => .result fun _ _ => trivial
        · refine .result fun _ hname => ?_
          split at hm <;> simp [unmeasured] at hname hm
        · refine .result fun _ hname => ?_
          split at hm <;> simp [unmeasured] at hname hm
        · exact .thrown
  · cases Library.PathMethod.ofName? name with
    | none => exact hmissing
    | some m => exact .lifted fun v hv _ _ => callPath_short hv
  · exact hmissing

theorem observes_callMethod (target : Value) (name : String) (args : List Value) :
    Observes (callMethod target name args) fun v =>
      target.Short → name ∉ unmeasured → v.Short := by
  unfold callMethod
  split
  · exact .thrown
  · refine .bind (.check _) fun _ _ => ?_
    split
    · rename_i m hm
      refine .lifted fun v hv _ hname => callObject_short ?_ hv
      rintro rfl
      unfold Library.ObjectMethod.ofName? at hm
      split at hm <;> simp [unmeasured] at hname hm
    · exact observes_callOwn _ _ _ _

end Run
end Machine
end GuardedRepl
