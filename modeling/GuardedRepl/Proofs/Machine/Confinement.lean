import GuardedRepl.Proofs.Machine.Triple
import GuardedRepl.Proofs.Program.Scope

/-!
# Confinement

The state of a run fits a place in a program: every variable that is visible there has a value, no
value was got through a class that is barred, and nothing was written if the way to the streams is
barred.  What the library does keeps such a state, and it looks for files only if they may be looked
for.

**Results.**
* `meets_callStatic`, `meets_construct`, `meets_callMethod`: the library is confined.
-/

namespace GuardedRepl

open Library (HostClass StaticMethod)
open Machine (Barrier)

/-- The class through which alone a value can be got, if there is one. -/
def Value.source? : Value → Option HostClass
  | .stream _ => some .system
  | .file _ => some .file
  | .path _ => some .path
  | .runtime => some .runtime
  | _ => none

/-- A value that can be got without a class behind the barrier. -/
def Value.Permitted (B : Barrier) (v : Value) : Prop :=
  ∀ c ∈ v.source?, ¬ B (.cls c.name)

theorem Value.permitted_of_source {B : Barrier} {v : Value} (hv : v.source? = none) :
    v.Permitted B := by
  intro c hc
  rw [hv] at hc
  cases hc

namespace Machine

/-- Nothing can be written: the class of the streams cannot be used, or neither of the methods that
print. -/
def Barrier.Mutes (B : Barrier) : Prop :=
  B (.cls HostClass.system.name) ∨
    (B (.method HostClass.printStream.name "println") ∧
      B (.method HostClass.printStream.name "print"))

/-- Whether an effect is the writing of a text. -/
def Effect.Writes : Effect → Prop
  | .written _ _ => True
  | .checked _ => False

/-- A state fits a place with `n` blocks around it, behind a barrier. -/
structure State.Fits (B : Barrier) (env : Program.Env) (n : Nat) (s : State) : Prop where
  depth : s.frames.length = n
  bound : ∀ {name}, env.isVariable name = true → (s.lookup name).isSome
  locals : ∀ {frame}, frame ∈ s.frames → ∀ {name v}, (name, v) ∈ frame → v.Permitted B
  vars : ∀ {x}, x ∈ s.session.vars → x.value.Permitted B
  silent : B.Mutes → ∀ {e}, e ∈ s.effects → ¬ e.effect.Writes

namespace State.Fits

variable {B : Barrier} {env : Program.Env} {n : Nat} {s : State}

theorem stable (B : Barrier) (env : Program.Env) (n : Nat) : State.Stable (State.Fits B env n) where
  progress _ hs := ⟨hs.depth, hs.bound, hs.locals, hs.vars, hs.silent⟩
  checked _ _ hs := by
    refine ⟨hs.depth, hs.bound, hs.locals, hs.vars, fun hB e he => ?_⟩
    rcases List.mem_cons.mp he with rfl | he
    · exact fun hw => hw
    · exact hs.silent hB he

/-- Where less is visible, less has to be bound. -/
theorem weaken {env' : Program.Env} (hs : s.Fits B env' n)
    (henv : ∀ {name}, env.isVariable name = true → env'.isVariable name = true) : s.Fits B env n :=
  ⟨hs.depth, fun hname => hs.bound (henv hname), hs.locals, hs.vars, hs.silent⟩

end State.Fits

namespace Run

section Library

variable {B : Barrier} {h g : Host} {env : Program.Env} {n : Nat}

/-- The run keeps the state fitting. -/
abbrev Stays {α : Type} (B : Barrier) (h g : Host) (env : Program.Env) (n : Nat) (x : Run α) :
    Prop :=
  Meets h g (State.Fits B env n) x (fun _ => State.Fits B env n) (State.Fits B env n)

/-- The run yields a value that is permitted and keeps the state fitting. -/
abbrev Yields (B : Barrier) (h g : Host) (env : Program.Env) (n : Nat) (x : Run Value) : Prop :=
  Meets h g (State.Fits B env n) x (fun v s => s.Fits B env n ∧ v.Permitted B)
    (State.Fits B env n)

theorem yields_result {v : Value} (hv : v.Permitted B) : Yields B h g env n (pure v) :=
  Meets.result fun _ hs => ⟨hs, hv⟩

theorem yields_plain {v : Value} (hv : v.source? = none) : Yields B h g env n (pure v) :=
  yields_result (Value.permitted_of_source hv)

theorem yields_thrown {e : Exception} : Yields B h g env n (throw e) :=
  Meets.thrown fun _ hs => hs

/-- A computation without the host, with what is known of its outcome. -/
theorem yields_lifted {x : Except Exception Value} (hx : ∀ v, x = .ok v → v.Permitted B) :
    Yields B h g env n (lift x) :=
  Meets.lifted (fun v hv _ hs => ⟨hs, hx v hv⟩) fun _ hs => hs

/-- A computation without the host before another run. -/
theorem yields_lift {α : Type} {x : Except Exception α} {f : α → Run Value}
    (hf : ∀ a, x = .ok a → Yields B h g env n (f a)) : Yields B h g env n (lift x >>= f) := by
  cases x with
  | ok a =>
      exact Meets.bind (Q := fun b s => s.Fits B env n ∧ b = a)
        (Meets.lifted (fun b hb _ hs => ⟨hs, by cases hb; rfl⟩) fun _ hs => hs)
        fun b => Meets.assume fun hb => hb ▸ hf a rfl
  | error e =>
      exact Meets.bind (Q := fun _ _ => False) (Meets.thrown fun _ hs => hs)
        fun _ _ hfalse => hfalse.elim

theorem ok_bind {α β : Type} {x : Except Exception α} {f : α → Except Exception β} {b : β}
    (h : x >>= f = .ok b) : ∃ a, x = .ok a ∧ f a = .ok b := by
  cases x with
  | ok a => exact ⟨a, rfl, h⟩
  | error e => cases h

theorem joinPaths_source {vs : List Value} {p : Files.Path} {v : Value}
    (h : joinPaths p vs = .ok v) : v.source? = some .path := by
  induction vs generalizing p with
  | nil =>
      cases h
      rfl
  | cons w ws ih =>
      rw [joinPaths] at h
      obtain ⟨s, -, h⟩ := ok_bind h
      exact ih h

theorem readString_source {files : Files.Tree} {p : Files.Path} {v : Value}
    (h : readString files p = .ok v) : v.source? = none := by
  unfold readString at h
  split at h
  · cases h
  · cases h
  · split at h
    · cases h
    · split at h
      · cases h
        rfl
      · cases h

theorem parseInt_source {s : String} {v : Value} (h : parseInt s = .ok v) : v.source? = none := by
  unfold parseInt at h
  split at h
  · cases h
    rfl
  · cases h

/-- A static method is confined if its class may be used. -/
theorem meets_callStatic (hhosts : h.Twins B g) (m : StaticMethod) (args : List Value)
    (hm : ¬ B (.cls m.owner.name)) : Yields B h g env n (callStatic m args) := by
  have hstable := State.Fits.stable B env n
  unfold callStatic
  split
  · exact .bind (.readClock hhosts hstable) fun _ => yields_plain rfl
  · exact .bind (.readClock hhosts hstable) fun _ => yields_plain rfl
  · exact yields_thrown
  · refine yields_lift fun s _ => yields_plain ?_
    unfold systemProperty
    split <;> rfl
  · exact yields_plain rfl
  · exact yields_plain rfl
  · exact yields_lift fun _ _ => yields_plain rfl
  · exact yields_lift fun _ _ => yields_lift fun _ _ => yields_plain rfl
  · exact yields_lift fun _ _ => yields_lift fun _ _ => yields_plain rfl
  · exact yields_lift fun _ _ => yields_lift fun _ _ => yields_lift fun _ _ => yields_plain rfl
  · exact yields_plain rfl
  · exact yields_lift fun _ _ => yields_lifted fun v hv =>
      Value.permitted_of_source (parseInt_source hv)
  · exact yields_lift fun _ _ => yields_plain rfl
  · exact yields_plain rfl
  · refine yields_lift fun ms _ => ?_
    unfold sleepFor
    split
    · exact yields_thrown
    · exact .bind (.sleep hhosts hstable _) fun _ => yields_plain rfl
  · -- The runtime is got through its own class, and so is a path below.
    refine yields_result fun c hc => ?_
    cases hc
    exact hm
  · have hfiles : ¬ B.HidesFiles := fun hB => hm hB.2
    exact yields_lift fun _ _ => .bind (.files hhosts hfiles) fun _ => yields_plain rfl
  · have hfiles : ¬ B.HidesFiles := fun hB => hm hB.2
    exact yields_lift fun _ _ => .bind (.files hhosts hfiles) fun _ => yields_lifted fun v hv =>
      Value.permitted_of_source (readString_source hv)
  · refine yields_lift fun _ _ => yields_lifted fun v hv c hc => ?_
    rw [joinPaths_source hv] at hc
    cases hc
    exact hm
  · exact yields_thrown

/-- A constructor is confined if its class may be used. -/
theorem meets_construct (c : HostClass) (args : List Value) (hc : ¬ B (.cls c.name)) :
    Yields B h g env n (lift (construct c args)) := by
  refine yields_lifted fun v hv => ?_
  unfold construct at hv
  split at hv
  · obtain ⟨s, -, hv⟩ := ok_bind hv
    cases hv
    intro c' hc'
    cases hc'
    exact hc
  · cases hv

theorem callObject_source {target : Value} {m : Library.ObjectMethod} {name : String}
    {args : List Value} {v : Value} (h : callObject target m name args = .ok v) :
    v.source? = none := by
  unfold callObject at h
  split at h <;> cases h <;> rfl

theorem callString_source {s : String} {m : Library.StringMethod} {name : String}
    {args : List Value} {v : Value} (h : Value.Strings.call s m name args = .ok v) :
    v.source? = none := by
  have hstr {α : Type} {x : Except Exception α} {f : α → Except Exception String}
      (h : (x >>= fun a => return .str (← f a)) = Except.ok v) : v.source? = none := by
    obtain ⟨a, -, h⟩ := ok_bind h
    obtain ⟨b, -, h⟩ := ok_bind h
    cases h
    rfl
  unfold Value.Strings.call at h
  split at h
  · cases h
    rfl
  · cases h
    rfl
  · cases h
    rfl
  · cases h
    rfl
  · cases h
    rfl
  · obtain ⟨a, -, h⟩ := ok_bind h
    cases h
    rfl
  · obtain ⟨a, -, h⟩ := ok_bind h
    cases h
    rfl
  · obtain ⟨a, -, h⟩ := ok_bind h
    cases h
    rfl
  · obtain ⟨a, -, h⟩ := ok_bind h
    cases h
    rfl
  · exact hstr h
  · exact hstr h
  · obtain ⟨a, -, h⟩ := ok_bind h
    exact hstr h
  · exact hstr h
  · cases h

theorem callPath_permitted {p : Files.Path} {m : Library.PathMethod} {name : String}
    {args : List Value} {v : Value} (hp : (Value.path p).Permitted B)
    (h : callPath p m name args = .ok v) : v.Permitted B := by
  unfold callPath at h
  split at h
  · split at h
    · cases h
      exact hp
    · cases h
      exact Value.permitted_of_source rfl
  · cases h

/-- Writing keeps a state fitting if the way to the streams is open. -/
theorem meets_write {stream : Stream} {text : String} (hB : ¬ B.Mutes) :
    Stays B h g env n (write stream text) :=
  Meets.modify fun _ hs => ⟨hs.depth, hs.bound, hs.locals, hs.vars, fun hmute => absurd hmute hB⟩

/-- A stream at hand and a method that may be called on it open the way to the streams. -/
theorem not_mutes {s : Stream} {m : Library.PrintMethod} {name : String}
    (hs : (Value.stream s).Permitted B) (hname : Library.PrintMethod.ofName? name = some m)
    (hmethod : ¬ B (.method HostClass.printStream.name name)) : ¬ B.Mutes := by
  have hsystem : ¬ B (.cls HostClass.system.name) := hs .system rfl
  rintro (hcls | ⟨hprintln, hprint⟩)
  · exact hsystem hcls
  · unfold Library.PrintMethod.ofName? at hname
    split at hname
    · exact hmethod hprintln
    · exact hmethod hprint
    · cases hname

/-- A method of an object is confined if the object was got by a class that may be used. -/
theorem meets_callOwn (hhosts : h.Twins B g) {target : Value} (ht : target.Permitted B)
    {cls : HostClass} (hcls : target.cls? = some cls) {name : String}
    (hmethod : ¬ B (.method cls.name name)) (args : List Value) :
    Yields B h g env n (callOwn cls target name args) := by
  have hmissing : Yields B h g env n (throw (.noSuchMethod cls name)) := yields_thrown
  unfold callOwn
  split
  · rename_i s
    cases hm : Library.PrintMethod.ofName? name with
    | none => exact hmissing
    | some m =>
        cases hcls
        have hopen := not_mutes ht hm hmethod
        show Yields B h g env n (callPrint s m args)
        exact yields_lift fun _ _ => .bind (meets_write hopen) fun _ => yields_plain rfl
  · cases Library.StringMethod.ofName? name with
    | none => exact hmissing
    | some m =>
        exact yields_lifted fun v hv => Value.permitted_of_source (callString_source hv)
  · cases Library.RuntimeMethod.ofName? name with
    | none => exact hmissing
    | some m =>
        show Yields B h g env n (callRuntime m name args)
        unfold callRuntime
        split
        · exact .bind (.processors hhosts) fun _ => yields_plain rfl
        · exact yields_thrown
        · exact yields_thrown
  · rename_i p
    cases Library.FileMethod.ofName? name with
    | none => exact hmissing
    | some m =>
        show Yields B h g env n (callFile p m name args)
        have hfiles : ¬ B.HidesFiles := fun hB => ht .file rfl hB.1
        unfold callFile
        split
        · exact .bind (.files hhosts hfiles) fun _ => yields_plain rfl
        · exact yields_plain rfl
        · exact yields_plain rfl
        · exact yields_thrown
  · cases Library.PathMethod.ofName? name with
    | none => exact hmissing
    | some m => exact yields_lifted fun v hv => callPath_permitted ht hv
  · exact hmissing

theorem meets_callMethod (hhosts : h.Twins B g) {target : Value} (ht : target.Permitted B)
    (name : String) (args : List Value) : Yields B h g env n (callMethod target name args) := by
  unfold callMethod
  split
  · exact yields_thrown
  · rename_i cls hcls
    refine .bind (.check hhosts (State.Fits.stable B env n) _) fun _ => .assume fun hmethod => ?_
    split
    · exact yields_lifted fun v hv => Value.permitted_of_source (callObject_source hv)
    · exact meets_callOwn hhosts ht hcls hmethod args

end Library

end Run
end Machine
end GuardedRepl
