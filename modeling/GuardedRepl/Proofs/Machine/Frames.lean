import GuardedRepl.Proofs.Machine.Assembly

/-!
# The names in a state

Which names a state binds, block by block and in the session.  Only a declaration changes this, and
it changes nothing but the innermost block.

**Results.**
* `isSome_lookup_iff`: a variable has a value exactly if its name is bound somewhere.
* `assign_names`: an assignment binds nothing new and frees nothing.
* `roomy_outer`: a statement leaves the names outside the innermost block alone.
-/

namespace GuardedRepl
namespace Machine

/-- The names that a state binds: block by block from the inside, and in the session. -/
def State.names (s : State) : List (List String) × List String :=
  (s.frames.map (·.map Prod.fst), s.session.vars.map Variable.name)

theorem isSome_lookup_frame (name : String) (frame : Frame) :
    (frame.lookup name).isSome ↔ name ∈ frame.map Prod.fst := by
  induction frame with
  | nil => simp
  | cons p frame ih =>
      obtain ⟨other, v⟩ := p
      rw [List.lookup_cons]
      by_cases hname : name = other
      · simp [hname]
      · have hne : (name == other) = false := by simpa using hname
        simp only [hne, List.map_cons, List.mem_cons, hname, false_or]
        exact ih

theorem lookupIn_eq (name : String) (frames : List Frame) :
    State.lookupIn name frames = (frames.map (·.lookup name)).findSome? id := by
  induction frames with
  | nil => rfl
  | cons frame frames ih =>
      unfold State.lookupIn
      cases hv : frame.lookup name with
      | some v => simp [hv]
      | none => simp [hv, ih]

theorem isSome_lookupIn_iff (name : String) (frames : List Frame) :
    (State.lookupIn name frames).isSome ↔
      ∃ names ∈ frames.map (·.map Prod.fst), name ∈ names := by
  induction frames with
  | nil => simp [State.lookupIn]
  | cons frame frames ih =>
      have hframe := isSome_lookup_frame name frame
      unfold State.lookupIn
      cases hv : frame.lookup name with
      | some v =>
          rw [hv] at hframe
          simp only [List.map_cons, List.mem_cons]
          exact ⟨fun _ => ⟨_, Or.inl rfl, hframe.mp rfl⟩, fun _ => rfl⟩
      | none =>
          rw [hv] at hframe
          simp only [List.map_cons, List.mem_cons, exists_eq_or_imp]
          rw [ih]
          exact ⟨Or.inr, fun hor => hor.resolve_left fun hin => absurd (hframe.mpr hin) (by simp)⟩

theorem isSome_find?_iff (name : String) (s : Session) :
    (s.find? name).isSome ↔ name ∈ s.vars.map Variable.name := by
  simp [Session.find?]

/-- A variable has a value exactly if its name is bound somewhere. -/
theorem isSome_lookup_iff (s : State) (name : String) :
    (s.lookup name).isSome ↔ (∃ names ∈ s.names.1, name ∈ names) ∨ name ∈ s.names.2 := by
  have hin := isSome_lookupIn_iff name s.frames
  have hsession := isSome_find?_iff name s.session
  unfold State.lookup State.names
  simp only
  cases hv : State.lookupIn name s.frames with
  | some v =>
      rw [hv] at hin
      exact ⟨fun _ => Or.inl (hin.mp rfl), fun _ => rfl⟩
  | none =>
      rw [hv] at hin
      rw [Option.isSome_map, hsession]
      exact ⟨Or.inr, fun hor => hor.resolve_left fun hex => absurd (hin.mpr hex) (by simp)⟩

theorem assignIn_names {name : String} {v : Value} : ∀ {frames frames' : List Frame},
    State.assignIn name v frames = some frames' →
      frames'.map (·.map Prod.fst) = frames.map (·.map Prod.fst)
  | [], _, h => by
      cases h
  | frame :: frames, _, h => by
      unfold State.assignIn at h
      split at h
      · cases h
        have hfst : ∀ p : String × Value,
            (if p.1 = name then (p.1, v) else (p.1, p.2)).1 = p.1 := by
          intro p
          split <;> rfl
        simp [List.map_map, Function.comp_def, hfst]
      · obtain ⟨rest, hrest, rfl⟩ := Option.map_eq_some_iff.mp h
        rw [List.map_cons, List.map_cons, assignIn_names hrest]

theorem name_of_update (name : String) (v : Value) (w : Variable) :
    (if w.name = name then { w with value := v } else w).name = w.name := by
  split <;> rfl

theorem names_assign (s : Session) (name : String) (v : Value) :
    (s.assign name v).vars.map Variable.name = s.vars.map Variable.name := by
  simp [Session.assign, List.map_map, Function.comp_def, name_of_update]

/-- An assignment binds nothing new and frees nothing. -/
theorem assign_names {s t : State} {name : String} {v : Value} (h : s.assign name v = some t) :
    t.names = s.names := by
  rcases State.assign_cases h with ⟨frames, hframes, rfl⟩ | ⟨-, rfl⟩
  · simp only [State.names, assignIn_names hframes]
  · simp only [State.names, names_assign]

theorem isSome_assignIn (name : String) (v : Value) (frames : List Frame) :
    (State.assignIn name v frames).isSome = (State.lookupIn name frames).isSome := by
  induction frames with
  | nil => rfl
  | cons frame frames ih =>
      unfold State.assignIn State.lookupIn
      cases hv : frame.lookup name with
      | some w => rfl
      | none =>
          simp only [Option.isSome_none, Bool.false_eq_true, if_false, Option.isSome_map]
          exact ih

theorem lookupIn_of_assignIn {name : String} {v : Value} {frames : List Frame}
    (h : State.assignIn name v frames = none) : State.lookupIn name frames = none := by
  have hsome := isSome_assignIn name v frames
  rw [h, Option.isSome_none] at hsome
  exact Option.isNone_iff_eq_none.mp (Option.isSome_eq_false_iff.mp hsome.symm)

/-- There is a variable to assign to exactly if its name is bound. -/
theorem isSome_assign (s : State) (name : String) (v : Value) :
    (s.assign name v).isSome = (s.lookup name).isSome := by
  have hframes := isSome_assignIn name v s.frames
  unfold State.assign State.lookup
  cases ha : State.assignIn name v s.frames with
  | some frames =>
      rw [ha] at hframes
      obtain ⟨w, hw⟩ := Option.isSome_iff_exists.mp hframes.symm
      rw [hw]
      rfl
  | none =>
      rw [lookupIn_of_assignIn ha]
      simp only [Option.isSome_map]
      split
      · rename_i hfound
        exact hfound.symm
      · rename_i hmissing
        exact (Bool.eq_false_iff.mpr hmissing).symm

/-- Two states bind the same names outside the innermost block. -/
def Outer (s t : State) : Prop :=
  t.names.1.tail = s.names.1.tail ∧ t.names.2 = s.names.2

theorem roomy_outer : Roomy Outer where
  trans hst htu := ⟨htu.1.trans hst.1, htu.2.trans hst.2⟩
  asked hs hf := by
    simp only [Outer, State.names, hs, hf, and_self]
  block {s t} hst := by
    refine ⟨?_, hst.2⟩
    have hrest : t.frames.tail.map (·.map Prod.fst) = s.frames.map (·.map Prod.fst) := by
      rw [List.map_tail]
      exact hst.1
    simp only [State.names, hrest]
  assign h := by
    simp only [Outer, assign_names h, and_self]
  declare s name v := by
    unfold State.declareLocal Outer State.names
    cases s.frames with
    | nil => exact ⟨rfl, rfl⟩
    | cons frame frames => exact ⟨rfl, rfl⟩

end Machine
end GuardedRepl
