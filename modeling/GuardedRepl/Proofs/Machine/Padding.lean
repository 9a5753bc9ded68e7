import GuardedRepl.Proofs.Machine.Frames
import GuardedRepl.Proofs.Machine.Programs
import GuardedRepl.Proofs.Machine.Triple

/-!
# Empty blocks

An empty block among the blocks of a state makes no difference to a run: variables are looked for in
the blocks further out, and declared further in.  Neither does a question whether to stop, if the
host never says so.  So a run can be followed along another one that opens more blocks on its way.

**Results.**
* `Pads.bind`, `Pads.inBlock`, `Pads.repeated`: how runs that go alike are put together.
* `Pads.wider`, `Pads.polled`: a block more, and a question more.
* `Woven.pads`: every program goes alike with and without empty blocks.
-/

namespace GuardedRepl
namespace Machine

/-- Two states with the same session, after the same effects and the same answers of the host. -/
structure State.Alike (s t : State) : Prop where
  session : t.session = s.session
  checks : t.progress.checks = s.progress.checks
  readings : t.progress.readings = s.progress.readings
  slept : t.progress.slept = s.progress.slept
  effects : t.effects.map Entry.effect = s.effects.map Entry.effect

theorem State.Alike.withFrames {s t : State} (h : s.Alike t) (inner outer : List Frame) :
    State.Alike { s with frames := inner } { t with frames := outer } :=
  ⟨h.session, h.checks, h.readings, h.slept, h.effects⟩

/-- Two states that are alike, where the second one has `k` empty blocks more, around the `n`
innermost blocks. -/
structure State.Padded (n k : Nat) (s t : State) : Prop extends State.Alike s t where
  frames : ∃ inner outer, inner.length = n ∧ s.frames = inner ++ outer ∧
    t.frames = inner ++ (List.replicate k [] ++ outer)

/-! ### Blocks -/

namespace State.Padded

variable {n k : Nat} {s t : State}

/-- Without an empty block the blocks are the same. -/
theorem frames_eq (h : s.Padded n 0 t) : t.frames = s.frames := by
  obtain ⟨inner, outer, -, hs, ht⟩ := h.frames
  exact ht.trans hs.symm

theorem of_frames_eq (h : s.Alike t) (hframes : t.frames = s.frames) : s.Padded 0 0 t :=
  ⟨h, [], s.frames, rfl, rfl, hframes⟩

theorem enter (h : s.Padded n k t) : s.enter.Padded (n + 1) k t.enter := by
  obtain ⟨inner, outer, hn, hs, ht⟩ := h.frames
  refine ⟨h.toAlike.withFrames _ _, [] :: inner, outer, ?_, ?_, ?_⟩
  · rw [List.length_cons, hn]
  · simp only [State.enter, hs, List.cons_append]
  · simp only [State.enter, ht, List.cons_append]

theorem leave (h : s.Padded (n + 1) k t) : s.leave.Padded n k t.leave := by
  obtain ⟨inner, outer, hn, hs, ht⟩ := h.frames
  cases inner with
  | nil => cases hn
  | cons frame inner =>
      refine ⟨h.toAlike.withFrames _ _, inner, outer, Nat.succ.inj hn, ?_, ?_⟩
      · simp only [State.leave, hs, List.cons_append, List.tail_cons]
      · simp only [State.leave, ht, List.cons_append, List.tail_cons]

theorem enterSame (h : s.Padded 0 0 t) : s.enter.Padded 0 0 t.enter :=
  .of_frames_eq (h.toAlike.withFrames _ _) (congrArg ([] :: ·) h.frames_eq)

theorem leaveSame (h : s.Padded 0 0 t) : s.leave.Padded 0 0 t.leave :=
  .of_frames_eq (h.toAlike.withFrames _ _) (congrArg List.tail h.frames_eq)

/-- One empty block more. -/
theorem widen (h : s.Padded 0 k t) : s.Padded 0 (k + 1) t.enter := by
  obtain ⟨inner, outer, hn, hs, ht⟩ := h.frames
  cases List.length_eq_zero_iff.mp hn
  refine ⟨h.toAlike.withFrames s.frames _, [], outer, rfl, hs, ?_⟩
  simp only [State.enter, ht, List.replicate_succ, List.nil_append, List.cons_append]

/-- One empty block less. -/
theorem narrow (h : s.Padded 0 (k + 1) t) : s.Padded 0 k t.leave := by
  obtain ⟨inner, outer, hn, hs, ht⟩ := h.frames
  cases List.length_eq_zero_iff.mp hn
  refine ⟨h.toAlike.withFrames s.frames _, [], outer, rfl, hs, ?_⟩
  simp only [State.leave, ht, List.replicate_succ, List.nil_append, List.cons_append,
    List.tail_cons]

end State.Padded

/-! ### Variables -/

theorem lookupIn_append_replicate (name : String) (k : Nat) (inner outer : List Frame) :
    State.lookupIn name (inner ++ (List.replicate k [] ++ outer)) =
      State.lookupIn name (inner ++ outer) := by
  simp only [lookupIn_eq, List.map_append, List.map_replicate, List.lookup_nil,
    List.findSome?_append]
  congr 1
  induction k with
  | zero => rfl
  | succ k ih => exact ih

theorem State.Padded.lookup {n k : Nat} {s t : State} (h : s.Padded n k t) (name : String) :
    t.lookup name = s.lookup name := by
  obtain ⟨inner, outer, -, hs, ht⟩ := h.frames
  unfold State.lookup
  rw [hs, ht, lookupIn_append_replicate, h.session]

theorem assignIn_append (name : String) (v : Value) (inner outer : List Frame) :
    State.assignIn name v (inner ++ outer) =
      ((State.assignIn name v inner).map (· ++ outer)).or
        ((State.assignIn name v outer).map (inner ++ ·)) := by
  induction inner with
  | nil => simp [State.assignIn]
  | cons frame inner ih =>
      rw [List.cons_append, State.assignIn, State.assignIn]
      split
      · rfl
      · rw [ih]
        cases State.assignIn name v inner <;> cases State.assignIn name v outer <;> rfl

theorem assignIn_replicate_append (name : String) (v : Value) (k : Nat) (outer : List Frame) :
    State.assignIn name v (List.replicate k [] ++ outer) =
      (State.assignIn name v outer).map (List.replicate k [] ++ ·) := by
  have hnone : State.assignIn name v (List.replicate k []) = none := by
    induction k with
    | zero => rfl
    | succ k ih =>
        rw [List.replicate_succ, State.assignIn, ih]
        rfl
  rw [assignIn_append, hnone]
  rfl

/-- There is a variable to assign to with the empty blocks if there is one without. -/
theorem assignIn_padded (name : String) (v : Value) (k : Nat) (inner outer : List Frame) :
    (State.assignIn name v (inner ++ outer) = none ∧
        State.assignIn name v (inner ++ (List.replicate k [] ++ outer)) = none) ∨
      ∃ inner' outer', inner'.length = inner.length ∧
        State.assignIn name v (inner ++ outer) = some (inner' ++ outer') ∧
        State.assignIn name v (inner ++ (List.replicate k [] ++ outer)) =
          some (inner' ++ (List.replicate k [] ++ outer')) := by
  rw [assignIn_append, assignIn_append, assignIn_replicate_append]
  cases hinner : State.assignIn name v inner with
  | some inner' =>
      have hlength := congrArg List.length (assignIn_names hinner)
      rw [List.length_map, List.length_map] at hlength
      exact Or.inr ⟨inner', outer, hlength, rfl, rfl⟩
  | none =>
      cases houter : State.assignIn name v outer with
      | none => exact Or.inl ⟨rfl, rfl⟩
      | some outer' => exact Or.inr ⟨inner, outer', rfl, rfl, rfl⟩

theorem State.Padded.assign {n k : Nat} {s t : State} (h : s.Padded n k t) (name : String)
    (v : Value) : (s.assign name v = none ∧ t.assign name v = none) ∨
      ∃ s' t', s.assign name v = some s' ∧ t.assign name v = some t' ∧ s'.Padded n k t' := by
  obtain ⟨inner, outer, hn, hs, ht⟩ := h.frames
  unfold State.assign
  rw [hs, ht]
  rcases assignIn_padded name v k inner outer with ⟨hi, ho⟩ | ⟨inner', outer', hlength, hi, ho⟩ <;>
    rw [hi, ho]
  · rw [h.session]
    cases (s.session.find? name).isSome with
    | false => exact Or.inl ⟨rfl, rfl⟩
    | true =>
        exact Or.inr ⟨_, _, rfl, rfl, ⟨rfl, h.checks, h.readings, h.slept, h.effects⟩,
          inner, outer, hn, rfl, rfl⟩
  · exact Or.inr ⟨_, _, rfl, rfl, ⟨h.session, h.checks, h.readings, h.slept, h.effects⟩,
      inner', outer', hlength.trans hn, rfl, rfl⟩

theorem declareLocal_frames {s : State} {frame : Frame} {frames : List Frame}
    (hs : s.frames = frame :: frames) (name : String) (v : Value) :
    (s.declareLocal name v).frames =
      ((name, v) :: frame.filter fun p => p.1 ≠ name) :: frames := by
  unfold State.declareLocal
  rw [hs]

/-! ### Runs that go alike -/

namespace Run

variable {α β : Type} {h : Host} {n k : Nat}

/-- The state behind a question whether to stop. -/
def afterPoll (s : State) : State :=
  { s with progress := { s.progress with polls := s.progress.polls + 1 } }

/-- A host that never says to stop lets a run go on. -/
theorem poll_of_go (hgo : ∀ p, h.stops p = false) (s : State) :
    poll h s = (.ok (), afterPoll s) := by
  simp only [poll, hgo]
  rfl

/-- Two runs yield the same, or are interrupted by the same, from states that differ in empty blocks
only, and leave such states. -/
def Pads (h : Host) (n k : Nat) (x y : Run α) : Prop :=
  ∀ s t, s.Padded n k t → (x h s).1 = (y h t).1 ∧ (x h s).2.Padded n k (y h t).2

namespace Pads

theorem result (a : α) : Pads h n k (pure a : Run α) (pure a) :=
  fun _ _ hst => ⟨rfl, hst⟩

theorem bind {x y : Run α} {f g : α → Run β} (hxy : Pads h n k x y)
    (hfg : ∀ a, Pads h n k (f a) (g a)) : Pads h n k (x >>= f) (y >>= g) := by
  intro s t hst
  obtain ⟨hout, hleft⟩ := hxy s t hst
  rcases hx : x h s with ⟨e | a, s'⟩ <;> rcases hy : y h t with ⟨e' | a', t'⟩ <;>
    rw [hx, hy] at hout hleft <;> cases hout
  · rw [bind_of_error hx, bind_of_error hy]
    exact ⟨rfl, hleft⟩
  · rw [bind_of_ok hx, bind_of_ok hy]
    exact hfg a s' t' hleft

/-- Both runs go on in a new block. -/
theorem inBlock {x y : Run α} (hxy : Pads h (n + 1) k x y) :
    Pads h n k (inBlock x) (inBlock y) := by
  intro s t hst
  obtain ⟨hout, hleft⟩ := hxy _ _ hst.enter
  exact ⟨hout, hleft.leave⟩

/-- Without an empty block the innermost block is the same for both runs, too. -/
theorem inSameBlock {x y : Run α} (hxy : Pads h 0 0 x y) :
    Pads h 0 0 (Run.inBlock x) (Run.inBlock y) := by
  intro s t hst
  obtain ⟨hout, hleft⟩ := hxy _ _ hst.enterSame
  exact ⟨hout, hleft.leaveSame⟩

/-- The second run goes on in a block of its own, which stays empty. -/
theorem wider {x y : Run α} (hxy : Pads h 0 (k + 1) x y) : Pads h 0 k x (Run.inBlock y) := by
  intro s t hst
  obtain ⟨hout, hleft⟩ := hxy _ _ hst.widen
  exact ⟨hout, hleft.narrow⟩

/-- The second run is asked first whether to stop, by a host that never says so. -/
theorem polled (hgo : ∀ p, h.stops p = false) {x y : Run α} (hxy : Pads h n k x y) :
    Pads h n k x (poll >>= fun _ => y) := by
  intro s t hst
  rw [bind_of_ok (poll_of_go hgo t)]
  exact hxy _ _ ⟨⟨hst.session, hst.checks, hst.readings, hst.slept, hst.effects⟩, hst.frames⟩

theorem rounds {x y : Run Bool} (hxy : Pads h n k x y) (m : Nat) :
    Pads h n k (Run.rounds x m) (Run.rounds y m) := by
  induction m with
  | zero => exact fun s t hst => ⟨rfl, hst⟩
  | succ m ih =>
      intro s t hst
      obtain ⟨hout, hleft⟩ := hxy s t hst
      rcases rounds_succ_cases x m h s with ⟨s', hx, hs⟩ | ⟨s', hx, hs⟩ | ⟨e, s', hx, hs⟩ <;>
        rcases rounds_succ_cases y m h t with ⟨t', hy, ht⟩ | ⟨t', hy, ht⟩ | ⟨e', t', hy, ht⟩ <;>
          rw [hx, hy] at hout hleft <;> cases hout <;> rw [hs, ht]
      · exact ih s' t' hleft
      · exact ⟨rfl, hleft⟩
      · exact ⟨rfl, hleft⟩

theorem repeated {x y : Run Bool} (hxy : Pads h n k x y) :
    Pads h n k (Run.repeated x) (Run.repeated y) :=
  hxy.rounds h.fuel

theorem poll (hgo : ∀ p, h.stops p = false) : Pads h n k poll poll := by
  intro s t hst
  rw [poll_of_go hgo, poll_of_go hgo]
  exact ⟨rfl, ⟨hst.session, hst.checks, hst.readings, hst.slept, hst.effects⟩, hst.frames⟩

theorem check (a : Access) : Pads h n k (check a) (check a) := by
  intro s t hst
  have hasked : State.Padded n k
      { s with
        progress := { s.progress with checks := s.progress.checks + 1 }
        effects := ⟨s.progress.polls, .checked a⟩ :: s.effects }
      { t with
        progress := { t.progress with checks := t.progress.checks + 1 }
        effects := ⟨t.progress.polls, .checked a⟩ :: t.effects } := by
    refine ⟨⟨hst.session, ?_, hst.readings, hst.slept, ?_⟩, hst.frames⟩
    · simp only [hst.checks]
    · simp only [List.map_cons, hst.effects]
  have hanswer : h.gate t.progress.checks a = h.gate s.progress.checks a := by rw [hst.checks]
  simp only [Run.check, hanswer]
  cases h.gate s.progress.checks a with
  | none => exact ⟨rfl, hasked⟩
  | some d => exact ⟨rfl, hasked⟩

theorem readClock : Pads h n k readClock readClock := by
  intro s t hst
  refine ⟨?_, ⟨hst.session, hst.checks, ?_, hst.slept, hst.effects⟩, hst.frames⟩
  · simp only [Run.readClock, hst.readings]
  · simp only [Run.readClock, hst.readings]

theorem doze (ms : Nat) : Pads h n k (doze ms) (doze ms) := by
  intro s t hst
  refine ⟨rfl, ⟨hst.session, hst.checks, hst.readings, ?_, hst.effects⟩, hst.frames⟩
  simp only [Run.doze, Run.modify, hst.slept]

theorem write (stream : Stream) (text : String) :
    Pads h n k (write stream text) (write stream text) := by
  intro s t hst
  refine ⟨rfl, ⟨hst.session, hst.checks, hst.readings, hst.slept, ?_⟩, hst.frames⟩
  simp only [Run.write, Run.modify, List.map_cons, hst.effects]

theorem lookup (name : String) : Pads h n k (lookup name) (lookup name) := by
  intro s t hst
  have hsame := hst.lookup name
  cases hv : s.lookup name with
  | none =>
      rw [hv] at hsame
      rw [lookup_eq_unbound hv, lookup_eq_unbound hsame]
      exact ⟨rfl, hst⟩
  | some v =>
      rw [hv] at hsame
      rw [lookup_eq_ok hv, lookup_eq_ok hsame]
      exact ⟨rfl, hst⟩

theorem assign (name : String) (v : Value) : Pads h n k (assign name v) (assign name v) := by
  intro s t hst
  rcases hst.assign name v with ⟨hs, ht⟩ | ⟨s', t', hs, ht, hst'⟩
  · rw [assign_eq_unbound hs, assign_eq_unbound ht]
    exact ⟨rfl, hst⟩
  · rw [assign_eq_ok hs, assign_eq_ok ht]
    exact ⟨rfl, hst'⟩

/-- A variable is declared in the innermost block, which is there in both states. -/
theorem declareLocal (hin : 0 < n ∨ k = 0) (name : String) (v : Value) :
    Pads h n k (declareLocal name v) (declareLocal name v) := by
  intro s t hst
  obtain ⟨inner, outer, hn, hs, ht⟩ := hst.frames
  refine ⟨rfl, hst.toAlike.withFrames _ _, ?_⟩
  cases inner with
  | nil =>
      have hk : k = 0 := hin.resolve_left fun hpos => absurd hn (Nat.ne_of_lt hpos)
      cases hk
      refine ⟨[], _, hn, rfl, ?_⟩
      simp only [Run.declareLocal, modify, State.declareLocal, hs, ht]
      rfl
  | cons frame inner =>
      exact ⟨((name, v) :: frame.filter fun p => p.1 ≠ name) :: inner, outer, hn,
        declareLocal_frames hs name v, declareLocal_frames ht name v⟩

end Pads

/-- Empty blocks make no difference to what is woven, if what it declares is declared further in,
or if there are none. -/
theorem Woven.pads (hgo : ∀ p, h.stops p = false) {W : String → Prop} {D : Prop} {x : Run α}
    (hx : Woven W D x) (hD : D → 0 < n ∨ k = 0) : Pads h n k x x := by
  -- Every block that the run opens is one more block inside the empty ones.
  induction hx generalizing n with
  | result a => exact .result a
  | thrown e => exact fun s t hst => ⟨rfl, hst⟩
  | files => exact fun s t hst => ⟨rfl, hst⟩
  | processors => exact fun s t hst => ⟨rfl, hst⟩
  | readClock => exact .readClock
  | doze ms => exact .doze ms
  | write stream text => exact .write stream text
  | poll => exact .poll hgo
  | check a => exact .check a
  | lookup name => exact .lookup name
  | assign v _ => exact .assign _ v
  | declareLocal name v hd => exact .declareLocal (hD hd) name v
  | bind _ _ ihx ihf => exact .bind (ihx hD) fun a => ihf a hD
  | inBlock _ ih => exact .inBlock (ih fun _ => Or.inl (Nat.succ_pos _))
  | repeated _ _ ih => exact .repeated (ih hD)

end Run

end Machine
end GuardedRepl
