import GuardedRepl.Proofs.Machine.Upkeep
import GuardedRepl.Proofs.Program.Literals
import GuardedRepl.Proofs.Value.Strings

/-!
# The strings of a run

A run begins with the strings of the session and those that its program spells out.  It makes new
ones by sums, by the methods of strings and paths, and by reading files.  All but a few of these
measure a string before they make it, and throw if it is too long.

**Results.**
* `upkeep_short`: the values of all variables and expressions stay short, if the literals are short
  and the calls that measure nothing yield short strings.
* `Builds.outOfMemory`: what measures a string throws if it is too long.
-/

namespace GuardedRepl

/-- Every string of a session is short. -/
def Session.Short (s : Session) : Prop :=
  ∀ x ∈ s.vars, x.value.Short

namespace Machine

open Program Run

/-! ### Short strings stay short -/

/-- A call that does not measure the string it builds yields a short one. -/
def BuildsShort (h : Host) : Task → State → Prop
  | .expr (.call e name es), s =>
    name ∈ unmeasured → ∀ v t, eval (.call e name es) h s = (.ok v, t) → v.Short
  | .expr (.staticCall m es), s =>
    m = .valueOf → ∀ v t, eval (.staticCall m es) h s = (.ok v, t) → v.Short
  | _, _ => True

/-- The literals of a part are short. -/
def Task.SpellsShort (task : Task) : Prop :=
  ∀ text ∈ task.strings, (Value.str text).Short

/-- Every variable of a state has a short value. -/
structure State.Short (s : State) : Prop where
  session : s.session.Short
  frames : ∀ frame ∈ s.frames, ∀ p ∈ frame, p.2.Short

theorem State.Short.lookup {s : State} (hs : s.Short) {name : String} {v : Value}
    (hv : s.lookup name = some v) : v.Short := by
  unfold State.lookup at hv
  split at hv
  · rename_i w hw
    cases hv
    obtain ⟨frame, hframe, hmem⟩ := mem_of_lookupIn hw
    exact hs.frames frame hframe _ hmem
  · obtain ⟨x, hx, rfl⟩ := Option.map_eq_some_iff.mp hv
    exact hs.session x (List.mem_of_find?_eq_some hx)

theorem State.Short.assign {s t : State} (hs : s.Short) {name : String} {v : Value} (hv : v.Short)
    (ht : s.assign name v = some t) : t.Short := by
  rcases State.assign_cases ht with ⟨frames, hframes, rfl⟩ | ⟨-, rfl⟩
  · refine ⟨hs.session, fun frame hframe p hp => ?_⟩
    rcases (assignIn_mem hframes).2 frame hframe p hp with heq | ⟨frame', hframe', hp'⟩
    · exact heq ▸ hv
    · exact hs.frames frame' hframe' p hp'
  · refine ⟨fun x hx => ?_, hs.frames⟩
    obtain ⟨y, hy, rfl⟩ := List.mem_map.mp hx
    split
    · exact hv
    · exact hs.session y hy

theorem State.Short.declareLocal {s : State} (hs : s.Short) {name : String} {v : Value}
    (hv : v.Short) : (s.declareLocal name v).Short := by
  refine ⟨hs.session, fun frame hframe p hp => ?_⟩
  have hframes := hs.frames
  unfold State.declareLocal at hframe
  revert hframe
  cases heq : s.frames with
  | nil => exact fun hframe => absurd hframe List.not_mem_nil
  | cons first rest =>
      rw [heq] at hframes
      intro hframe
      rcases List.mem_cons.mp hframe with rfl | hframe
      · rcases List.mem_cons.mp hp with rfl | hp
        · exact hv
        · exact hframes first List.mem_cons_self p (List.mem_filter.mp hp).1
      · exact hframes frame (List.mem_cons_of_mem _ hframe) p hp

/-- The values of variables and expressions stay short, if the literals are short and the calls that
measure nothing yield short strings. -/
theorem upkeep_short (h : Host) :
    Upkeep h (fun task s => BuildsShort h task s ∧ task.SpellsShort) State.Short Value.Short where
  same {s t} hvars hframes hs := by
    refine ⟨fun x hx => hs.session x (hvars ▸ hx), ?_⟩
    rw [hframes]
    exact hs.frames
  enter hs := by
    refine ⟨hs.session, List.forall_mem_cons.mpr ⟨fun p hp => ?_, hs.frames⟩⟩
    exact absurd hp List.not_mem_nil
  leave hs := ⟨hs.session, fun frame hframe => hs.frames frame (List.mem_of_mem_tail hframe)⟩
  lookup hs hv := hs.lookup hv
  declareLocal hs hv := hs.declareLocal hv
  declare {s d v w snippet} hs hv hw := by
    obtain ⟨rfl, -, -⟩ := Upkeep.fitted_eq hw
    refine ⟨fun x hx => ?_, hs.frames⟩
    rcases List.mem_cons.mp hx with rfl | hx
    · exact hv
    · exact hs.session x (List.mem_filter.mp hx).1
  assign hs hv _ _ ht := hs.assign hv ht
  step hs _ ht := State.Short.assign hs (v := .int _) trivial ht
  plain {v} hv := by
    cases v with
    | str s => exact absurd rfl (hv s)
    | _ => trivial
  literal hL := hL.2 _ List.mem_cons_self
  default := DeclaredType.default_short
  arith := Value.arith_short
  staticCall {m es args s t u v} hL heval hcall := by
    by_cases hm : m = .valueOf
    · exact hL.1 hm v u heval
    · exact ((observes_callStatic m args h t).ok v u hcall).2 hm
  call {e name es target args s t u v} htarget hL heval hcall := by
    by_cases hname : name ∈ unmeasured
    · exact hL.1 hname v u heval
    · exact ((observes_callMethod target name args h t).ok v u hcall).2 htarget hname

/-! ### Strings that are too long -/

/-- The two values make a string of that many bytes together. -/
inductive Joins : Value → Value → Nat → Prop
  | left {a : String} {w : Value} : Joins (.str a) w (a.utf8ByteSize + w.text.utf8ByteSize)
  | right {v : Value} {b : String} : v ≠ .void →
      Joins v (.str b) (v.text.utf8ByteSize + b.utf8ByteSize)

/-- The expression is to build a string of that many bytes, once it has come to a state. -/
inductive Builds (h : Host) : Expr → State → Nat → State → Prop
  | sum {s t u : State} {l r : Expr} {v w : Value} {n : Nat} :
      eval l h s = (.ok v, t) → eval r h t = (.ok w, u) → Joins v w n →
      Builds h (.arith .add l r) s n u
  | assigned {s t : State} {name : String} {e : Expr} {v w : Value} {n : Nat} :
      eval e h s = (.ok w, t) → t.lookup name = some v → Joins v w n →
      Builds h (.assign name (some .add) e) s n t
  | repeated {s t u w x : State} {e : Expr} {es : List Expr} {text : String} {n : Int64} :
      Run.poll h s = (.ok (), t) → eval e h t = (.ok (.str text), u) →
      evalAll es h u = (.ok [.int n], w) →
      Run.check (.method Library.HostClass.string.name "repeat") h w = (.ok (), x) → 0 ≤ n →
      Builds h (.call e "repeat" es) s (text.utf8ByteSize * n.toNatClampNeg) x
  | read {s t u w x : State} {es : List Expr} {p : Files.Path} {content : List UInt8} :
      Run.poll h s = (.ok (), t) →
      Run.check (.cls Library.StaticMethod.readString.owner.name) h t = (.ok (), u) →
      Run.check (.method Library.StaticMethod.readString.owner.name
        Library.StaticMethod.readString.name) h u = (.ok (), w) →
      evalAll es h w = (.ok [.path p], x) → h.files.lookup p = .ok (.file content) →
      Builds h (.staticCall .readString es) s content.length x

theorem Joins.arith {v w : Value} {n : Nat} (h : Joins v w n) (hn : Value.maxStringBytes < n) :
    v.arith .add w = .error .outOfMemory := by
  cases h with
  | left => exact if_pos hn
  | @right v b hv =>
      cases v with
      | void => exact absurd rfl hv
      | _ => exact if_pos hn

/-- What measures a string throws if it is too long. -/
theorem Builds.outOfMemory {h : Host} {e : Expr} {s t : State} {n : Nat}
    (hbuilds : Builds h e s n t) (hn : Value.maxStringBytes < n) :
    eval e h s = (.error (.thrown .outOfMemory), t) := by
  cases hbuilds with
  | sum hl hr hjoins =>
      rw [eval, bind_of_ok hl, bind_of_ok hr, hjoins.arith hn]
      rfl
  | @assigned _ _ name _ v w _ he hv hjoins =>
      rw [eval, bind_of_ok he, bind_of_ok (lookup_eq_ok hv h), hjoins.arith hn]
      rfl
  | @repeated _ _ _ _ _ _ _ text k hpoll he hes hcheck hk =>
      have hreplicate : Value.Strings.replicate text k = .error .outOfMemory := by
        rw [Value.Strings.replicate, if_neg (Int64.not_lt.mpr hk), if_pos hn]
      rw [eval, bind_of_ok hpoll, bind_of_ok he, bind_of_ok hes,
        Value.Strings.callMethod_string (by decide) (show _ = some .repeat by decide) hcheck]
      show Run.lift (Value.Strings.replicate text k >>= fun s => pure (Value.str s)) h t = _
      rw [hreplicate]
      rfl
  | @read _ _ _ _ _ _ p _ hpoll hcls hmethod hes hfile =>
      have hread : readString h.files p = .error .outOfMemory := by
        rw [readString, hfile]
        exact if_pos hn
      rw [eval, bind_of_ok hpoll, bind_of_ok hcls, bind_of_ok hmethod, bind_of_ok hes]
      show Run.lift (readString h.files p) h t = _
      rw [hread]
      rfl

end Machine
end GuardedRepl
