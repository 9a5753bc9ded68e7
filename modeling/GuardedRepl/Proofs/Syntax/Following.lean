import GuardedRepl.Proofs.Syntax.Descent
import GuardedRepl.Proofs.Syntax.Twins

/-!
# Following a reader

A descent and a reader stand at the same tokens, take them step by step and come to the same end,
if the descent may go deep enough.  There is one rule for each way in which both of them are put
together.  The last token is the end of the source, which neither of them takes, so the descent
never gets past it.

**Results.**
* `Tracks.bind`, `Tracks.eat`, `Tracks.advance`, ...: one step after another.
* `Tracks.called`: one call deeper.
* `Tracks.entered`: a layer is entered and left.
* `tracks_ident`, `tracks_expect`, `tracks_path`, ...: the parts that enter no layer.
-/

namespace GuardedRepl
namespace Syntax
namespace Descent

open Source
open Reader (maxNesting)

variable {α β : Type}

/-! ## Following a reader -/

/-- The cursor stands where the descent does, in front of one of the tokens. -/
structure Stands (tokens : List Token) (p : Place) (c : Cursor) : Prop where
  inside : p.position < tokens.length
  ahead : c.ahead = tokens.drop p.position
  behind {t : Token} (h : tokens[p.position - 1]? = some t) (hpos : 0 < p.position) :
    c.behind = t.span

/-- A descent has come to an end as a reader has.  If there is a result, the descent is in `depth`
layers in front of one of the tokens behind the first `position` ones, where the reader is, too.
There have never been more layers than one too many. -/
inductive Follows (tokens : List Token) (position depth : Nat) :
    Option (Except Stop α × Place) → Except Fault (α × Cursor) → Prop where
  | ok {a : α} {p : Place} {c : Cursor} (hstands : Stands tokens p c)
      (hposition : position ≤ p.position) (hdepth : p.depth = depth)
      (hdeepest : p.deepest ≤ maxNesting + 1) :
      Follows tokens position depth (some (.ok a, p)) (.ok (a, c))
  | fault {f : Fault} {p : Place} (hdeepest : p.deepest ≤ maxNesting + 1) :
      Follows tokens position depth (some (.error (.fault f), p)) (.error f)

/-- From position `i` and depth `d` a descent that may go deep enough follows a reader, to a
position of at least `j` and to depth `e`. -/
def Tracks (tokens : List Token) (i d j e : Nat) (x : Nat → Descent α) (r : Reader α) : Prop :=
  ∀ c, ∃ enough, ∀ calls p, enough ≤ calls → Stands tokens p c → p.position = i → p.depth = d →
    p.deepest ≤ maxNesting + 1 → Follows tokens j e (x calls p) (r c)

/-- From a place a descent that may go deep enough comes to an end as a reader has. -/
def Ends (tokens : List Token) (position depth : Nat) (x : Nat → Descent α) (p : Place)
    (reading : Except Fault (α × Cursor)) : Prop :=
  ∃ enough, ∀ calls, enough ≤ calls → Follows tokens position depth (x calls p) reading

/-- The last token is the end of the source. -/
def EndsSource (tokens : List Token) : Prop :=
  tokens.getLast?.map Token.kind = some .endOfSource

variable {tokens : List Token} {i d j e k f : Nat} {x : Nat → Descent α} {r : Reader α}
  {g : Nat → α → Descent β} {h : α → Reader β} {t : Token}

/-! ## Steps of a descent -/

section Steps

variable {y : Descent α} {z : α → Descent β} {p q : Place}

theorem bind_of_ok {a : α} (hy : y p = some (.ok a, q)) : (y >>= z) p = z a q := by
  change (y p >>= fun o => ExceptT.bindCont z o.1 o.2) = _
  rw [hy]
  rfl

theorem bind_of_error {s : Stop} (hy : y p = some (.error s, q)) :
    (y >>= z) p = some (.error s, q) := by
  change (y p >>= fun o => ExceptT.bindCont z o.1 o.2) = _
  rw [hy]
  rfl

theorem get_eq (p : Place) : (get : Descent Place) p = some (.ok p, p) :=
  rfl

theorem enter_eq (s : Span) (p : Place) :
    enter s p = some (if maxNesting < p.depth + 1 then .error (.fault ⟨s, .tooDeep⟩) else .ok (),
      { p with depth := p.depth + 1, deepest := max p.deepest (p.depth + 1) }) := by
  unfold enter
  rw [bind_of_ok (get_eq p), bind_of_ok (rfl : (set _ : Descent PUnit) p = some (.ok ⟨⟩, _))]
  by_cases hlimit : maxNesting < p.depth + 1
  · rw [if_pos hlimit, if_pos hlimit]
    rfl
  · rw [if_neg hlimit, if_neg hlimit]
    rfl

theorem leave_eq {levels : Nat} (hlevels : levels ≤ p.depth) :
    leave levels p = some (.ok (), { p with depth := p.depth - levels }) := by
  unfold leave
  rw [bind_of_ok (get_eq p), if_neg (by omega)]
  rfl

variable (ht : tokens[i]? = some t) (hi : p.position = i)
include ht hi

theorem peek_eq : peek tokens p = some (.ok t.kind, p) := by
  change some (Except.ok (((tokenAt tokens p.position).map Token.kind).getD .endOfSource), p) = _
  rw [hi, tokenAt, ht, Option.some_or, Option.map_some, Option.getD_some]

theorem here_eq : here tokens p = some (.ok t.span, p) := by
  change some (Except.ok (((tokenAt tokens p.position).map Token.span).getD ⟨0, 0⟩), p) = _
  rw [hi, tokenAt, ht, Option.some_or, Option.map_some, Option.getD_some]

theorem sees_eq (op : Punct) :
    sees tokens op p = some (.ok (decide (t.kind = .punct op)), p) := by
  rw [sees, bind_of_ok (peek_eq ht hi)]
  rfl

theorem advance_eq : advance tokens p = some (.ok t, { p with position := p.position + 1 }) := by
  subst hi
  unfold advance
  rw [bind_of_ok (get_eq p), ht]
  rfl

theorem eat_eq_true {op : Punct} (hop : t.kind = .punct op) :
    eat tokens op p = some (.ok true, { p with position := p.position + 1 }) := by
  rw [eat, bind_of_ok (sees_eq ht hi op), decide_eq_true hop]
  rfl

theorem eat_eq_false {op : Punct} (hop : t.kind ≠ .punct op) :
    eat tokens op p = some (.ok false, p) := by
  rw [eat, bind_of_ok (sees_eq ht hi op), decide_eq_false hop]
  rfl

theorem expect_eq {op : Punct} (hop : t.kind = .punct op) :
    expect tokens op p = some (.ok t.span, { p with position := p.position + 1 }) := by
  rw [expect, bind_of_ok (sees_eq ht hi op), decide_eq_true hop, if_pos rfl,
    bind_of_ok (advance_eq ht hi)]
  rfl

end Steps

/-! ## Rules -/

theorem Stands.length_ahead {p : Place} {c : Cursor} (h : Stands tokens p c) :
    p.position = tokens.length - c.ahead.length := by
  have hinside := h.inside
  rw [h.ahead, List.length_drop]
  omega

theorem Tracks.ends {p : Place} {c : Cursor} (hx : Tracks tokens p.position p.depth j e x r)
    (hstands : Stands tokens p c) (hdeepest : p.deepest ≤ maxNesting + 1) :
    Ends tokens j e x p (r c) := by
  obtain ⟨enough, hx⟩ := hx c
  exact ⟨enough, fun calls hcalls => hx calls p hcalls hstands rfl rfl hdeepest⟩

theorem Tracks.mono (hx : Tracks tokens i d j e x r) (hk : k ≤ j) : Tracks tokens i d k e x r := by
  intro c
  obtain ⟨enough, hx⟩ := hx c
  refine ⟨enough, fun calls p hcalls hstands hi hd hdeepest => ?_⟩
  have hfollows := hx calls p hcalls hstands hi hd hdeepest
  generalize x calls p = run at hfollows ⊢
  generalize r c = reading at hfollows ⊢
  cases hfollows with
  | ok hs hposition hdepth hdeep => exact .ok hs (Nat.le_trans hk hposition) hdepth hdeep
  | fault hdeep => exact .fault hdeep

theorem Tracks.pure {a : α} (hj : j ≤ i) :
    Tracks tokens i d j d (fun _ => pure a) (pure a) := by
  refine fun c => ⟨0, fun calls p _ hstands hi hd hdeepest => ?_⟩
  subst hi hd
  exact .ok hstands hj rfl hdeepest

theorem Tracks.bind (hx : Tracks tokens i d j e x r)
    (hf : ∀ a i', j ≤ i' → Tracks tokens i' e k f (fun calls => g calls a) (h a)) :
    Tracks tokens i d k f (fun calls => x calls >>= g calls) (r >>= h) := by
  intro c
  obtain ⟨enough, hx⟩ := hx c
  change ∃ enough, ∀ calls p, _ → _ → _ → _ → _ →
    Follows tokens k f _ (r c >>= fun y => h y.1 y.2)
  generalize r c = reading at hx
  cases reading with
  | error fault =>
      refine ⟨enough, fun calls p hcalls hstands hi hd hdeepest => ?_⟩
      have hfollows := hx calls p hcalls hstands hi hd hdeepest
      generalize hrun : x calls p = run at hfollows
      cases hfollows with
      | fault hdeep =>
          rw [bind_of_error hrun]
          exact .fault hdeep
  | ok y =>
      obtain ⟨a, c'⟩ := y
      -- the cursor settles where the second part goes on, so one number is enough for all places
      by_cases hj : j ≤ tokens.length - c'.ahead.length
      · obtain ⟨more, hf⟩ := hf a _ hj c'
        refine ⟨max enough more, fun calls p hcalls hstands hi hd hdeepest => ?_⟩
        have hfollows := hx calls p (by omega) hstands hi hd hdeepest
        generalize hrun : x calls p = run at hfollows
        cases hfollows with
        | ok hs hposition hdepth hdeep =>
            rw [bind_of_ok hrun]
            exact hf calls _ (by omega) hs hs.length_ahead hdepth hdeep
      · refine ⟨enough, fun calls p hcalls hstands hi hd hdeepest => ?_⟩
        have hfollows := hx calls p hcalls hstands hi hd hdeepest
        generalize x calls p = run at hfollows
        cases hfollows with
        | ok hs hposition hdepth hdeep => exact absurd (hs.length_ahead ▸ hposition) hj

/-- The descent goes on where the reader has come to its end. -/
theorem Tracks.andThen {g : Nat → α → Descent α} (hx : Tracks tokens i d j e x r)
    (hf : ∀ a i', j ≤ i' → Tracks tokens i' e k f (fun calls => g calls a) (Pure.pure a)) :
    Tracks tokens i d k f (fun calls => x calls >>= g calls) r := by
  rw [← bind_pure r]
  exact hx.bind hf

/-- The descent goes one call deeper. -/
theorem Tracks.called {y : Nat → Descent α} (hxy : ∀ calls, x (calls + 1) = y calls)
    (hy : Tracks tokens i d j e y r) : Tracks tokens i d j e x r := by
  intro c
  obtain ⟨enough, hy⟩ := hy c
  refine ⟨enough + 1, fun calls p hcalls => ?_⟩
  obtain ⟨calls, rfl⟩ : ∃ n, calls = n + 1 := ⟨calls - 1, by omega⟩
  rw [hxy]
  exact hy calls p (by omega)

theorem Tracks.later (hx : Tracks tokens i d j e x r) :
    Tracks tokens i d j e (fun calls => x (calls + 1)) r := by
  intro c
  obtain ⟨enough, hx⟩ := hx c
  exact ⟨enough, fun calls p hcalls => hx (calls + 1) p (by omega)⟩

theorem tracks_failAt {s : Span} {cause : Cause} :
    Tracks tokens i d j e (fun _ => (failAt s cause : Descent α)) (Reader.failAt s cause) :=
  fun _ => ⟨0, fun _ _ _ _ _ _ hdeepest => .fault hdeepest⟩

theorem Tracks.outside (hi : tokens.length ≤ i) : Tracks tokens i d j e x r := by
  refine fun c => ⟨0, fun calls p _ hstands hp => absurd hstands.inside ?_⟩
  omega

/-- Both go on from where they are.  What they do next may depend on the cursor. -/
theorem Tracks.stay {y : Cursor → Nat → Descent α} {s : Cursor → Reader α}
    (hstay : ∀ p c, Stands tokens p c → p.position = i →
      (∀ calls, x calls p = y c calls p) ∧ r c = s c c)
    (hf : ∀ c, Tracks tokens i d j e (y c) (s c)) : Tracks tokens i d j e x r := by
  intro c
  obtain ⟨enough, hf⟩ := hf c c
  refine ⟨enough, fun calls p hcalls hstands hi hd hdeepest => ?_⟩
  obtain ⟨hx, hr⟩ := hstay p c hstands hi
  rw [hx, hr]
  exact hf calls p hcalls hstands hi hd hdeepest

/-- The descent finds something out. -/
theorem Tracks.found {γ : Type} {y : Descent γ} {b : γ} {g : Nat → γ → Descent β} {r : Reader β}
    (hy : ∀ p, p.position = i → y p = some (.ok b, p))
    (hf : Tracks tokens i d j e (fun calls => g calls b) r) :
    Tracks tokens i d j e (fun calls => y >>= g calls) r :=
  .stay (fun p _ _ hi => ⟨fun _ => bind_of_ok (hy p hi), rfl⟩) fun _ => hf

/-- There is a token ahead. -/
theorem Tracks.withToken (hx : ∀ t, tokens[i]? = some t → Tracks tokens i d j e x r) :
    Tracks tokens i d j e x r := by
  by_cases hi : i < tokens.length
  · exact hx tokens[i] (List.getElem?_eq_getElem hi)
  · exact .outside (by omega)

/-! ## The token ahead -/

section Ahead

variable (ht : tokens[i]? = some t)
include ht

theorem Stands.next {p : Place} {c : Cursor} (hstands : Stands tokens p c) (hi : p.position = i) :
    Reader.next c = .ok (t, c) := by
  obtain ⟨hinside, hget⟩ := List.getElem?_eq_some_iff.mp ht
  subst hi
  change Except.ok (c.ahead.headD ⟨.endOfSource, c.behind⟩, c) = _
  rw [hstands.ahead, List.drop_eq_getElem_cons hinside, List.headD_cons, hget]

/-- The descent looks where the token ahead stands. -/
theorem Tracks.here {g : Nat → Span → Descent β} {r : Reader β}
    (hf : Tracks tokens i d j e (fun calls => g calls t.span) r) :
    Tracks tokens i d j e (fun calls => here tokens >>= g calls) r :=
  .found (fun _ hi => here_eq ht hi) hf

/-- The descent looks at the token ahead. -/
theorem Tracks.peekLeft {g : Nat → TokenKind → Descent β} {r : Reader β}
    (hf : Tracks tokens i d j e (fun calls => g calls t.kind) r) :
    Tracks tokens i d j e (fun calls => peek tokens >>= g calls) r :=
  .found (fun _ hi => peek_eq ht hi) hf

/-- The reader looks at the token ahead. -/
theorem Tracks.nextRight {x : Nat → Descent β} {h : Token → Reader β}
    (hf : Tracks tokens i d j e x (h t)) :
    Tracks tokens i d j e x (Reader.next >>= h) :=
  .stay (fun _ _ hstands hi => ⟨fun _ => rfl, Reader.bind_of_ok (hstands.next ht hi)⟩) fun _ => hf

theorem Tracks.peekRight {x : Nat → Descent β} {h : TokenKind → Reader β}
    (hf : Tracks tokens i d j e x (h t.kind)) :
    Tracks tokens i d j e x (Reader.peek >>= h) := by
  rw [Reader.peek, bind_assoc]
  exact .nextRight ht hf

theorem Tracks.seesRight {op : Punct} {x : Nat → Descent β} {h : Bool → Reader β}
    (hf : Tracks tokens i d j e x (h (decide (t.kind = .punct op)))) :
    Tracks tokens i d j e x (Reader.sees op >>= h) := by
  rw [Reader.sees, bind_assoc]
  exact .peekRight ht hf

theorem Tracks.peek {g : Nat → TokenKind → Descent β} {h : TokenKind → Reader β}
    (hf : Tracks tokens i d j e (fun calls => g calls t.kind) (h t.kind)) :
    Tracks tokens i d j e (fun calls => peek tokens >>= g calls) (Reader.peek >>= h) :=
  .peekLeft ht (.peekRight ht hf)

/-- Both look for an operator. -/
theorem Tracks.sees {op : Punct} {g : Nat → Bool → Descent β} {h : Bool → Reader β}
    (hyes : t.kind = .punct op → Tracks tokens i d j e (fun calls => g calls true) (h true))
    (hno : t.kind ≠ .punct op → Tracks tokens i d j e (fun calls => g calls false) (h false)) :
    Tracks tokens i d j e (fun calls => sees tokens op >>= g calls) (Reader.sees op >>= h) := by
  refine .found (fun _ hi => sees_eq ht hi op) (.seesRight ht ?_)
  by_cases hop : t.kind = .punct op
  · rw [decide_eq_true hop]
    exact hyes hop
  · rw [decide_eq_false hop]
    exact hno hop

/-- The reader looks for an operator of a rank. -/
theorem Tracks.operatorRight {rank : Nat} {x : Nat → Descent β} {h : Option BinaryOp → Reader β}
    (hf : Tracks tokens i d j e x (h (operatorOf? rank t.kind))) :
    Tracks tokens i d j e x (Reader.operator? rank >>= h) := by
  rw [Reader.operator?, bind_assoc]
  refine .peekRight ht ?_
  rw [pure_bind]
  exact hf

/-- Both look for an operator of a rank. -/
theorem Tracks.operator {rank : Nat} {g : Nat → Option BinaryOp → Descent β}
    {h : Option BinaryOp → Reader β}
    (hf : Tracks tokens i d j e (fun calls => g calls (operatorOf? rank t.kind))
      (h (operatorOf? rank t.kind))) :
    Tracks tokens i d j e (fun calls => operator? tokens rank >>= g calls)
      (Reader.operator? rank >>= h) :=
  .found (fun _ hi => bind_of_ok (peek_eq ht hi)) (.operatorRight ht hf)

/-- The descent looks for a counting operator. -/
theorem Tracks.stepLeft {g : Nat → Option StepOp → Descent β} {r : Reader β}
    (hf : Tracks tokens i d j e (fun calls => g calls (stepOf? t.kind)) r) :
    Tracks tokens i d j e (fun calls => step? tokens >>= g calls) r :=
  .found (fun _ hi => bind_of_ok (peek_eq ht hi)) hf

theorem tracks_fail {cause : Cause} :
    Tracks tokens i d j e (fun _ => (fail tokens cause : Descent β)) (Reader.fail cause) :=
  .here ht (.nextRight ht tracks_failAt)

/-- The operator is not the token ahead, and the descent takes nothing. -/
theorem Tracks.eatNo {op : Punct} {g : Nat → Bool → Descent β} {r : Reader β}
    (hop : t.kind ≠ .punct op) (hf : Tracks tokens i d j e (fun calls => g calls false) r) :
    Tracks tokens i d j e (fun calls => eat tokens op >>= g calls) r :=
  .found (fun _ hi => eat_eq_false ht hi hop) hf

section Taking

variable (hends : EndsSource tokens)
include hends

/-- Behind a token that is not the end of the source there is another one. -/
theorem succ_lt_of_kind_ne (hkind : t.kind ≠ .endOfSource) : i + 1 < tokens.length := by
  obtain ⟨hinside, -⟩ := List.getElem?_eq_some_iff.mp ht
  by_contra hover
  have hi : tokens.length - 1 = i := by omega
  rw [EndsSource, List.getLast?_eq_getElem?, hi, ht, Option.map_some, Option.some_inj] at hends
  exact hkind hends

/-- The reader takes the token ahead, and the descent takes it in some way. -/
theorem Tracks.taken {γ : Type} {y : Descent γ} {b : γ} {g : Nat → γ → Descent β}
    {h : Token → Reader β} (hkind : t.kind ≠ .endOfSource)
    (hy : ∀ p, p.position = i → y p = some (.ok b, { p with position := p.position + 1 }))
    (hf : Tracks tokens (i + 1) d j e (fun calls => g calls b) (h t)) :
    Tracks tokens i d j e (fun calls => y >>= g calls) (Reader.advance >>= h) := by
  intro c
  obtain ⟨enough, hf⟩ := hf ⟨c.ahead.drop 1, t.span⟩
  refine ⟨enough, fun calls p hcalls hstands hi hd hdeepest => ?_⟩
  have hadvance : Reader.advance c = .ok (t, ⟨c.ahead.drop 1, t.span⟩) := by
    rw [Reader.advance, Reader.bind_of_ok (hstands.next ht hi)]
    rfl
  have hnext : Stands tokens { p with position := p.position + 1 } ⟨c.ahead.drop 1, t.span⟩ := by
    refine ⟨hi ▸ succ_lt_of_kind_ne ht hends hkind, ?_, fun {t'} h' _ => ?_⟩
    · rw [hstands.ahead, List.drop_drop]
    · rw [Nat.add_sub_cancel, hi, ht] at h'
      exact congrArg Token.span (Option.some.inj h')
  change Follows tokens j e ((y >>= g calls) p) _
  rw [bind_of_ok (hy p hi), Reader.bind_of_ok hadvance]
  exact hf calls _ hcalls hnext (congrArg (· + 1) hi) hd hdeepest

theorem Tracks.advance {g : Nat → Token → Descent β} {h : Token → Reader β}
    (hkind : t.kind ≠ .endOfSource)
    (hf : Tracks tokens (i + 1) d j e (fun calls => g calls t) (h t)) :
    Tracks tokens i d j e (fun calls => advance tokens >>= g calls) (Reader.advance >>= h) :=
  .taken ht hends hkind (fun _ hi => advance_eq ht hi) hf

/-- The descent takes the operator ahead, which the reader has seen. -/
theorem Tracks.eatAdvance {op : Punct} {g : Nat → Bool → Descent β} {h : Token → Reader β}
    (hop : t.kind = .punct op)
    (hf : Tracks tokens (i + 1) d j e (fun calls => g calls true) (h t)) :
    Tracks tokens i d j e (fun calls => eat tokens op >>= g calls) (Reader.advance >>= h) :=
  .taken ht hends (by simp [hop]) (fun _ hi => eat_eq_true ht hi hop) hf

/-- The descent checks the operator ahead, which the reader has seen. -/
theorem Tracks.expectAdvance {op : Punct} {g : Nat → Span → Descent β} {h : Token → Reader β}
    (hop : t.kind = .punct op)
    (hf : Tracks tokens (i + 1) d j e (fun calls => g calls t.span) (h t)) :
    Tracks tokens i d j e (fun calls => expect tokens op >>= g calls) (Reader.advance >>= h) :=
  .taken ht hends (by simp [hop]) (fun _ hi => expect_eq ht hi hop) hf

end Taking

end Ahead

/-! ## Tokens around and variables -/

/-- Both look whether a declaration is ahead. -/
theorem Tracks.declares {g : Nat → Bool → Descent β} {h : Cursor → Reader β}
    (hf : ∀ c, Tracks tokens i d j e (fun calls => g calls (Reader.declares c.ahead)) (h c)) :
    Tracks tokens i d j e (fun calls => declares tokens >>= g calls) (get >>= h) := by
  refine .stay (s := h) (fun p c hstands _ => ?_) hf
  refine ⟨fun calls => bind_of_ok ?_, rfl⟩
  rw [hstands.ahead]
  rfl

/-- Both look where the token behind stands. -/
theorem Tracks.behind {g : Nat → Span → Descent β} {h : Cursor → Reader β} (hpos : 0 < i)
    (hf : ∀ c, Tracks tokens i d j e (fun calls => g calls c.behind) (h c)) :
    Tracks tokens i d j e (fun calls => behind tokens >>= g calls) (get >>= h) := by
  refine .stay (s := h) (fun p c hstands hi => ?_) hf
  refine ⟨fun calls => bind_of_ok ?_, rfl⟩
  obtain ⟨position, hposition⟩ : ∃ k, p.position = k + 1 := ⟨i - 1, by omega⟩
  have hinside := hstands.inside
  have hlast : tokens[position]? = some tokens[position] := List.getElem?_eq_getElem _
  rw [hstands.behind (t := tokens[position]) (by rw [hposition]; exact hlast) (by omega)]
  unfold Descent.behind
  rw [bind_of_ok (get_eq p), hposition]
  simp only [hlast]
  rfl

/-- The reader counts the tokens ahead. -/
theorem Tracks.remaining {x : Nat → Descent β} {h : Nat → Reader β}
    (hf : ∀ n, tokens.length ≤ i + n → Tracks tokens i d j e x (h n)) :
    Tracks tokens i d j e x (Reader.remaining >>= h) := by
  intro c
  by_cases hlength : tokens.length ≤ i + c.ahead.length
  · obtain ⟨enough, hf⟩ := hf c.ahead.length hlength c
    refine ⟨enough, fun calls p hcalls hstands hi hd hdeepest => ?_⟩
    rw [Reader.bind_of_ok (rfl : Reader.remaining c = .ok (c.ahead.length, c))]
    exact hf calls p hcalls hstands hi hd hdeepest
  · refine ⟨0, fun calls p _ hstands hi => absurd hstands.length_ahead ?_⟩
    omega

theorem Tracks.assignable {v : Expr Span} {g : Nat → Ident Span → Descent β}
    {h : Ident Span → Reader β}
    (hf : ∀ a, Tracks tokens i d j e (fun calls => g calls a) (h a)) :
    Tracks tokens i d j e (fun calls => assignable v >>= g calls) (Reader.assignable v >>= h) := by
  have hfail (s : Span) (cause : Cause) : Tracks tokens i d j e
      (fun calls => failAt s cause >>= g calls) (Reader.failAt s cause >>= h) :=
    fun _ => ⟨0, fun _ _ _ _ _ _ hdeepest => .fault hdeepest⟩
  cases v with
  | name s path =>
      obtain ⟨first, rest⟩ := path
      cases rest with
      | nil => exact hf first
      | cons => exact hfail _ _
  | _ => exact hfail _ _

/-! ## Layers -/

theorem Tracks.enter {g : Nat → Unit → Descent β} {r : Reader β} (hroom : d < maxNesting)
    (hf : Tracks tokens i (d + 1) j e (fun calls => g calls ()) r) :
    Tracks tokens i d j e
      (fun calls => Descent.here tokens >>= fun s => Descent.enter s >>= g calls) r := by
  refine .withToken fun t ht => .here ht fun c => ?_
  obtain ⟨enough, hf⟩ := hf c
  refine ⟨enough, fun calls p hcalls hstands hi hd hdeepest => ?_⟩
  subst hd
  have henter := enter_eq t.span p
  rw [if_neg (by omega)] at henter
  change Follows tokens j e ((Descent.enter t.span >>= g calls) p) _
  rw [bind_of_ok henter]
  exact hf calls _ hcalls ⟨hstands.inside, hstands.ahead, hstands.behind⟩ hi rfl
    (max_le hdeepest (by omega))

/-- The descent tries to enter a layer too many, and the reader has none left. -/
theorem Tracks.tooDeep {g : Nat → Unit → Descent β} (hfull : d = maxNesting) :
    Tracks tokens i d j e
      (fun calls => Descent.here tokens >>= fun s => Descent.enter s >>= g calls)
      (Reader.fail .tooDeep) := by
  refine .withToken fun t ht => .here ht (.nextRight ht fun c => ?_)
  refine ⟨0, fun calls p _ hstands hi hd hdeepest => ?_⟩
  have henter := enter_eq t.span p
  rw [if_pos (by omega)] at henter
  change Follows tokens j e ((Descent.enter t.span >>= g calls) p) _
  rw [bind_of_error henter]
  exact .fault (max_le hdeepest (by rw [hd, hfull]))

theorem Tracks.leave {levels : Nat} {g : Nat → Unit → Descent β} {r : Reader β}
    (hlevels : levels ≤ d) (hf : Tracks tokens i (d - levels) j e (fun calls => g calls ()) r) :
    Tracks tokens i d j e (fun calls => leave levels >>= g calls) r := by
  intro c
  obtain ⟨enough, hf⟩ := hf c
  refine ⟨enough, fun calls p hcalls hstands hi hd hdeepest => ?_⟩
  change Follows tokens j e ((Descent.leave levels >>= g calls) p) _
  rw [bind_of_ok (leave_eq (hd ▸ hlevels))]
  exact hf calls _ hcalls ⟨hstands.inside, hstands.ahead, hstands.behind⟩ hi (hd ▸ rfl) hdeepest

/-- The descent does something in a layer of its own. -/
theorem Tracks.entered (hroom : d < maxNesting) (hx : Tracks tokens i (d + 1) j (d + 1) x r) :
    Tracks tokens i d j d
      (fun calls => Descent.here tokens >>= fun s => Descent.enter s >>= fun _ =>
        x calls >>= fun a => Descent.leave 1 >>= fun _ => Pure.pure a) r :=
  .enter hroom (hx.andThen fun _ _ hj => .leave (by omega) (.pure hj))

/-! ## Parts without layers -/

section Parts

variable (hends : EndsSource tokens)
include hends

theorem Tracks.eat {op : Punct} {g : Nat → Bool → Descent β} {h : Bool → Reader β}
    (hyes : Tracks tokens (i + 1) d j e (fun calls => g calls true) (h true))
    (hno : Tracks tokens i d j e (fun calls => g calls false) (h false)) :
    Tracks tokens i d j e (fun calls => eat tokens op >>= g calls) (Reader.eat op >>= h) := by
  refine .withToken fun t ht => ?_
  rw [Reader.eat, bind_assoc]
  refine .seesRight ht ?_
  by_cases hop : t.kind = .punct op
  · rw [decide_eq_true hop, if_pos rfl, bind_assoc]
    exact .eatAdvance ht hends hop hyes
  · rw [decide_eq_false hop, if_neg (by simp)]
    exact .eatNo ht hop hno

theorem tracks_expect {op : Punct} :
    Tracks tokens i d (i + 1) d (fun _ => expect tokens op) (Reader.expect op) := by
  refine .withToken fun t ht => .sees ht (fun hop => ?_) fun hop => tracks_fail ht
  exact .advance ht hends (by simp [hop]) (.pure le_rfl)

theorem tracks_ident :
    Tracks tokens i d (i + 1) d (fun _ => ident tokens) Reader.ident := by
  refine .withToken fun t ht => .peekLeft ht (.nextRight ht ?_)
  cases hkind : t.kind with
  | ident name => exact .advance ht hends (by simp [hkind]) (.pure le_rfl)
  | _ => exact tracks_fail ht

theorem tracks_path {n : Nat} (star : Bool) (done : List (Ident Span))
    (hn : tokens.length ≤ i + n) :
    Tracks tokens i d i d (path tokens star done) (Reader.dottedTail star n done) := by
  induction n generalizing i done with
  | zero => exact .outside hn
  | succ n ih =>
      rw [Reader.dottedTail]
      refine .called (fun _ => by rw [path]) (.eat hends ?_ (.pure le_rfl))
      have hmore : Tracks tokens (i + 1) d i d
          (fun calls => ident tokens >>= fun v => path tokens star (v :: done) calls)
          (Reader.ident >>= fun v => Reader.dottedTail star n (v :: done)) :=
        (tracks_ident hends).bind fun v i' hi' => (ih _ (by omega)).mono (by omega)
      refine .withToken fun t ht => .seesRight ht ?_
      cases star with
      | false => exact hmore
      | true =>
          by_cases hop : t.kind = .punct .times
          · rw [decide_eq_true hop]
            exact .eatAdvance ht hends hop (.pure (by omega))
          · rw [decide_eq_false hop]
            exact .eatNo ht hop hmore

theorem tracks_dotted : Tracks tokens i d (i + 1) d (dotted tokens) Reader.dotted := by
  unfold dotted Reader.dotted
  refine (tracks_ident hends).bind fun first i' hi' => .remaining fun n hn => ?_
  exact (tracks_path hends false [] hn).bind fun rest i'' hi'' => .pure (by omega)

end Parts

end Descent
end Syntax
end GuardedRepl
