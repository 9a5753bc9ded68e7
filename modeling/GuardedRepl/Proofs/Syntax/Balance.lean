import GuardedRepl.Proofs.Syntax.Following
import GuardedRepl.Proofs.Syntax.Inversion

/-!
# The descent is balanced

A descent in `d` layers does what the readers do in the layers that are left.  So its loops end, it
is in `d` layers again behind each part, and it never leaves a layer that it has not entered.  Only
a statement may take no token, and then it is empty.

**Results.**
* `Entries.outer`: the parts that enter a layer are right if those one layer further in are.
* `descent_balanced`: the descent ends, it ends as the readers do, and its layers are balanced.
* `snippet_parse`: over a whole source the descent does what the parser does.
-/

namespace GuardedRepl
namespace Syntax
namespace Descent

open Source
open Reader (Layer layer maxNesting)

variable {tokens : List Token} {n d i : Nat}

/-- The descent into a statement follows its reader, to a position further on if the statement is
not empty. -/
structure TracksStatement (tokens : List Token) (i d : Nat) (x : Nat → Descent (Stmt Span))
    (r : Reader (Stmt Span)) : Prop where
  goOn {β : Type} {g : Nat → Stmt Span → Descent β} {h : Stmt Span → Reader β} {k f : Nat}
    (hf : ∀ s i', i ≤ i' → (s ≠ .empty → i < i') →
      Tracks tokens i' d k f (fun calls => g calls s) (h s)) :
    Tracks tokens i d k f (fun calls => x calls >>= g calls) (r >>= h)

theorem Tracks.isStatement {x : Nat → Descent (Stmt Span)} {r : Reader (Stmt Span)}
    (hx : Tracks tokens i d (i + 1) d x r) : TracksStatement tokens i d x r where
  goOn hf := hx.bind fun s i' hi' => hf s i' (by omega) fun _ => hi'

theorem TracksStatement.called {x y : Nat → Descent (Stmt Span)} {r : Reader (Stmt Span)}
    (hxy : ∀ calls, x (calls + 1) = y calls) (hy : TracksStatement tokens i d y r) :
    TracksStatement tokens i d x r where
  goOn {β} g h k f hf := by
    have hcalled (calls : Nat) :
        x (calls + 1) >>= g (calls + 1) = y calls >>= g (calls + 1) := by
      rw [hxy]
    exact Tracks.called hcalled (hy.goOn fun s i' hi' hs => .later (hf s i' hi' hs))

/-- In `d` layers each part that enters a layer of its own follows the readers of a layer. -/
structure Entries (tokens : List Token) (inner : Layer) (d : Nat) : Prop where
  statement (i : Nat) : TracksStatement tokens i d (statement tokens) inner.statement
  expr (i : Nat) : Tracks tokens i d (i + 1) d (expr tokens) inner.expr
  branches (i : Nat) : Tracks tokens i d (i + 1) d (branches tokens) inner.branches
  operand (i : Nat) : Tracks tokens i d (i + 1) d (operand tokens) inner.operand
  link (i : Nat) {t : Token} {rank chained : Nat} {op : BinaryOp} (left : Expr Span)
    (ht : tokens[i]? = some t) (hop : operatorOf? rank t.kind = some op) (hchained : chained ≤ d) :
    Tracks tokens i d (i + 1) (d - chained) (link tokens rank chained op left)
      (inner.chain rank left)
  member (i : Nat) {chained : Nat} (target : Expr Span) (hchained : chained ≤ d) :
    Tracks tokens i d (i + 1) (d - chained) (member tokens chained target) (inner.member target)

/-- No layer is left. -/
theorem entries_closed : Entries tokens .closed maxNesting where
  statement i := by
    refine ⟨fun _ => ?_⟩
    -- what would go on is never reached, so it may as well begin behind the source
    refine Tracks.bind (j := tokens.length) (e := maxNesting) ?_ fun s i' hi' => .outside hi'
    exact .called (fun _ => by rw [statement]) (.tooDeep rfl)
  expr i := by
    exact .called (fun _ => by rw [expr]) (.tooDeep rfl)
  branches i := by
    exact .called (fun _ => by rw [branches]) (.tooDeep rfl)
  operand i := by
    exact .called (fun _ => by rw [operand]) (.tooDeep rfl)
  link i t rank chained op left ht hop hchained := by
    exact .called (fun _ => by rw [link]) (.tooDeep rfl)
  member i chained target hchained := by
    exact .called (fun _ => by rw [member]) (.tooDeep rfl)

section Options

variable {inner : Layer} (h : Entries tokens inner d)
include h

theorem Entries.optional (stop : Punct) :
    Tracks tokens i d i d (optional tokens stop) (Reader.optional inner stop) := by
  unfold Descent.optional Reader.optional
  refine .withToken fun t ht => .sees ht (fun hop => .pure le_rfl) fun hop => ?_
  exact (h.expr _).bind fun e i' hi' => .pure (by omega)

theorem Entries.chain {rank chained : Nat} (left : Expr Span) (hchained : chained ≤ d) :
    Tracks tokens i d i (d - chained) (chain tokens rank chained left)
      (inner.chainOf rank left) := by
  refine .called (fun _ => by rw [Descent.chain]) ?_
  unfold Layer.chainOf
  refine .withToken fun t ht => .operator ht ?_
  cases hop : operatorOf? rank t.kind with
  | some op => exact (h.link i left ht hop hchained).mono (by omega)
  | none => exact .leave hchained (.pure le_rfl)

end Options

/-! ## Counting operators -/

/-- Reads a counting operator that was seen ahead. -/
def counting (e : Expr Span) : Option StepOp → Reader (Expr Span)
  | none => return e
  | some op => do
    let v ← Reader.assignable e
    let t ← Reader.advance
    return .step (e.tag.through t.span) v op

theorem counted_eq (e : Expr Span) :
    Reader.counted e = Reader.peek >>= fun k => counting e (stepOf? k) :=
  rfl

theorem ne_of_stepOf?_eq_some {k : TokenKind} {op : StepOp} (h : stepOf? k = some op) :
    k ≠ .punct .dot ∧ k ≠ .endOfSource := by
  constructor
  · rintro rfl
    cases h
  · rintro rfl
    cases h

section Counting

variable {t : Token} {chained : Nat} {e : Expr Span} (ht : tokens[i]? = some t)
include ht

theorem tracks_counted_of_none {x : Nat → Descent (Expr Span)}
    {r : Expr Span → Reader (Expr Span)} {j k : Nat} (hstep : stepOf? t.kind = none)
    (hx : Tracks tokens i d j k x (r e)) :
    Tracks tokens i d j k x (Reader.counted e >>= r) := by
  rw [counted_eq, bind_assoc]
  refine .peekRight ht ?_
  rw [hstep]
  exact hx

/-- The token ahead counts. -/
theorem tracks_counted_of_some {r : Expr Span → Reader (Expr Span)} {j k : Nat} {op : StepOp}
    (hstep : stepOf? t.kind = some op)
    (hx : Tracks tokens i d j k
      (fun calls => assignable e >>= fun v => advance tokens >>= fun t =>
        suffixes tokens chained (.step (e.tag.through t.span) v op) calls)
      (Reader.assignable e >>= fun v => Reader.advance >>= fun t =>
        r (.step (e.tag.through t.span) v op))) :
    Tracks tokens i d j k (suffixes tokens chained e) (Reader.counted e >>= r) := by
  rw [counted_eq, bind_assoc]
  refine .called (fun _ => by rw [suffixes]) ?_
  refine .eatNo ht (ne_of_stepOf?_eq_some hstep).1 (.stepLeft ht (.peekRight ht ?_))
  rw [hstep]
  simp only [counting, bind_assoc, pure_bind]
  exact hx

end Counting

section Inner

variable {inner : Layer} (hends : EndsSource tokens) (h : Entries tokens inner d)
include hends h

/-! ## Expressions -/

theorem Entries.argumentTail {m : Nat} (done : List (Expr Span)) (hm : tokens.length ≤ i + m) :
    Tracks tokens i d (i + 1) d (argumentTail tokens done) (Reader.argumentTail inner m done) := by
  induction m generalizing i done with
  | zero => exact .outside hm
  | succ m ih =>
      rw [Reader.argumentTail]
      refine .called (fun _ => by rw [Descent.argumentTail]) ?_
      refine (h.expr i).bind fun e i' hi' => .eat hends (.pure (by omega)) ?_
      refine (tracks_expect hends).bind fun s i'' hi'' => ?_
      exact (ih (e :: done) (by omega)).mono (by omega)

theorem Entries.arguments :
    Tracks tokens i d (i + 1) d (arguments tokens) (Reader.arguments inner) := by
  rw [Reader.arguments]
  refine .called (fun _ => by rw [Descent.arguments]) ?_
  refine (tracks_expect hends).bind fun s i' hi' => .eat hends (.pure (by omega)) ?_
  exact .remaining fun m hm => (h.argumentTail hends [] hm).mono (by omega)

theorem Entries.construction {t : Token} (ht : tokens[i]? = some t) (hkind : t.kind ≠ .endOfSource)
    (start : Span) :
    Tracks tokens i d (i + 1) d (construction tokens start) (Reader.construction inner start) := by
  rw [Reader.construction]
  refine .called (fun _ => by rw [Descent.construction]) ?_
  refine .advance ht hends hkind ((tracks_dotted hends).bind fun cls i' hi' => ?_)
  refine (h.arguments hends).bind fun args i'' hi'' => .behind (by omega) fun c => ?_
  exact .pure (by omega)

theorem Entries.bracketed {t : Token} (ht : tokens[i]? = some t) (hkind : t.kind ≠ .endOfSource)
    (start : Span) :
    Tracks tokens i d (i + 1) d (bracketed tokens start) (Reader.bracketed inner start) := by
  rw [Reader.bracketed]
  refine .called (fun _ => by rw [Descent.bracketed]) ?_
  refine .advance ht hends hkind ((h.expr _).bind fun e i' hi' => ?_)
  exact (tracks_expect hends).bind fun stop i'' hi'' => .pure (by omega)

theorem Entries.named : Tracks tokens i d (i + 1) d (named tokens) (Reader.named inner) := by
  rw [Reader.named]
  refine .called (fun _ => by rw [Descent.named]) ?_
  refine (tracks_ident hends).bind fun v i' hi' => .withToken fun t ht => ?_
  refine .sees ht (fun hop => ?_) fun hop => .pure (by omega)
  exact (h.arguments hends).bind fun args i'' hi'' => .behind (by omega) fun c => .pure (by omega)

theorem Entries.primary : Tracks tokens i d (i + 1) d (primary tokens) (Reader.primary inner) := by
  rw [Reader.primary]
  refine .called (fun _ => by rw [Descent.primary]) ?_
  refine .withToken fun t ht => .here ht (.peekLeft ht (.nextRight ht ?_))
  cases hkind : t.kind with
  | int v => exact .advance ht hends (by simp [hkind]) (.pure le_rfl)
  | str v => exact .advance ht hends (by simp [hkind]) (.pure le_rfl)
  | ident name => exact h.named hends
  | keyword word =>
      cases word
      case trueWord | falseWord | nullWord =>
        exact .advance ht hends (by simp [hkind]) (.pure le_rfl)
      case newWord => exact h.construction hends ht (by simp [hkind]) t.span
      all_goals exact tracks_fail ht
  | punct p =>
      cases p
      case openParen => exact h.bracketed hends ht (by simp [hkind]) t.span
      all_goals exact tracks_fail ht
  | endOfSource => exact tracks_fail ht

/-- The token ahead does not count. -/
theorem Entries.suffixes_of_none {t : Token} {chained : Nat} {e : Expr Span}
    (ht : tokens[i]? = some t) (hstep : stepOf? t.kind = none) (hchained : chained ≤ d) :
    Tracks tokens i d i (d - chained) (suffixes tokens chained e) (inner.memberOf e) := by
  refine .called (fun _ => by rw [Descent.suffixes]) ?_
  unfold Layer.memberOf
  refine .eat hends ((h.member _ e hchained).mono (by omega)) (.stepLeft ht ?_)
  rw [hstep]
  exact .leave hchained (.pure le_rfl)

/-- A second counting operator finds no variable. -/
theorem Entries.suffixes {chained : Nat} (e : Expr Span) (hchained : chained ≤ d) :
    Tracks tokens i d i (d - chained) (suffixes tokens chained e) (Reader.suffixes inner e) := by
  change Tracks tokens i d i (d - chained) _
    (Reader.counted e >>= fun e => Reader.counted e >>= inner.memberOf)
  refine .withToken fun t ht => ?_
  cases hstep : stepOf? t.kind with
  | none =>
      refine tracks_counted_of_none ht hstep (tracks_counted_of_none ht hstep ?_)
      exact h.suffixes_of_none hends ht hstep hchained
  | some op =>
      have hkind := (ne_of_stepOf?_eq_some hstep).2
      refine tracks_counted_of_some ht hstep (.assignable fun v => .advance ht hends hkind ?_)
      refine .withToken fun t' ht' => ?_
      cases hagain : stepOf? t'.kind with
      | none =>
          refine tracks_counted_of_none ht' hagain ?_
          exact (h.suffixes_of_none hends ht' hagain hchained).mono (by omega)
      | some op' =>
          -- what has been counted is no variable any more, and both refuse it
          refine tracks_counted_of_some ht' hagain fun _ => ?_
          exact ⟨0, fun _ _ _ _ _ _ hdeepest => .fault hdeepest⟩

theorem Entries.operation : Tracks tokens i d (i + 1) d (operation tokens)
    (Reader.primary inner >>= Reader.suffixes inner) := by
  refine .called (fun _ => by rw [Descent.operation]) ?_
  refine (h.primary hends).bind fun e i' hi' => ?_
  exact (h.suffixes hends e (Nat.zero_le d)).mono hi'

theorem Entries.unary : Tracks tokens i d (i + 1) d (unary tokens) (Reader.unary inner) := by
  have hoperand (w : Expr Span → Expr Span) : Tracks tokens (i + 1) d (i + 1) d
      (fun calls => Descent.operand tokens calls >>= fun e => pure (w e))
      (inner.operand >>= fun e => pure (w e)) :=
    (h.operand _).bind fun e i' hi' => .pure (by omega)
  rw [Reader.unary]
  refine .called (fun _ => by rw [Descent.unary]) ?_
  refine .withToken fun t ht => .here ht (.nextRight ht ?_)
  have hother (hminus : t.kind ≠ .punct .minus) (hbang : t.kind ≠ .punct .bang)
      (hplus : t.kind ≠ .punct .plus) {a b c : Nat → Descent (Expr Span)} :
      Tracks tokens i d (i + 1) d
        (fun calls => eat tokens .minus >>= fun y => if y then a calls else
          eat tokens .bang >>= fun y => if y then b calls else
          eat tokens .plus >>= fun y => if y then c calls else Descent.operation tokens calls)
        (Reader.primary inner >>= Reader.suffixes inner) :=
    .eatNo ht hminus (.eatNo ht hbang (.eatNo ht hplus (h.operation hends)))
  cases hkind : t.kind with
  | punct p =>
      cases p
      case minus => exact .eatAdvance ht hends hkind (hoperand _)
      case bang => exact .eatNo ht (by simp [hkind]) (.eatAdvance ht hends hkind (hoperand _))
      case plus =>
        refine .eatNo ht (by simp [hkind]) (.eatNo ht (by simp [hkind]) ?_)
        exact .eatAdvance ht hends hkind ((h.operand _).mono (by omega))
      all_goals exact hother (by simp [hkind]) (by simp [hkind]) (by simp [hkind])
  | _ => exact hother (by simp [hkind]) (by simp [hkind]) (by simp [hkind])

theorem Entries.binary (ranks : Nat) :
    Tracks tokens i d (i + 1) d (binary tokens ranks) (Reader.binary inner ranks) := by
  induction ranks generalizing i with
  | zero =>
      refine .called (fun _ => by rw [Descent.binary]) ?_
      exact h.unary hends
  | succ rank ih =>
      refine .called (fun _ => by rw [Descent.binary]) ?_
      refine Tracks.bind ih fun left i' hi' => ?_
      exact (h.chain left (Nat.zero_le d)).mono hi'

theorem Entries.ternary : Tracks tokens i d (i + 1) d (ternary tokens) (Reader.ternary inner) := by
  rw [Reader.ternary]
  refine .called (fun _ => by rw [Descent.ternary]) ?_
  refine (h.binary hends _).bind fun cond i' hi' => .eat hends ?_ (.pure (by omega))
  exact (h.branches _).bind fun r i'' hi'' => .pure (by omega)

theorem Entries.assignment :
    Tracks tokens i d (i + 1) d (assignment tokens) (Reader.expr inner) := by
  rw [Reader.expr]
  refine .called (fun _ => by rw [Descent.assignment]) ?_
  refine (h.ternary hends).bind fun left i' hi' => .withToken fun t ht => .peek ht ?_
  cases hop : Reader.assignment? t.kind with
  | none => exact .pure (by omega)
  | some op =>
      refine .assignable fun v => .advance ht hends (Reader.assignment?_eq_some hop).2 ?_
      exact (h.expr _).bind fun value i'' hi'' => .pure (by omega)

/-! ## Statements -/

theorem Entries.condition :
    Tracks tokens i d (i + 1) d (condition tokens) (Reader.condition inner) := by
  unfold Descent.condition Reader.condition
  refine (tracks_expect hends).bind fun s i' hi' => (h.expr _).bind fun cond i'' hi'' => ?_
  exact (tracks_expect hends).bind fun s' j hj => .pure (by omega)

theorem Entries.declaration :
    Tracks tokens i d (i + 1) d (declaration tokens) (Reader.declaration inner) := by
  unfold Descent.declaration Reader.declaration
  refine (tracks_dotted hends).bind fun cls i' hi' => ?_
  refine (tracks_ident hends).bind fun name i'' hi'' => .eat hends ?_ ?_
  · exact (h.expr _).bind fun e j hj => .pure (by omega)
  · cases Reader.typeName cls with
    | inferred => exact tracks_failAt
    | primitive p => exact .pure (by omega)
    | cls path => exact .pure (by omega)

theorem Entries.simple : Tracks tokens i d (i + 1) d (simple tokens) (Reader.simple inner) := by
  unfold Descent.simple Reader.simple
  refine .declares fun c => ?_
  cases Reader.declares c.ahead with
  | true => exact (h.declaration hends).bind fun v i' hi' => .pure hi'
  | false => exact (h.expr _).bind fun e i' hi' => .pure hi'

theorem Entries.beginning {β : Type} {g : Nat → Option (Simple Span) → Descent β}
    {h' : Option (Simple Span) → Reader β} {k f : Nat}
    (hf : ∀ s i', i ≤ i' → Tracks tokens i' d k f (fun calls => g calls s) (h' s)) :
    Tracks tokens i d k f (fun calls => beginning tokens calls >>= g calls)
      (Reader.sees .semicolon >>= fun b =>
        if b then pure none >>= h' else some <$> Reader.simple inner >>= h') := by
  simp only [Descent.beginning, bind_assoc]
  refine .withToken fun t ht => .sees ht (fun hop => ?_) fun hop => ?_
  · exact hf none i le_rfl
  · simp only [Bool.false_eq_true, if_false, map_eq_pure_bind, bind_assoc, pure_bind]
    exact (h.simple hends).bind fun s i' hi' => hf (some s) i' (by omega)

theorem Entries.nested : Tracks tokens i d (i + 1) d (nested tokens) (Reader.nested inner) := by
  rw [Reader.nested]
  refine .called (fun _ => by rw [Descent.nested]) ?_
  refine (h.statement i).goOn fun s i' hi' hs => ?_
  cases s
  case empty => exact (tracks_expect hends).bind fun _ j hj => .pure (by omega)
  case simple | «break» | «continue» =>
    have hpast := hs (by simp)
    refine .eat hends (.pure (by omega)) (.withToken fun t ht => .peek ht ?_)
    cases t.kind with
    | endOfSource => exact .pure hpast
    | punct p =>
        cases p
        case closeBrace => exact .pure hpast
        all_goals exact tracks_fail ht
    | keyword word =>
        cases word
        case elseWord => exact .pure hpast
        all_goals exact tracks_fail ht
    | _ => exact tracks_fail ht
  all_goals exact .pure (hs (by simp))

theorem Entries.blockTail {m : Nat} (done : List (Stmt Span)) (hm : tokens.length ≤ i + m) :
    Tracks tokens i d (i + 1) d (blockTail tokens done) (Reader.blockTail inner m done) := by
  induction m generalizing i done with
  | zero => exact .outside hm
  | succ m ih =>
      rw [Reader.blockTail]
      refine .called (fun _ => by rw [Descent.blockTail]) ?_
      refine .withToken fun t ht => .peek ht ?_
      have hmore : Tracks tokens i d (i + 1) d
          (fun calls => Descent.nested tokens calls >>= fun s =>
            Descent.blockTail tokens (s :: done) calls)
          (Reader.nested inner >>= fun s => Reader.blockTail inner m (s :: done)) :=
        (h.nested hends).bind fun s i' hi' => (ih _ (by omega)).mono (by omega)
      cases hkind : t.kind with
      | endOfSource => exact tracks_fail ht
      | punct p =>
          cases p
          case closeBrace => exact .advance ht hends (by simp [hkind]) (.pure le_rfl)
          all_goals exact hmore
      | _ => exact hmore

theorem Entries.block {t : Token} (ht : tokens[i]? = some t) (hkind : t.kind = .punct .openBrace) :
    Tracks tokens i d (i + 1) d (block tokens) (Reader.block inner) := by
  rw [Reader.block]
  refine .called (fun _ => by rw [Descent.block]) ?_
  refine .expectAdvance ht hends hkind (.remaining fun m hm => ?_)
  exact (h.blockTail hends [] hm).bind fun body i' hi' => .pure (by omega)

theorem Entries.choice {t : Token} (ht : tokens[i]? = some t) (hkind : t.kind ≠ .endOfSource) :
    Tracks tokens i d (i + 1) d (choice tokens) (Reader.choice inner) := by
  rw [Reader.choice]
  refine .called (fun _ => by rw [Descent.choice]) ?_
  refine .advance ht hends hkind ((h.condition hends).bind fun cond i' hi' => ?_)
  refine (h.nested hends).bind fun yes i'' hi'' => .withToken fun t' ht' => .peek ht' ?_
  by_cases helse : t'.kind = .keyword .elseWord
  · simp only [if_pos helse]
    refine .advance ht' hends (by simp [helse]) ((h.nested hends).bind fun no j hj => ?_)
    exact .pure (by omega)
  · simp only [if_neg helse]
    exact .pure (by omega)

theorem Entries.whileLoop {t : Token} (ht : tokens[i]? = some t) (hkind : t.kind ≠ .endOfSource) :
    Tracks tokens i d (i + 1) d (whileLoop tokens) (Reader.whileLoop inner) := by
  rw [Reader.whileLoop]
  refine .called (fun _ => by rw [Descent.whileLoop]) ?_
  refine .advance ht hends hkind ((h.condition hends).bind fun cond i' hi' => ?_)
  exact (h.nested hends).bind fun body i'' hi'' => .pure (by omega)

theorem Entries.forLoop {t : Token} (ht : tokens[i]? = some t) (hkind : t.kind ≠ .endOfSource) :
    Tracks tokens i d (i + 1) d (forLoop tokens) (Reader.forLoop inner) := by
  rw [Reader.forLoop]
  refine .called (fun _ => by rw [Descent.forLoop]) ?_
  refine .advance ht hends hkind ((tracks_expect hends).bind fun _ i₁ h₁ => ?_)
  refine h.beginning hends fun init i₂ h₂ => (tracks_expect hends).bind fun _ i₃ h₃ => ?_
  refine (h.optional _).bind fun cond i₄ h₄ => (tracks_expect hends).bind fun _ i₅ h₅ => ?_
  refine (h.optional _).bind fun update i₆ h₆ => (tracks_expect hends).bind fun _ i₇ h₇ => ?_
  exact (h.nested hends).bind fun body i₈ h₈ => .pure (by omega)

theorem Entries.plainStatement :
    TracksStatement tokens i d (plainStatement tokens) (Reader.statement inner) := by
  rw [Reader.statement]
  refine .called (fun _ => by rw [Descent.plainStatement]) ⟨fun {β g h' k f} hf => ?_⟩
  simp only [bind_assoc]
  refine .withToken fun t ht => .peekLeft ht (.nextRight ht ?_)
  have hsome {x : Nat → Descent (Stmt Span)} {r : Reader (Stmt Span)}
      (hx : Tracks tokens i d (i + 1) d x r) :
      Tracks tokens i d k f (fun calls => x calls >>= g calls) (r >>= h') :=
    hx.isStatement.goOn hf
  have hsimple : Tracks tokens i d (i + 1) d
      (fun calls => Descent.simple tokens calls >>= fun s => pure (Stmt.simple s))
      (Reader.simple inner >>= fun s => pure (Stmt.simple s)) :=
    (h.simple hends).bind fun s i' hi' => .pure hi'
  cases hkind : t.kind with
  | punct p =>
      cases p
      case openBrace => exact hsome (h.block hends ht hkind)
      case semicolon => exact hf .empty i le_rfl (absurd rfl)
      all_goals exact hsome hsimple
  | keyword word =>
      cases word
      case ifWord => exact hsome (h.choice hends ht (by simp [hkind]))
      case whileWord => exact hsome (h.whileLoop hends ht (by simp [hkind]))
      case forWord => exact hsome (h.forLoop hends ht (by simp [hkind]))
      case breakWord | continueWord =>
        exact hsome (.advance ht hends (by simp [hkind]) (.pure le_rfl))
      case elseWord => exact hsome (tracks_fail ht)
      all_goals exact hsome hsimple
  | _ => exact hsome hsimple

end Inner

/-! ## Layers -/

/-- The parts that enter a layer follow the readers of a layer if those one layer further in do. -/
theorem Entries.outer {inner : Layer} (hends : EndsSource tokens) (hroom : d < maxNesting)
    (h : Entries tokens inner (d + 1)) : Entries tokens inner.around d where
  statement i := by
    refine .called (fun _ => by rw [Descent.statement]) ⟨fun hf => ?_⟩
    simp only [bind_assoc, pure_bind]
    refine .enter hroom ((h.plainStatement hends).goOn fun s i' hi' hs => ?_)
    exact .leave (by omega) (hf s i' hi' hs)
  expr i := by
    refine .called (fun _ => by rw [Descent.expr]) ?_
    exact .entered hroom (h.assignment hends)
  branches i := by
    refine .called (fun _ => by rw [Descent.branches]) ?_
    refine .enter hroom ((h.ternary hends).bind fun yes i' hi' => ?_)
    refine (tracks_expect hends).bind fun _ i'' hi'' => (h.ternary hends).bind fun no j hj => ?_
    exact .leave (by omega) (.pure (by omega))
  operand i := by
    refine .called (fun _ => by rw [Descent.operand]) ?_
    exact .entered hroom (h.unary hends)
  link i t rank chained op left ht hop hchained := by
    have hkind : t.kind ≠ .endOfSource := by
      intro hkind
      rw [hkind] at hop
      cases hop
    change Tracks tokens i d (i + 1) (d - chained) _ (Reader.chain inner rank left)
    rw [Reader.chain]
    refine .called (fun _ => by rw [Descent.link]) ?_
    refine .enter hroom (.operatorRight ht ?_)
    rw [hop]
    refine .advance ht hends hkind ((h.binary hends rank).bind fun right i' hi' => ?_)
    have hchain (e : Expr Span) : Tracks tokens i' (d + 1) i' (d - chained)
        (Descent.chain tokens rank (chained + 1) e) (inner.chainOf rank e) := by
      rw [← Nat.add_sub_add_right d 1 chained]
      exact h.chain e (Nat.succ_le_succ hchained)
    exact (hchain _).mono (by omega)
  member i chained target hchained := by
    have hsuffixes {i' : Nat} (hi' : i < i') (e : Expr Span) :
        Tracks tokens i' (d + 1) (i + 1) (d - chained) (Descent.suffixes tokens (chained + 1) e)
          (Reader.suffixes inner e) := by
      rw [← Nat.add_sub_add_right d 1 chained]
      exact (h.suffixes hends e (Nat.succ_le_succ hchained)).mono hi'
    change Tracks tokens i d (i + 1) (d - chained) _ (Reader.member inner target)
    rw [Reader.member]
    refine .called (fun _ => by rw [Descent.member]) ?_
    refine .enter hroom ((tracks_ident hends).bind fun m i' hi' => .withToken fun t ht => ?_)
    refine .sees ht (fun hop => ?_) fun hop => hsuffixes hi' _
    refine (h.arguments hends).bind fun args i'' hi'' => .behind (by omega) fun c => ?_
    exact hsuffixes (by omega) _

/-- The layers that a descent is in and those that are left make up all layers. -/
theorem entries_layer (hends : EndsSource tokens) (hlayers : d + n = maxNesting) :
    Entries tokens (layer n) d := by
  -- one layer less is left for each one that is entered, so the depth grows where `n` shrinks
  induction n generalizing d with
  | zero =>
      obtain rfl : d = maxNesting := hlayers
      exact entries_closed
  | succ n ih =>
      exact .outer hends (by omega) (ih (by omega))

/-! ## Balance -/

/-- From a place a descent does what the readers of a layer do from a cursor.  Each part takes at
least one token, and a loop may have come to its end already. -/
structure Balanced (tokens : List Token) (inner : Layer) (p : Place) (c : Cursor) : Prop where
  nested : Ends tokens (p.position + 1) p.depth (nested tokens) p (Reader.nested inner c)
  expr : Ends tokens (p.position + 1) p.depth (expr tokens) p (inner.expr c)
  binary (ranks : Nat) :
    Ends tokens (p.position + 1) p.depth (binary tokens ranks) p (Reader.binary inner ranks c)
  operation : Ends tokens (p.position + 1) p.depth (operation tokens) p
    ((Reader.primary inner >>= Reader.suffixes inner) c)
  /-- The loop of a block, whatever statements it has taken already. -/
  blockTail (done : List (Stmt Span)) :
    Ends tokens (p.position + 1) p.depth (blockTail tokens done) p
      (Reader.blockTail inner tokens.length done c)
  /-- The loop of arguments, whatever arguments it has taken already. -/
  argumentTail (done : List (Expr Span)) :
    Ends tokens (p.position + 1) p.depth (argumentTail tokens done) p
      (Reader.argumentTail inner tokens.length done c)
  /-- The loop of operators of a rank, which leaves the layers of the ones that it has taken. -/
  chain (rank : Nat) {chained : Nat} (left : Expr Span) (hchained : chained ≤ p.depth) :
    Ends tokens p.position (p.depth - chained) (chain tokens rank chained left) p
      (inner.chainOf rank left c)
  /-- The loop of members, which leaves the layers of the ones that it has taken. -/
  suffixes {chained : Nat} (e : Expr Span) (hchained : chained ≤ p.depth) :
    Ends tokens p.position (p.depth - chained) (suffixes tokens chained e) p
      (Reader.suffixes inner e c)
  /-- The loop of an import, or without `star` that of a type. -/
  path (star : Bool) (done : List (Ident Span)) :
    Ends tokens p.position p.depth (path tokens star done) p
      (Reader.dottedTail star tokens.length done c)

/-- In front of each token of a source there is a cursor. -/
theorem exists_stands {p : Place} (hinside : p.position < tokens.length) :
    ∃ c, Stands tokens p c := by
  refine ⟨⟨tokens.drop p.position, (tokens[p.position - 1]?.map Token.span).getD ⟨0, 0⟩⟩,
    hinside, rfl, fun h _ => ?_⟩
  rw [h]
  rfl

/-- From each place in a source, every part of a snippet and every loop in it comes to an end, as
the readers do there.  A part that is taken leaves the descent in as many layers as before, further
on but not past the end of the source. -/
theorem descent_balanced {p : Place} (hends : EndsSource tokens)
    (hinside : p.position < tokens.length) (hdepth : p.depth ≤ maxNesting)
    (hdeepest : p.deepest ≤ maxNesting + 1) :
    (∃ c, Stands tokens p c) ∧
      ∀ c, Stands tokens p c → Balanced tokens (layer (maxNesting - p.depth)) p c := by
  refine ⟨exists_stands hinside, fun c hstands => ?_⟩
  have h : Entries tokens (layer (maxNesting - p.depth)) p.depth :=
    entries_layer hends (by omega)
  have hlength : tokens.length ≤ p.position + tokens.length := Nat.le_add_left _ _
  exact {
    nested := (h.nested hends).ends hstands hdeepest
    expr := (h.expr p.position).ends hstands hdeepest
    binary := fun ranks => (h.binary hends ranks).ends hstands hdeepest
    operation := (h.operation hends).ends hstands hdeepest
    blockTail := fun done => (h.blockTail hends done hlength).ends hstands hdeepest
    argumentTail := fun done => (h.argumentTail hends done hlength).ends hstands hdeepest
    chain := fun rank _ left hchained => (h.chain left hchained).ends hstands hdeepest
    suffixes := fun e hchained => (h.suffixes hends e hchained).ends hstands hdeepest
    path := fun star done => (tracks_path hends star done hlength).ends hstands hdeepest }

/-- Inside the braces of `\x7b a.b; \x7d` the statement is taken, in the layer of the block. -/
theorem descent_balanced_block :
    let tokens : List Token :=
      [⟨.punct .openBrace, ⟨0, 1⟩⟩, ⟨.ident "a", ⟨2, 3⟩⟩, ⟨.punct .dot, ⟨3, 4⟩⟩,
        ⟨.ident "b", ⟨4, 5⟩⟩, ⟨.punct .semicolon, ⟨5, 6⟩⟩, ⟨.punct .closeBrace, ⟨7, 8⟩⟩,
        ⟨.endOfSource, ⟨8, 8⟩⟩]
    let p : Place := ⟨1, 1, 1⟩
    (EndsSource tokens ∧ p.position < tokens.length ∧ p.depth ≤ maxNesting ∧
      p.deepest ≤ maxNesting + 1) ∧
    ∃ calls s q, nested tokens calls p = some (.ok s, q) ∧ q.depth = 1 ∧ 1 < q.position ∧
      q.position < tokens.length := by
  intro tokens p
  refine ⟨⟨rfl, by decide, by decide, by decide⟩, ?_⟩
  obtain ⟨-, hbalanced⟩ :=
    @descent_balanced tokens p rfl (by decide) (by decide) (by decide)
  have hstands : Stands tokens p ⟨tokens.drop 1, ⟨0, 1⟩⟩ := by
    refine ⟨by decide, rfl, fun {t} h _ => ?_⟩
    obtain rfl := Option.some.inj h
    rfl
  obtain ⟨enough, hends⟩ := (hbalanced _ hstands).nested
  have hfollows := hends enough le_rfl
  refine ⟨enough, ?_⟩
  generalize nested tokens enough p = run at hfollows ⊢
  generalize hreading : Reader.nested _ _ = reading at hfollows
  cases hfollows with
  | ok hs hposition hdepth _ => exact ⟨_, _, rfl, hdepth, hposition, hs.inside⟩
  | fault _ => cases hreading

/-! ## Snippets -/

theorem tracks_importing {t : Token} (hends : EndsSource tokens) (ht : tokens[i]? = some t)
    (hkind : t.kind ≠ .endOfSource) :
    Tracks tokens i d i d (importing tokens) Reader.importing := by
  unfold importing Reader.importing
  refine .advance ht hends hkind ((tracks_ident hends).bind fun first i' hi' => ?_)
  refine .remaining fun m hm => (tracks_path hends true [] hm).bind fun r i'' hi'' => ?_
  exact .pure (by omega)

theorem tracks_ending {s : TopLevel Span} {r : TokenKind → Reader (TopLevel Span)}
    (hends : EndsSource tokens) (hend : r .endOfSource = pure s)
    (hmore : ∀ k, k ≠ .endOfSource → r k = Reader.fail (.expected .semicolon)) :
    Tracks tokens i d i d (fun _ => ending tokens s)
      (Reader.eat .semicolon >>= fun _ => Reader.peek >>= r) := by
  have hpeek {i' : Nat} (hi' : i ≤ i') : Tracks tokens i' d i d
      (fun _ => peek tokens >>= fun k => if k = .endOfSource then pure s
        else fail tokens (.expected .semicolon)) (Reader.peek >>= r) := by
    refine .withToken fun t ht => .peek ht ?_
    by_cases hkind : t.kind = .endOfSource
    · simp only [if_pos hkind]
      rw [hkind, hend]
      exact .pure hi'
    · simp only [if_neg hkind]
      rw [hmore _ hkind]
      exact tracks_fail ht
  exact .eat hends (hpeek (Nat.le_succ i)) (hpeek le_rfl)

theorem tracks_snippet (hends : EndsSource tokens) :
    Tracks tokens i 0 i 0 (snippet tokens) Reader.snippet := by
  have h : Entries tokens (layer maxNesting) 0 := entries_layer hends (Nat.zero_add _)
  unfold snippet Reader.snippet
  refine .withToken fun t ht => .peek ht ?_
  by_cases himport : t.kind = .keyword .importWord
  · simp only [if_pos himport]
    rw [himport]
    refine (tracks_importing hends ht (by simp [himport])).bind fun s i' hi' => ?_
    refine (tracks_ending hends rfl fun k hk => ?_).mono hi'
    cases k <;> first | rfl | exact absurd rfl hk
  · simp only [if_neg himport]
    rw [map_eq_pure_bind, bind_assoc]
    refine (h.statement i).goOn fun s i' hi' _ => ?_
    rw [pure_bind]
    refine (tracks_ending hends rfl fun k hk => ?_).mono hi'
    cases k <;> first | rfl | exact absurd rfl hk

/-- The descent takes a whole source as the snippet that its tokens make, or it refuses the source
as the parser does. -/
theorem snippet_parse (hends : EndsSource tokens) :
    ∃ enough, ∀ calls, enough ≤ calls →
      ∃ p, snippet tokens calls ⟨0, 0, 0⟩ = some ((parse tokens).mapError .fault, p) ∧
        p.deepest ≤ maxNesting + 1 := by
  have hinside : 0 < tokens.length := by
    rcases tokens with _ | ⟨t, ts⟩
    · cases hends
    · exact Nat.succ_pos _
  have hstands : Stands tokens ⟨0, 0, 0⟩ ⟨tokens, ⟨0, 0⟩⟩ :=
    ⟨hinside, rfl, fun _ hpos => absurd hpos (Nat.lt_irrefl 0)⟩
  obtain ⟨enough, hsnippet⟩ := (tracks_snippet hends).ends hstands (Nat.zero_le _)
  refine ⟨enough, fun calls hcalls => ?_⟩
  have hfollows := hsnippet calls hcalls
  change ∃ p, _ = some (((Reader.snippet ⟨tokens, ⟨0, 0⟩⟩).map Prod.fst).mapError Stop.fault, p) ∧ _
  generalize snippet tokens calls ⟨0, 0, 0⟩ = run at hfollows ⊢
  generalize Reader.snippet ⟨tokens, ⟨0, 0⟩⟩ = reading at hfollows ⊢
  cases hfollows with
  | ok hs hposition hdepth hdeep => exact ⟨_, rfl, hdeep⟩
  | fault hdeep => exact ⟨_, rfl, hdeep⟩

end Descent
end Syntax
end GuardedRepl
