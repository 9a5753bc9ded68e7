import GuardedRepl.Proofs.Syntax.Giving

/-!
# Printed expressions are read back

The reader of a position reads what is printed there, and then it goes on: behind a target with
members, behind a left operand with operators of the same rank.  So what it reads is stated together
with what it does next, in the layer that it has come to by then.  Parts that bind tighter are read
on the way to each looser position, and brackets lead back to the tightest one.  Every layer that is
entered takes a token, so an expression of few tokens is never nested too deeply.

**Results.**
* `ReadsAt.climb`: what is read at a position is read at the looser ones.
* `ReadsAt.bracket`: what is read as a whole is read in brackets at every position.
* `readsAt_print`: every expression is read at its position.
* `parse_print`: the snippet that a printed expression makes.
-/

namespace GuardedRepl
namespace Syntax
namespace Reader

open Source

/-! ## Positions -/

/-- A token behind an expression at a position that does not change what stands before it.  Where
something may still come behind the expression at this position, the token may begin it. -/
structure Follows (position : Nat) (k : TokenKind) : Prop where
  call : k ≠ .punct .openParen
  step (op : StepOp) : k ≠ .punct op.punct
  dot : k = .punct .dot → position = 0
  operator (op : BinaryOp) : k = .punct op.punct → position ≤ 2 + op.rank
  question : k = .punct .question → position ≤ 7
  assign (op : Option ArithOp) : k = .punct (assigning op) → position ≤ 8

theorem Follows.mono {p q : Nat} {k : TokenKind} (h : Follows q k) (hpq : p ≤ q) :
    Follows p k where
  call := h.call
  step := h.step
  dot hk := by have hq := h.dot hk; omega
  operator op hk := hpq.trans (h.operator op hk)
  question hk := hpq.trans (h.question hk)
  assign op hk := hpq.trans (h.assign op hk)

theorem ofPunct?_eq_some {p : Punct} {op : BinaryOp} (h : BinaryOp.ofPunct? p = some op) :
    p = op.punct := by
  cases p <;> cases h <;> rfl

theorem assignment?_eq_some_iff {k : TokenKind} {op : Option ArithOp} :
    assignment? k = some op ↔ k = .punct (assigning op) := by
  constructor
  · intro h
    unfold assignment? at h
    split at h <;> cases h <;> rfl
  · rintro rfl
    rcases op with _ | op
    · rfl
    · cases op <;> rfl

theorem follows_punct {position : Nat} {x : Punct}
    (hmark : x ∉ [.openParen, .increment, .decrement]) (hdot : x = .dot → position = 0)
    (hop : ∀ op, BinaryOp.ofPunct? x = some op → position ≤ 2 + op.rank)
    (hquestion : x = .question → position ≤ 7)
    (hassign : (assignment? (.punct x)).isSome = true → position ≤ 8) :
    Follows position (.punct x) where
  call hx := hmark (by simp [TokenKind.punct.inj hx])
  step op hx := hmark (by cases op <;> simp [TokenKind.punct.inj hx, StepOp.punct])
  dot hx := hdot (TokenKind.punct.inj hx)
  operator op hx := hop op (by rw [TokenKind.punct.inj hx, BinaryOp.ofPunct?_punct])
  question hx := hquestion (TokenKind.punct.inj hx)
  assign op hx := hassign (by rw [TokenKind.punct.inj hx, assignment?_eq_some_iff.mpr rfl]; rfl)

theorem follows_dot : Follows 0 (.punct .dot) :=
  follows_punct (by decide) (by simp) (by simp) (by simp) (by simp)

theorem follows_question : Follows 7 (.punct .question) :=
  follows_punct (by decide) (by simp) nofun (by simp) (by simp)

theorem follows_operator (op : BinaryOp) : Follows (2 + op.rank) (.punct op.punct) := by
  have hown : ∀ op', BinaryOp.ofPunct? op.punct = some op' → 2 + op.rank ≤ 2 + op'.rank := by
    intro op' hop
    rw [BinaryOp.ofPunct?_punct] at hop
    cases hop
    exact le_rfl
  have hsome := BinaryOp.ofPunct?_punct op
  generalize op.punct = x at hown hsome
  refine follows_punct ?_ ?_ hown ?_ ?_ <;> cases x <;> cases hsome <;> simp [assignment?]

theorem follows_assigning (op : Option ArithOp) : Follows 8 (.punct (assigning op)) := by
  rcases op with _ | op
  · exact follows_punct (by decide) nofun nofun nofun fun _ => le_rfl
  · cases op <;> exact follows_punct (by decide) nofun nofun nofun fun _ => le_rfl

/-- A bracket, a comma and a colon end an expression. -/
theorem follows_closing {x : Punct} (hx : x ∈ [.closeParen, .comma, .colon]) (position : Nat) :
    Follows position (.punct x) := by
  simp only [List.mem_cons, List.not_mem_nil, or_false] at hx
  rcases hx with rfl | rfl | rfl <;>
    exact follows_punct (by decide) nofun nofun nofun nofun

theorem follows_endOfSource (position : Nat) : Follows position .endOfSource where
  call := nofun
  step := nofun
  dot := nofun
  operator := nofun
  question := nofun
  assign := nofun

/-- The reader of a position. -/
def Layer.readAt (l : Layer) (position : Nat) : Reader (Expr Span) :=
  if position = 9 then Reader.expr l
  else if position = 8 then ternary l
  else binary l (position - 1)

/-- Reads a member and what follows it, if a dot is ahead. -/
def Layer.memberOf (l : Layer) (e : Expr Span) : Reader (Expr Span) := do
  if ← eat .dot then l.member e else return e

/-- Reads operators of a rank with their right operands, if one is ahead. -/
def Layer.chainOf (l : Layer) (rank : Nat) (e : Expr Span) : Reader (Expr Span) := do
  match ← operator? rank with
  | some _ => l.chain rank e
  | none => return e

/-- Goes on behind an expression at a position. -/
def Layer.goOn (l : Layer) (position : Nat) (e : Expr Span) : Reader (Expr Span) :=
  if position = 0 then l.memberOf e
  else if 2 ≤ position ∧ position ≤ 7 then l.chainOf (position - 2) e
  else return e

/-- The reader of a position reads these tokens as this expression and then goes on, perhaps some
layers further in.  It takes at least one token for every layer that it enters. -/
def ReadsAt (position : Nat) (ks : List TokenKind) (e : Expr Unit) : Prop :=
  ∀ (deep : Prop) n rest Q, (n < ks.length → deep) → Follows position (front rest) →
    (∀ m ≤ n, n ≤ m + ks.length → ∀ e' : Expr Span, e'.shape = e →
      Gives deep ((layer m).goOn position e') rest Q) →
    Gives deep ((layer n).readAt position) (ks ++ rest) Q

/-! ## Going on -/

section GoingOn

variable {deep : Prop} {α : Type} {R : α → List TokenKind → Prop} {f : Option BinaryOp → Reader α}
  {rest : List TokenKind}

theorem Gives.operator (op : BinaryOp) (hf : Gives deep (f (some op)) (.punct op.punct :: rest) R) :
    Gives deep (operator? op.rank >>= f) (.punct op.punct :: rest) R := by
  rw [operator?, bind_assoc]
  refine .peek ?_
  rw [pure_bind]
  change Gives deep (f ((BinaryOp.ofPunct? op.punct).filter _)) _ R
  rw [BinaryOp.ofPunct?_punct, Option.filter_some_pos (by simp)]
  exact hf

theorem Gives.noOperator {rank : Nat}
    (hrest : ∀ op : BinaryOp, front rest = .punct op.punct → op.rank ≠ rank)
    (hf : Gives deep (f none) rest R) : Gives deep (operator? rank >>= f) rest R := by
  rw [operator?, bind_assoc]
  refine .peek ?_
  rw [pure_bind]
  split
  · next p hp =>
      rcases hop : BinaryOp.ofPunct? p with _ | op
      · exact hf
      · rw [ofPunct?_eq_some hop] at hp
        rw [Option.filter_some_neg (by simpa using hrest op hp)]
        exact hf
  · exact hf

/-- Nothing comes behind an expression at a position. -/
theorem gives_goOn {position : Nat} (hdot : position = 0 → front rest ≠ .punct .dot)
    (hop : ∀ op : BinaryOp, front rest = .punct op.punct → position ≠ 2 + op.rank)
    (l : Layer) {e : Expr Span} {Q : Expr Span → List TokenKind → Prop} (hQ : Q e rest) :
    Gives deep (l.goOn position e) rest Q := by
  unfold Layer.goOn
  split_ifs with htarget hchain
  · exact .eatNo (hdot htarget) (.pure hQ)
  · refine .noOperator (fun op hfront => ?_) (.pure hQ)
    have hne := hop op hfront
    omega
  · exact .pure hQ

end GoingOn

/-! ## From position to position -/

section Climbing

variable {deep : Prop} {p q n : Nat} {ks rest : List TokenKind} {e : Expr Unit}

/-- What is read at a position, if nothing comes behind it. -/
theorem ReadsAt.gives (h : ReadsAt p ks e) (hdeep : n < ks.length → deep)
    (hfollows : Follows p (front rest)) (hdot : p = 0 → front rest ≠ .punct .dot)
    (hop : ∀ op : BinaryOp, front rest = .punct op.punct → p ≠ 2 + op.rank) :
    Gives deep ((layer n).readAt p) (ks ++ rest) (Is e rest) :=
  h deep n rest _ hdeep hfollows fun m _ _ _ he => gives_goOn hdot hop (layer m) ⟨he, rfl⟩

/-- What is read at a position, if only something looser comes behind it. -/
theorem ReadsAt.gives_of_lt (h : ReadsAt p ks e) (hdeep : n < ks.length → deep)
    (hfollows : Follows q (front rest)) (hpq : p < q) :
    Gives deep ((layer n).readAt p) (ks ++ rest) (Is e rest) := by
  refine h.gives hdeep (hfollows.mono hpq.le) (fun hp hdot => ?_) fun op hop hp => ?_
  · have hq := hfollows.dot hdot
    omega
  · have hq := hfollows.operator op hop
    omega

/-- At a position looser than all operators nothing comes behind. -/
theorem ReadsAt.gives_of_ge (h : ReadsAt p ks e) (hp : 8 ≤ p) (hdeep : n < ks.length → deep)
    (hfollows : Follows p (front rest)) :
    Gives deep ((layer n).readAt p) (ks ++ rest) (Is e rest) := by
  refine h.gives hdeep hfollows (by omega) fun op _ => ?_
  have hrank : op.rank < 6 := op.rank_lt_ranks
  omega

/-- The reader of a position with operators reads an operand first. -/
theorem Layer.readAt_succ (l : Layer) (hp : p ≤ 6) :
    l.readAt (p + 1) = l.readAt p >>= l.goOn (p + 1) := by
  interval_cases p
  · exact (bind_pure _).symm
  all_goals rfl

theorem ReadsAt.succ (h : ReadsAt p ks e) (hp : p < 9) : ReadsAt (p + 1) ks e := by
  intro deep n rest Q hdeep hfollows hgo
  have hread := h.gives_of_lt hdeep hfollows (Nat.lt_succ_self p)
  have hnext : ∀ e' ks', Is e rest e' ks' → Gives deep ((layer n).goOn (p + 1) e') ks' Q := by
    rintro e' ks' ⟨he, rfl⟩
    exact hgo n le_rfl (Nat.le_add_right _ _) e' he
  rcases (by omega : p ≤ 6 ∨ p = 7 ∨ p = 8) with hp | rfl | rfl
  · rw [Layer.readAt_succ _ hp]
    exact hread.bind hnext
  · rw [show (layer n).readAt 8 = ternary (layer n) from rfl, ternary]
    refine hread.bind fun e' ks' he => ?_
    obtain ⟨he, rfl⟩ := he
    refine .eatNo (fun hquestion => ?_) (hnext e' _ ⟨he, rfl⟩)
    have hle := hfollows.question hquestion
    omega
  · rw [show (layer n).readAt 9 = expr (layer n) from rfl, expr]
    refine hread.bind fun e' ks' he => .peek ?_
    obtain ⟨he, rfl⟩ := he
    rcases hassign : assignment? (front ks') with _ | op
    · exact hnext e' _ ⟨he, rfl⟩
    · have hle := hfollows.assign op (assignment?_eq_some_iff.mp hassign)
      omega

theorem ReadsAt.climb (h : ReadsAt p ks e) (hpq : p ≤ q) (hq : q ≤ 9) : ReadsAt q ks e := by
  induction q, hpq using Nat.le_induction with
  | base => exact h
  | succ q _ ih => exact (ih (by omega)).succ (by omega)

end Climbing

/-! ## Targets -/

section Targets

variable {deep : Prop} {l : Layer} {n : Nat} {k : TokenKind} {ks rest : List TokenKind} {e : Expr Unit}
  {Q : Expr Span → List TokenKind → Prop}

theorem Gives.notCounted {e : Expr Span} {f : Expr Span → Reader (Expr Span)}
    (hrest : ∀ op : StepOp, front rest ≠ .punct op.punct) (hf : Gives deep (f e) rest Q) :
    Gives deep (counted e >>= f) rest Q := by
  rw [counted, bind_assoc]
  refine .peek ?_
  split
  · next h => exact absurd h (hrest .up)
  · next h => exact absurd h (hrest .down)
  · exact hf

/-- A name is counted by the operator behind it. -/
theorem Gives.counted {op : StepOp} {s : Span} {i : Ident Span} {f : Expr Span → Reader (Expr Span)}
    (hf : ∀ s', Gives deep (f (.step s' i op)) ks Q) :
    Gives deep (Reader.counted (.name s (.single i)) >>= f) (.punct op.punct :: ks) Q := by
  rw [Reader.counted, bind_assoc]
  refine .peek ?_
  have hcount : Gives deep ((Reader.advance >>= fun t => Pure.pure (Expr.step (s.through t.span) i op))
      >>= f) (.punct op.punct :: ks) Q := by
    rw [bind_assoc]
    exact .advance fun t => hf _
  cases op with
  | up => exact hcount
  | down => exact hcount

/-- Where nothing is counted, only a member can come behind an expression. -/
theorem gives_suffixes {e : Expr Span} (hrest : ∀ op : StepOp, front rest ≠ .punct op.punct)
    (h : Gives deep (l.goOn 0 e) rest Q) : Gives deep (suffixes l e) rest Q := by
  rw [suffixes]
  exact .notCounted hrest (.notCounted hrest h)

/-- The token is no operator in front of an operand. -/
def OpensPrimary (k : TokenKind) : Prop :=
  k ≠ .punct .minus ∧ k ≠ .punct .bang ∧ k ≠ .punct .plus

theorem gives_unary (hk : OpensPrimary k) (h : Gives deep (primary l >>= suffixes l) (k :: ks) Q) :
    Gives deep (unary l) (k :: ks) Q := by
  rw [unary]
  refine .next fun t ht => ?_
  rw [show t.kind = k from ht]
  obtain ⟨hminus, hbang, hplus⟩ := hk
  split
  · exact absurd rfl hminus
  · exact absurd rfl hbang
  · exact absurd rfl hplus
  · exact h

/-- An expression that no operator takes apart is read as a target. -/
theorem readsAt_primary (hk : OpensPrimary k)
    (h : ∀ (deep : Prop) n rest, (n ≤ ks.length → deep) → Follows 0 (front rest) →
      Gives deep (primary (layer n)) (k :: (ks ++ rest)) (Is e rest)) :
    ReadsAt 0 (k :: ks) e := by
  intro deep n rest Q hdeep hfollows hgo
  have hread := h deep n rest (fun hn => hdeep (Nat.lt_succ_of_le hn)) hfollows
  refine gives_unary hk (hread.bind fun e' ks' he => ?_)
  obtain ⟨he, rfl⟩ := he
  exact gives_suffixes hfollows.step (hgo n le_rfl (Nat.le_add_right _ _) e' he)

theorem readsAt_int (i : Int64) : ReadsAt 0 [.int i] (.int () i) := by
  refine readsAt_primary (by simp [OpensPrimary]) fun deep n rest _ _ => ?_
  rw [primary]
  refine .next fun t ht => ?_
  rw [show t.kind = .int i from ht]
  exact .advance fun _ => .pure ⟨rfl, rfl⟩

theorem readsAt_str (x : String) : ReadsAt 0 [.str x] (.str () x) := by
  refine readsAt_primary (by simp [OpensPrimary]) fun deep n rest _ _ => ?_
  rw [primary]
  refine .next fun t ht => ?_
  rw [show t.kind = .str x from ht]
  exact .advance fun _ => .pure ⟨rfl, rfl⟩

theorem readsAt_bool (b : Bool) :
    ReadsAt 0 [.keyword (if b then .trueWord else .falseWord)] (.bool () b) := by
  refine readsAt_primary (by simp [OpensPrimary]) fun deep n rest _ _ => ?_
  rw [primary]
  refine .next fun t ht => ?_
  cases b with
  | false =>
      rw [show t.kind = .keyword .falseWord from ht]
      exact .advance fun _ => .pure ⟨rfl, rfl⟩
  | true =>
      rw [show t.kind = .keyword .trueWord from ht]
      exact .advance fun _ => .pure ⟨rfl, rfl⟩

theorem readsAt_null : ReadsAt 0 [.keyword .nullWord] (.null ()) := by
  refine readsAt_primary (by simp [OpensPrimary]) fun deep n rest _ _ => ?_
  rw [primary]
  refine .next fun t ht => ?_
  rw [show t.kind = .keyword .nullWord from ht]
  exact .advance fun _ => .pure ⟨rfl, rfl⟩

theorem gives_named {name : String} (h : Gives deep (named l) (.ident name :: ks) Q) :
    Gives deep (primary l) (.ident name :: ks) Q := by
  rw [primary]
  refine .next fun t ht => ?_
  rw [show t.kind = .ident name from ht]
  exact h

theorem opensPrimary_ident (name : String) : OpensPrimary (.ident name) := by
  simp [OpensPrimary]

theorem readsAt_bareCall {m : Ident Unit} (hm : m.IsFree) {args : List (Expr Unit)}
    (hargs : ∀ a ∈ args, IsArgument a) :
    ReadsAt 0 (Expr.bareCall () m args).print (.bareCall () m args) := by
  rw [Expr.print, Ident.print_eq hm]
  refine readsAt_primary (opensPrimary_ident _) fun deep n rest hdeep _ => gives_named ?_
  rw [length_bracket] at hdeep
  rw [named]
  refine .ident fun s => .seesYes ?_
  refine (gives_arguments hargs (fun h => hdeep (by omega)) rest).bind fun as ks' has => ?_
  obtain ⟨has, rfl⟩ := has
  exact .get fun c _ => .pure ⟨by rw [Expr.shape, has]; rfl, rfl⟩

theorem readsAt_new {cls : Dotted Unit} (hcls : cls.IsFree) {args : List (Expr Unit)}
    (hargs : ∀ a ∈ args, IsArgument a) :
    ReadsAt 0 (Expr.new () cls args).print (.new () cls args) := by
  rw [Expr.print]
  refine readsAt_primary (by simp [OpensPrimary]) fun deep n rest hdeep _ => ?_
  rw [primary]
  refine .next fun t ht => ?_
  rw [show t.kind = .keyword .newWord from ht, List.append_assoc]
  rw [List.length_append, length_bracket] at hdeep
  refine .advance fun _ => ?_
  refine (gives_dotted hcls (by simp [bracket, front])).bind fun d ks' hd => ?_
  obtain ⟨hd, rfl⟩ := hd
  refine (gives_arguments hargs (fun h => hdeep (by omega)) rest).bind fun as ks' has => ?_
  obtain ⟨has, rfl⟩ := has
  exact .get fun c _ => .pure ⟨by rw [Expr.shape, hd, has], rfl⟩

/-- One layer further in, an expression is read as a whole, if there is one more layer. -/
theorem gives_inner_expr (h : ReadsAt 9 ks e) (hdeep : n ≤ ks.length → deep)
    (hfollows : Follows 9 (front rest)) :
    Gives deep (layer n).expr (ks ++ rest) (Is e rest) := by
  cases n with
  | zero => exact gives_tooDeep (hdeep (Nat.zero_le _))
  | succ n => exact h.gives_of_ge (by omega) hdeep hfollows

/-- In brackets an expression is read as a whole. -/
theorem ReadsAt.bracket (h : ReadsAt 9 ks e) : ReadsAt 0 (bracket ks) e := by
  refine readsAt_primary (by simp [OpensPrimary]) fun deep n rest hdeep _ => ?_
  rw [primary]
  refine .next fun t ht => ?_
  rw [show t.kind = .punct .openParen from ht, List.append_assoc]
  rw [List.length_append] at hdeep
  refine .advance fun _ => ?_
  have hclose : Follows 9 (front (.punct .closeParen :: rest)) := follows_closing (by decide) 9
  refine (gives_inner_expr h (fun hn => hdeep (by omega)) hclose).bind fun e' ks' he => ?_
  obtain ⟨he, rfl⟩ := he
  exact .expect fun stop => .pure ⟨by rw [Expr.shape_retag, he], rfl⟩

/-- Behind a target a member is read one layer further in. -/
theorem gives_memberOf {target : Expr Span} {name : String} (hdeep : n = 0 → deep)
    (h : ∀ m, n = m + 1 → Gives deep (Reader.member (layer m) target) (.ident name :: ks) Q) :
    Gives deep ((layer n).goOn 0 target) (.punct .dot :: .ident name :: ks) Q := by
  refine .eatYes ?_
  rw [if_pos rfl]
  cases n with
  | zero => exact gives_tooDeep (hdeep rfl)
  | succ n => exact h n rfl

/-- Names behind a name, with dots between them. -/
theorem gives_path {parts : List (Ident Unit)} (hparts : ∀ i ∈ parts, i.IsFree)
    (hdeep : n < parts.length → deep) (hfollows : Follows 0 (front rest)) {t : Span}
    {d : Dotted Span}
    (hgo : ∀ m ≤ n, n ≤ m + parts.length → ∀ e' : Expr Span,
      e'.shape = .name () ⟨d.shape.first, d.shape.rest ++ parts⟩ →
        Gives deep ((layer m).goOn 0 e') rest Q) :
    Gives deep (suffixes (layer n) (.name t d)) (Dotted.printTail parts ++ rest) Q := by
  -- Each name makes the target longer, and the next one finds it one layer further in.
  induction parts generalizing n t d with
  | nil => exact gives_suffixes hfollows.step (hgo n le_rfl le_rfl _ (by simp [Expr.shape]))
  | cons i parts ih =>
      rw [List.forall_mem_cons] at hparts
      rw [List.length_cons] at hdeep hgo
      change Gives _ _ (.punct .dot :: i.print :: (Dotted.printTail parts ++ rest)) _
      have hcall : front (Dotted.printTail parts ++ rest) ≠ .punct .openParen := by
        cases parts with
        | nil => exact hfollows.call
        | cons j parts => simp [Dotted.printTail, front]
      rw [Ident.print_eq hparts.1]
      refine gives_suffixes follows_dot.step (gives_memberOf (fun h => hdeep (by omega)) ?_)
      rintro m rfl
      rw [Reader.member]
      refine .ident fun s => .seesNo hcall ?_
      refine ih hparts.2 (fun h => hdeep (by omega)) fun m' hm' hm e' he' =>
        hgo m' (by omega) (by omega) e' ?_
      rw [he']
      simp [Dotted.shape, Dotted.snoc, Ident.shape]

/-- A name is read, and then what follows it. -/
theorem gives_name {i : Ident Unit} (hi : i.IsFree) (hcall : front ks ≠ .punct .openParen)
    (h : ∀ s, Gives deep (suffixes l (.name s (.single ⟨i.name, s⟩))) ks Q) :
    Gives deep (unary l) (i.print :: ks) Q := by
  rw [Ident.print_eq hi]
  refine gives_unary (opensPrimary_ident _) ?_
  have hnamed : Gives deep (named l) (.ident i.name :: ks) fun e' ks' =>
      (∃ s, e' = .name s (.single ⟨i.name, s⟩)) ∧ ks' = ks := by
    rw [named]
    exact .ident fun s => .seesNo hcall (.pure ⟨⟨s, rfl⟩, rfl⟩)
  refine (gives_named hnamed).bind ?_
  rintro e' ks' ⟨⟨s, rfl⟩, rfl⟩
  exact h s

theorem readsAt_name {path : Dotted Unit} (hpath : path.IsFree) :
    ReadsAt 0 path.print (.name () path) := by
  obtain ⟨first, parts⟩ := path
  obtain ⟨hfirst, hparts⟩ := List.forall_mem_cons.mp hpath
  change ∀ i ∈ parts, i.IsFree at hparts
  intro deep n rest Q hdeep hfollows hgo
  have hlength : (Dotted.print ⟨first, parts⟩).length = 2 * parts.length + 1 :=
    congrArg Nat.succ (length_printTail parts)
  rw [hlength] at hdeep hgo
  refine gives_name hfirst ?_ fun s => gives_path hparts (fun h => hdeep (by omega)) hfollows
    fun m hm hn => hgo m hm (by omega)
  cases parts with
  | nil => exact hfollows.call
  | cons j parts => simp [Dotted.printTail, front]

theorem readsAt_step {v : Ident Unit} (hv : v.IsFree) (op : StepOp) :
    ReadsAt 0 [v.print, .punct op.punct] (.step () v op) := by
  intro deep n rest Q _ hfollows hgo
  refine gives_name hv (by cases op <;> simp [front, StepOp.punct]) fun s => ?_
  rw [suffixes]
  refine .counted fun s' => .notCounted hfollows.step ?_
  exact hgo n le_rfl (Nat.le_add_right _ _) _ rfl

theorem readsAt_field (h : ReadsAt 0 ks e) (he : e.isName = false) {m : Ident Unit}
    (hm : m.IsFree) : ReadsAt 0 (ks ++ [.punct .dot, m.print]) (.field () e m) := by
  intro deep n rest Q hdeep hfollows hgo
  rw [List.length_append, List.length_cons] at hdeep hgo
  rw [List.append_assoc, Ident.print_eq hm]
  refine h deep n _ Q (fun hn => hdeep (by omega)) follows_dot fun m' hm' hn e' he' =>
    gives_memberOf (fun hzero => hdeep (by omega)) ?_
  rintro n' rfl
  rw [Reader.member]
  refine .ident fun s => .seesNo hfollows.call (gives_suffixes hfollows.step ?_)
  refine hgo n' (by omega) (by omega) _ ?_
  -- A dotted name would have become longer.
  split
  · rw [Expr.shape] at he'
    rw [← he'] at he
    cases he
  · rw [Expr.shape, he']
    rfl

theorem readsAt_call (h : ReadsAt 0 ks e) {m : Ident Unit} (hm : m.IsFree)
    {args : List (Expr Unit)} (hargs : ∀ a ∈ args, IsArgument a) :
    ReadsAt 0 (ks ++ .punct .dot :: m.print :: bracket (Expr.listPrint args))
      (.call () e m args) := by
  intro deep n rest Q hdeep hfollows hgo
  rw [List.length_append, List.length_cons, List.length_cons, length_bracket] at hdeep hgo
  rw [List.append_assoc, Ident.print_eq hm]
  refine h deep n _ Q (fun hn => hdeep (by omega)) follows_dot fun m' hm' hn e' he' =>
    gives_memberOf (fun hzero => hdeep (by omega)) ?_
  rintro n' rfl
  rw [Reader.member]
  refine .ident fun s => .seesYes ?_
  have hshort : n' ≤ (Expr.listPrint args).length → deep := fun hn' => hdeep (by omega)
  refine (gives_arguments hargs hshort rest).bind fun as ks' has => .get fun c _ => ?_
  obtain ⟨has, rfl⟩ := has
  refine gives_suffixes hfollows.step (hgo n' (by omega) (by omega) _ ?_)
  rw [Expr.shape, he', has]
  rfl

end Targets

/-! ## Operators -/

section Operators

variable {deep : Prop} {n : Nat} {ks rest : List TokenKind} {e : Expr Unit}

theorem gives_operand (h : ReadsAt 1 ks e) (hdeep : n ≤ ks.length → deep)
    (hfollows : Follows 1 (front rest)) :
    Gives deep (layer n).operand (ks ++ rest) (Is e rest) := by
  cases n with
  | zero => exact gives_tooDeep (hdeep (Nat.zero_le _))
  | succ n => exact h.gives hdeep hfollows (by simp) fun op _ => by omega

theorem readsAt_unary (h : ReadsAt 1 ks e) (op : UnaryOp) :
    ReadsAt 1 (.punct op.punct :: ks) (.unary () op e) := by
  intro deep n rest Q hdeep hfollows hgo
  rw [List.length_cons] at hdeep
  have hoperand (s : Span) : Gives deep (do
      let _ ← advance
      let e ← (layer n).operand
      return Expr.unary (s.through e.tag) op e) (.punct op.punct :: (ks ++ rest)) Q := by
    have hshort : n ≤ ks.length → deep := fun hn => hdeep (by omega)
    refine .advance fun _ => (gives_operand h hshort hfollows).bind fun e' ks' he => ?_
    obtain ⟨he, rfl⟩ := he
    exact hgo n le_rfl (Nat.le_add_right _ _) _ (by rw [Expr.shape, he])
  rw [show (layer n).readAt 1 = unary (layer n) from rfl, unary]
  refine .next fun t ht => ?_
  rw [show t.kind = .punct op.punct from ht]
  cases op with
  | neg => exact hoperand t.span
  | not => exact hoperand t.span

theorem Layer.goOn_operator (l : Layer) (op : BinaryOp) :
    l.goOn (2 + op.rank) = l.chainOf op.rank := by
  have hrank : op.rank < 6 := op.rank_lt_ranks
  funext e
  rw [Layer.goOn, if_neg (by omega), if_pos (by omega), Nat.add_sub_cancel_left]

theorem Layer.readAt_operator (l : Layer) (op : BinaryOp) :
    l.readAt (1 + op.rank) = binary l op.rank := by
  have hrank : op.rank < 6 := op.rank_lt_ranks
  rw [Layer.readAt, if_neg (by omega), if_neg (by omega), Nat.add_sub_cancel_left]

/-- An operator goes on behind its left operand, and its right one stands in the next layer. -/
theorem readsAt_binary {op : BinaryOp} {left right : Expr Unit} {ks' : List TokenKind}
    (hleft : ReadsAt (2 + op.rank) ks left) (hright : ReadsAt (1 + op.rank) ks' right) :
    ReadsAt (2 + op.rank) (ks ++ .punct op.punct :: ks') (.binary () op left right) := by
  intro deep n rest Q hdeep hfollows hgo
  rw [List.length_append, List.length_cons] at hdeep hgo
  rw [List.append_assoc]
  refine hleft deep n _ Q (fun hn => hdeep (by omega)) (follows_operator op)
    fun m hm hn left' hleft' => ?_
  rw [Layer.goOn_operator, Layer.chainOf]
  refine .operator op ?_
  cases m with
  | zero => exact gives_tooDeep (hdeep (by omega))
  | succ m =>
      -- What comes behind finds the whole as its left operand in the same layer as the right one.
      change Gives deep (Reader.chain (layer m) op.rank left') _ Q
      rw [Reader.chain]
      refine .operator op (.advance fun _ => ?_)
      have hshort : m < ks'.length → deep := fun hm => hdeep (by omega)
      have hread := hright.gives_of_lt hshort hfollows (by omega)
      rw [Layer.readAt_operator] at hread
      refine hread.bind fun right' ks'' hright' => ?_
      obtain ⟨hright', rfl⟩ := hright'
      have hnext := hgo m (by omega) (by omega)
        (.binary (left'.tag.through right'.tag) op left' right')
        (by rw [Expr.shape, hleft', hright'])
      rwa [Layer.goOn_operator] at hnext

theorem gives_branches {yes no : Expr Unit} {ks' : List TokenKind} (hyes : ReadsAt 8 ks yes)
    (hno : ReadsAt 8 ks' no) (hdeep : n ≤ ks.length + ks'.length → deep)
    (hfollows : Follows 8 (front rest)) :
    Gives deep (layer n).branches (ks ++ .punct .colon :: (ks' ++ rest)) fun r ks'' =>
      r.1.shape = yes ∧ r.2.shape = no ∧ ks'' = rest := by
  cases n with
  | zero => exact gives_tooDeep (hdeep (Nat.zero_le _))
  | succ n =>
      have hcolon : Follows 8 (front (.punct .colon :: (ks' ++ rest))) :=
        follows_closing (by decide) 8
      change Gives deep (branches (layer n)) _ _
      rw [branches]
      refine (hyes.gives_of_ge le_rfl (fun hn => hdeep (by omega)) hcolon).bind ?_
      rintro yes' ks₁ ⟨hyes', rfl⟩
      refine .expect fun _ => ?_
      refine (hno.gives_of_ge le_rfl (fun hn => hdeep (by omega)) hfollows).bind ?_
      rintro no' ks₂ ⟨hno', rfl⟩
      exact .pure ⟨hyes', hno', rfl⟩

theorem readsAt_ternary {cond yes no : Expr Unit} {ks' ks'' : List TokenKind}
    (hcond : ReadsAt 7 ks cond) (hyes : ReadsAt 8 ks' yes) (hno : ReadsAt 8 ks'' no) :
    ReadsAt 8 (ks ++ .punct .question :: (ks' ++ .punct .colon :: ks''))
      (.ternary () cond yes no) := by
  intro deep n rest Q hdeep hfollows hgo
  simp only [List.length_append, List.length_cons] at hdeep
  have hop (op : BinaryOp) : TokenKind.punct .question ≠ .punct op.punct := by
    intro hquestion
    have hsome := BinaryOp.ofPunct?_punct op
    rw [← TokenKind.punct.inj hquestion] at hsome
    cases hsome
  rw [List.append_assoc, List.cons_append, List.append_assoc, List.cons_append,
    show (layer n).readAt 8 = ternary (layer n) from rfl, ternary]
  have hquestion :
      Follows 7 (front (.punct .question :: (ks' ++ .punct .colon :: (ks'' ++ rest)))) :=
    follows_question
  have hshort : n < ks.length → deep := fun hn => hdeep (by omega)
  refine (hcond.gives hshort hquestion (by simp) fun op h => absurd h (hop op)).bind ?_
  rintro cond' ks₁ ⟨hcond', rfl⟩
  refine .eatYes ?_
  rw [if_pos rfl]
  refine (gives_branches hyes hno (fun hn => hdeep (by omega)) hfollows).bind ?_
  rintro ⟨yes', no'⟩ ks₁ ⟨hyes', hno', rfl⟩
  exact hgo n le_rfl (Nat.le_add_right _ _) _ (by rw [Expr.shape, hcond', hyes', hno'])

/-- A name of one part can be assigned to. -/
theorem gives_assignable {v : Ident Unit} {e : Expr Span} (he : e.shape = .name () ⟨v, []⟩) :
    Gives deep (assignable e) ks fun i ks' => i.shape = v ∧ ks' = ks := by
  cases e with
  | name s path =>
      obtain ⟨first, tail⟩ := path
      simp only [Expr.shape, Dotted.shape, Expr.name.injEq, Dotted.mk.injEq, List.map_eq_nil_iff,
        true_and] at he
      obtain ⟨rfl, rfl⟩ := he
      exact .pure ⟨rfl, rfl⟩
  | _ => cases he

theorem readsAt_assign {v : Ident Unit} (hv : v.IsFree) (op : Option ArithOp)
    (hvalue : ReadsAt 9 ks e) :
    ReadsAt 9 (v.print :: .punct (assigning op) :: ks) (.assign () v op e) := by
  intro deep n rest Q hdeep hfollows hgo
  rw [List.length_cons, List.length_cons] at hdeep
  have hname : Dotted.IsFree ⟨v, []⟩ := List.forall_mem_singleton.mpr hv
  have hleft : ReadsAt 8 [v.print] (.name () ⟨v, []⟩) :=
    (readsAt_name hname).climb (by omega) (by omega)
  have hassign : Follows 8 (front (.punct (assigning op) :: (ks ++ rest))) := follows_assigning op
  rw [show (layer n).readAt 9 = expr (layer n) from rfl, expr]
  have hname : n < [v.print].length → deep := fun hn => hdeep (by simp at hn; omega)
  refine (hleft.gives_of_ge le_rfl hname hassign).bind ?_
  rintro left ks' ⟨hleft, rfl⟩
  refine .peek ?_
  rw [assignment?_eq_some_iff.mpr (rfl : front (.punct (assigning op) :: (ks ++ rest)) = _)]
  refine (gives_assignable hleft).bind ?_
  rintro v' ks' ⟨hv', rfl⟩
  have hshort : n ≤ ks.length → deep := fun hn => hdeep (by omega)
  refine .advance fun _ => (gives_inner_expr hvalue hshort hfollows).bind ?_
  rintro value ks' ⟨hvalue', rfl⟩
  exact hgo n le_rfl (Nat.le_add_right _ _) _ (by rw [Expr.shape, hv', hvalue'])

end Operators

/-! ## Expressions -/

section Expressions

variable {e : Expr Unit}

/-- Where an expression is too loose for its position, brackets make it fit. -/
theorem ReadsAt.fit (h : ReadsAt e.looseness e.print e) {p : Nat} (hp : p ≤ 9) :
    ReadsAt p (fit p e.looseness e.print) e := by
  unfold Syntax.fit
  split_ifs with hle
  · exact h.climb hle hp
  · exact (h.climb e.looseness_le le_rfl).bracket.climb (Nat.zero_le p) hp

theorem ReadsAt.isArgument (h : ReadsAt e.looseness e.print e) (hbegun : Begun e.print) :
    IsArgument e where
  begun := hbegun
  gives hdeep rest hrest := by
    have hfollows : Follows 9 (front rest) := by
      rcases hrest with hcomma | hclose
      · exact hcomma ▸ follows_closing (by decide) 9
      · exact hclose ▸ follows_closing (by decide) 9
    exact gives_inner_expr (h.climb e.looseness_le le_rfl) hdeep hfollows

mutual

/-- Every expression is read at its own position. -/
theorem readsAt_print : ∀ e : Expr Unit, e.Printable → ReadsAt e.looseness e.print e
  | .int _ n, _ => readsAt_int n
  | .str _ s, _ => readsAt_str s
  | .bool _ b, _ => readsAt_bool b
  | .null _, _ => readsAt_null
  | .name _ _, h => readsAt_name h
  | .field _ target _, ⟨htarget, hname, hm⟩ =>
      readsAt_field ((readsAt_print target htarget).fit (Nat.zero_le 9)) hname hm
  | .call _ target _ args, ⟨htarget, hm, hargs⟩ =>
      readsAt_call ((readsAt_print target htarget).fit (Nat.zero_le 9)) hm
        (readsAt_listPrint args hargs)
  | .bareCall _ _ args, ⟨hm, hargs⟩ => readsAt_bareCall hm (readsAt_listPrint args hargs)
  | .new _ _ args, ⟨hcls, hargs⟩ => readsAt_new hcls (readsAt_listPrint args hargs)
  | .unary _ op operand, h => readsAt_unary ((readsAt_print operand h).fit (by omega)) op
  | .binary _ op left right, ⟨hleft, hright⟩ =>
      have hrank : op.rank < 6 := op.rank_lt_ranks
      readsAt_binary ((readsAt_print left hleft).fit (by omega))
        ((readsAt_print right hright).fit (by omega))
  | .ternary _ cond yes no, ⟨hcond, hyes, hno⟩ =>
      readsAt_ternary ((readsAt_print cond hcond).fit (by omega))
        ((readsAt_print yes hyes).fit (by omega)) ((readsAt_print no hno).fit (by omega))
  | .assign _ _ op value, ⟨hv, hvalue⟩ =>
      readsAt_assign hv op ((readsAt_print value hvalue).climb value.looseness_le le_rfl)
  | .step _ _ op, h => readsAt_step h op

theorem readsAt_listPrint : ∀ es : List (Expr Unit), Expr.ListPrintable es →
    ∀ a ∈ es, IsArgument a
  | [], _ => by simp
  | e :: es, ⟨he, hes⟩ => List.forall_mem_cons.mpr
      ⟨(readsAt_print e he).isArgument (e.begun_print he), readsAt_listPrint es hes⟩

end

end Expressions

/-! ## Snippets -/

section Snippets

variable {e : Expr Unit}

/-- Where no two names stand side by side, nothing is declared. -/
theorem declaresKinds_eq_false {name : String} {ks : List TokenKind}
    (h : Apart (.ident name :: ks)) : declaresKinds ks = false := by
  fun_induction declaresKinds ks generalizing name with
  | case1 name' ks ih => exact ih h.tail.tail
  | case2 name' => exact absurd h.rel (by simp [isIdent])
  | case3 name' k ks => exact absurd h.rel (by simp [isIdent])
  | case4 => rfl

theorem declares_eq_false {c : Cursor} (h : Apart c.kinds) : declares c.ahead = false := by
  obtain ⟨ahead, behind⟩ := c
  rcases ahead with _ | ⟨⟨k, s⟩, rest⟩
  · rfl
  · cases k with
    | ident name =>
        change declaresAfterName rest = false
        rw [declaresAfterName_eq]
        exact declaresKinds_eq_false h
    | _ => rfl

/-- A printed expression is a simple statement. -/
theorem gives_statement {deep : Prop} (he : e.Printable) {n : Nat}
    (hdeep : n ≤ e.print.length → deep) :
    Gives deep (statement (layer n)) (e.print ++ [.endOfSource]) fun s ks =>
      (∃ e' : Expr Span, s = .simple (.expr e') ∧ e'.shape = e) ∧ ks = [.endOfSource] := by
  have hsimple : Gives deep (do return Stmt.simple (← simple (layer n)))
      (e.print ++ [.endOfSource]) fun s ks =>
        (∃ e' : Expr Span, s = .simple (.expr e') ∧ e'.shape = e) ∧ ks = [.endOfSource] := by
    have hread := (readsAt_print e he).climb e.looseness_le le_rfl
    have hend : Follows 9 (front [.endOfSource]) := follows_endOfSource 9
    rw [simple, bind_assoc]
    refine .get fun c hc => ?_
    have happart : Apart c.kinds := by
      rw [hc]
      exact e.apart_print.append_cons rfl .nil
    rw [declares_eq_false happart, if_neg (by simp), bind_assoc]
    refine (gives_inner_expr hread hdeep hend).bind ?_
    rintro e' ks ⟨he', rfl⟩
    exact .pure ⟨⟨e', rfl, he'⟩, rfl⟩
  obtain ⟨k, more, hprint, hk⟩ := (e.begun_print he).append [.endOfSource]
  rw [hprint] at hsimple ⊢
  rw [statement]
  refine .next fun t ht => ?_
  rw [show t.kind = k from ht]
  split
  case h_9 => exact hsimple
  all_goals cases hk

theorem gives_snippet (he : e.Printable) :
    Gives (maxNesting ≤ e.print.length + 1) snippet (e.print ++ [.endOfSource]) fun s _ =>
      ∃ e' : Expr Span, s = .stmt (.simple (.expr e')) ∧ e'.shape = e := by
  have himport : front (e.print ++ [.endOfSource]) ≠ .keyword .importWord :=
    ((e.begun_print he).append _).front_ne rfl
  have hread : Gives (maxNesting ≤ e.print.length + 1)
      (TopLevel.stmt <$> (layer maxNesting).statement) (e.print ++ [.endOfSource]) fun s ks =>
        (∃ e' : Expr Span, s = .stmt (.simple (.expr e')) ∧ e'.shape = e) ∧
          ks = [.endOfSource] := by
    refine .map ((gives_statement (n := 99) he Nat.succ_le_succ).mono ?_)
    rintro s ks ⟨⟨e', rfl, he'⟩, rfl⟩
    exact ⟨⟨e', rfl, he'⟩, rfl⟩
  rw [snippet]
  refine .peek ?_
  split
  · next h => exact absurd h himport
  · refine hread.bind ?_
    rintro s ks ⟨hs, rfl⟩
    refine .eatNo (by simp [front]) (.peek ?_)
    exact .pure hs

end Snippets

end Reader

/-! ## Printed expressions -/

/-- **Printed expressions are read back.**  The snippet that a printed expression makes is the
expression again, unless it is nested too deeply, and then it has at least as many tokens as there
are layers. -/
theorem parse_print {e : Expr Unit} (he : e.Printable) {tokens : List Source.Token}
    (htokens : tokens.map Source.Token.kind = e.print ++ [.endOfSource]) :
    (∃ e' : Expr Source.Span, parse tokens = .ok (.stmt (.simple (.expr e'))) ∧ e'.shape = e) ∨
      Reader.maxNesting ≤ tokens.length ∧ ∃ s, parse tokens = .error ⟨s, .tooDeep⟩ := by
  have hsnippet := Reader.gives_snippet he ⟨tokens, ⟨0, 0⟩⟩ htokens
  have hlength : tokens.length = e.print.length + 1 := by
    rw [← List.length_map Source.Token.kind, htokens, List.length_append, List.length_singleton]
  rcases hsnippet with ⟨s, c, hrun, e', rfl, he'⟩ | ⟨hdeep, s, hrun⟩
  · exact Or.inl ⟨e', by rw [parse, StateT.run, hrun]; rfl, he'⟩
  · exact Or.inr ⟨hlength ▸ hdeep, s, by rw [parse, StateT.run, hrun]; rfl⟩

/-- An expression with parts that need brackets and parts that do not. -/
def mixed : Expr Unit :=
  let name (x : String) : Ident Unit := ⟨x, ()⟩
  let choice := .ternary () (.name () ⟨name "ok", []⟩) (.assign () (name "y") none (.str () "s"))
    (.null ())
  .assign () (name "n") (some .add) <|
    .binary () (.arith .mul)
      (.unary () .neg <|
        .binary () (.arith .sub) (.name () ⟨name "a", [name "b"]⟩)
          (.binary () (.arith .sub) (.int () 1) (.int () 2)))
      (.field () (.bareCall () (name "f") [.step () (name "x") .up, choice]) (name "g"))

/-- A source of these tokens. -/
def mixedText : List Char :=
  "n += -(a.b - (1 - 2)) * f(x++, ok ? (y = \"s\") : null).g".toList

theorem parse_print_mixed :
    mixed.Printable ∧ ∃ tokens, Source.tokenize mixedText = .ok tokens ∧
      tokens.map Source.Token.kind = mixed.print ++ [.endOfSource] ∧
      ∃ e' : Expr Source.Span, parse tokens = .ok (.stmt (.simple (.expr e'))) ∧
        e'.shape = mixed := by
  have hprintable : mixed.Printable := by
    simp only [mixed, Expr.Printable, Expr.ListPrintable, Dotted.IsFree, Ident.IsFree]
    decide
  have hkinds : (Source.tokenize mixedText).map (fun tokens => tokens.map Source.Token.kind) =
      .ok (mixed.print ++ [.endOfSource]) := by
    decide +kernel
  rcases htokens : Source.tokenize mixedText with f | tokens
  · rw [htokens] at hkinds
    cases hkinds
  · rw [htokens] at hkinds
    have hkinds : tokens.map Source.Token.kind = mixed.print ++ [.endOfSource] :=
      Except.ok.inj hkinds
    refine ⟨hprintable, tokens, rfl, hkinds, ?_⟩
    rcases parse_print hprintable hkinds with hparse | ⟨hlong, -⟩
    · exact hparse
    · rw [← List.length_map Source.Token.kind, hkinds] at hlong
      exact absurd hlong (by decide)

end Syntax
end GuardedRepl
