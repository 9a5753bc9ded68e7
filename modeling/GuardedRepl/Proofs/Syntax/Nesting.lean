import GuardedRepl.Proofs.Syntax.Reading
import GuardedRepl.Source.Lexer

/-!
# How high a tree can get

The number of layers limits how deep the readers call one another, and a tree is higher than that:
an operator stands above a left operand that was read before the layers of its chain were entered.
In each layer a chain of members, six chains of operators, a conditional and a call can stand on top
of one another, and each of the chains can be as long as there are layers left.  So the height grows
with the square of the number of layers.

**Results.**
* `Bounded.around`, `bounded_layer`: what one layer adds, and the height that `n` layers allow.
* `parse_height_le`: the height of every tree that is read.
* `exists_parse_height_gt`: two chains of sixty operators, one of them in brackets, make a tree that
  is higher than the number of layers and two.
-/

namespace GuardedRepl
namespace Syntax

variable {α : Type}

/-! ## Heights -/

mutual

/-- The number of nodes on the longest path from the root of an expression to a leaf.  Every part of
a dotted name counts as a node. -/
def Expr.height : Expr α → Nat
  | .int _ _ => 1
  | .str _ _ => 1
  | .bool _ _ => 1
  | .null _ => 1
  | .name _ path => path.parts.length
  | .field _ target _ => target.height + 1
  | .call _ target _ args => max target.height (Expr.heights args) + 1
  | .bareCall _ _ args => Expr.heights args + 1
  | .new _ _ args => Expr.heights args + 1
  | .unary _ _ operand => operand.height + 1
  | .binary _ _ left right => max left.height right.height + 1
  | .ternary _ cond yes no => max cond.height (max yes.height no.height) + 1
  | .assign _ _ _ value => value.height + 1
  | .step _ _ _ => 1

/-- The height of the highest one of some expressions. -/
def Expr.heights : List (Expr α) → Nat
  | [] => 0
  | e :: es => max e.height (Expr.heights es)

end

/-- The height of an expression that may be absent. -/
def Expr.optionHeight (e : Option (Expr α)) : Nat :=
  e.elim 0 Expr.height

/-- The height of a statement without parts that are statements. -/
def Simple.height : Simple α → Nat
  | .declare d => Expr.optionHeight d.init + 1
  | .expr e => e.height + 1

mutual

/-- The number of nodes on the longest path from the root of a statement to a leaf. -/
def Stmt.height : Stmt α → Nat
  | .simple s => s.height
  | .block body => Stmt.heights body + 1
  | .ifThen cond yes => max cond.height yes.height + 1
  | .ifElse cond yes no => max cond.height (max yes.height no.height) + 1
  | .while cond body => max cond.height body.height + 1
  | .for init cond update body =>
    max (max (init.elim 0 Simple.height) body.height)
      (max (Expr.optionHeight cond) (Expr.optionHeight update)) + 1
  | .break _ => 1
  | .continue _ => 1
  | .empty => 1

/-- The height of the highest one of some statements. -/
def Stmt.heights : List (Stmt α) → Nat
  | [] => 0
  | s :: ss => max s.height (Stmt.heights ss)

end

/-- The height of what a snippet says. -/
def TopLevel.height : TopLevel α → Nat
  | .importing _ _ => 1
  | .stmt s => s.height

theorem Expr.height_pos (e : Expr α) : 0 < e.height := by
  cases e <;> simp [Expr.height, Dotted.parts]

theorem Expr.height_retag (t : α) (e : Expr α) : (e.retag t).height = e.height := by
  cases e <;> rfl

theorem Expr.heights_le {es : List (Expr α)} {k : Nat} (h : ∀ e ∈ es, e.height ≤ k) :
    Expr.heights es ≤ k := by
  induction es with
  | nil => exact Nat.zero_le k
  | cons e es ih =>
      rw [List.forall_mem_cons] at h
      rw [Expr.heights]
      exact Nat.max_le.mpr ⟨h.1, ih h.2⟩

theorem Stmt.heights_le {ss : List (Stmt α)} {k : Nat} (h : ∀ s ∈ ss, s.height ≤ k) :
    Stmt.heights ss ≤ k := by
  induction ss with
  | nil => exact Nat.zero_le k
  | cons s ss ih =>
      rw [List.forall_mem_cons] at h
      rw [Stmt.heights]
      exact Nat.max_le.mpr ⟨h.1, ih h.2⟩

namespace Reader

open Source

/-! ## What a number of layers allows -/

/-- The height of an expression that can be read in `n` layers. -/
def exprLimit : Nat → Nat
  | 0 => 0
  | 1 => 1
  | n + 2 => exprLimit (n + 1) + 7 * (n + 1) + 2

/-- The height of a statement that can be read in `n` layers. -/
def stmtLimit : Nat → Nat
  | 0 => 0
  | n + 1 => exprLimit n + 2

theorem exprLimit_succ_ge (n : Nat) : exprLimit n + 7 * n + 1 ≤ exprLimit (n + 1) := by
  cases n with
  | zero => decide
  | succ n =>
      rw [exprLimit]
      omega

/-- The limit grows with the square of the number of layers. -/
theorem two_mul_exprLimit_succ (n : Nat) : 2 * exprLimit (n + 1) = n * (7 * n + 11) + 2 := by
  induction n with
  | zero => rfl
  | succ n ih =>
      rw [exprLimit, Nat.mul_add, Nat.mul_add, ih]
      ring

theorem exprLimit_succ_of_pos {n : Nat} (hn : 0 < n) :
    exprLimit (n + 1) = exprLimit n + 7 * n + 2 := by
  cases n with
  | zero => exact absurd hn (Nat.lt_irrefl 0)
  | succ n => rfl

theorem stmtLimit_le (n : Nat) : stmtLimit n ≤ exprLimit n + 1 := by
  cases n with
  | zero => decide
  | succ n =>
      have := exprLimit_succ_ge n
      rw [stmtLimit]
      omega

/-- The readers of a layer yield no higher trees than `n` layers allow.  A chain and a member stand
on top of a tree that was read before. -/
structure Bounded (l : Layer) (n : Nat) : Prop where
  statement : Yields l.statement fun s => s.height ≤ stmtLimit n
  expr : Yields l.expr fun e => e.height ≤ exprLimit n
  branches : Yields l.branches fun r => r.1.height ≤ exprLimit n ∧ r.2.height ≤ exprLimit n
  operand : Yields l.operand fun e => e.height ≤ exprLimit n
  chain {rank : Nat} (hrank : rank < BinaryOp.ranks) (left : Expr Span) :
    Yields (l.chain rank left) fun e => e.height ≤ max left.height (exprLimit n) + n
  member (target : Expr Span) :
    Yields (l.member target) fun e => e.height ≤ max target.height (exprLimit n) + n

theorem bounded_closed : Bounded .closed 0 where
  statement := yields_fail
  expr := yields_fail
  branches := yields_fail
  operand := yields_fail
  chain _ _ := yields_fail
  member _ := yields_fail

section Layers

variable {inner : Layer} {m : Nat}

/-! ### Expressions -/

theorem Bounded.arguments (h : Bounded inner m) :
    Yields (arguments inner) fun es => Expr.heights es ≤ exprLimit m := by
  have htail : ∀ (n : Nat) (done : List (Expr Span)), (∀ e ∈ done, e.height ≤ exprLimit m) →
      Yields (argumentTail inner n done) fun es => ∀ e ∈ es, e.height ≤ exprLimit m := by
    intro n
    induction n with
    | zero => exact fun _ _ => yields_fail
    | succ n ih =>
        intro done hdone
        unfold argumentTail
        refine h.expr.bind fun e he => ?_
        have hmore : ∀ e' ∈ e :: done, e'.height ≤ exprLimit m :=
          List.forall_mem_cons.mpr ⟨he, hdone⟩
        refine .after fun closed => ?_
        split
        · exact .pure fun e' he' => hmore e' (List.mem_reverse.mp he')
        · exact .after fun _ => ih _ hmore
  unfold Reader.arguments
  refine .after fun _ => .after fun closed => ?_
  split
  · exact .pure (Nat.zero_le _)
  · exact .after fun n => (htail n [] (by simp)).mono fun _ => Expr.heights_le

theorem Bounded.construction (h : Bounded inner m) (start : Span) :
    Yields (construction inner start) fun e => e.height ≤ exprLimit m + 1 := by
  unfold Reader.construction
  refine .after fun _ => .after fun cls => h.arguments.bind fun args hargs => .after fun c => ?_
  exact .pure (Nat.succ_le_succ hargs)

theorem Bounded.named (h : Bounded inner m) :
    Yields (named inner) fun e => e.height ≤ exprLimit m + 1 := by
  unfold Reader.named
  refine .after fun i => .after fun called => ?_
  split
  · exact h.arguments.bind fun args hargs => .after fun c => .pure (Nat.succ_le_succ hargs)
  · exact .pure (Nat.le_add_left 1 _)

theorem Bounded.bracketed (h : Bounded inner m) (start : Span) :
    Yields (bracketed inner start) fun e => e.height ≤ exprLimit m + 1 := by
  unfold Reader.bracketed
  refine .after fun _ => h.expr.bind fun e he => .after fun stop => .pure ?_
  rw [Expr.height_retag]
  exact Nat.le_succ_of_le he

theorem Bounded.primary (h : Bounded inner m) :
    Yields (primary inner) fun e => e.height ≤ exprLimit m + 1 := by
  have hleaf : 1 ≤ exprLimit m + 1 := Nat.le_add_left 1 _
  unfold Reader.primary
  refine .after fun t => ?_
  split
  case h_1 => exact .after fun _ => .pure hleaf
  case h_2 => exact .after fun _ => .pure hleaf
  case h_3 => exact .after fun _ => .pure hleaf
  case h_4 => exact .after fun _ => .pure hleaf
  case h_5 => exact .after fun _ => .pure hleaf
  case h_6 => exact h.construction _
  case h_7 => exact yields_fail
  case h_8 => exact h.bracketed _
  case h_9 => exact yields_fail
  case h_10 => exact h.named
  case h_11 => exact yields_fail

/-- Counting turns a variable into a leaf. -/
theorem yields_counted (e : Expr Span) : Yields (counted e) fun e' => e'.height ≤ e.height := by
  unfold counted
  refine .after fun kind => ?_
  split
  · exact .after fun v => .after fun t => .pure e.height_pos
  · exact .after fun v => .after fun t => .pure e.height_pos
  · exact .pure (Nat.le_refl _)

theorem Bounded.suffixes (h : Bounded inner m) (e : Expr Span) :
    Yields (suffixes inner e) fun e' => e'.height ≤ max e.height (exprLimit m) + m := by
  unfold Reader.suffixes
  refine (yields_counted e).bind fun e₁ h₁ => (yields_counted e₁).bind fun e₂ h₂ => ?_
  refine .after fun dotted => ?_
  split
  · exact (h.member e₂).mono fun e' he' => by omega
  · exact .pure (by omega)

theorem Bounded.around_member (h : Bounded inner m) (target : Expr Span) :
    Yields (Reader.member inner target) fun e =>
      e.height ≤ max target.height (exprLimit (m + 1)) + (m + 1) := by
  have hgrow := exprLimit_succ_ge m
  -- Whatever is put on top of the target is one node, and the rest belongs to the next layer.
  have hon (e : Expr Span) (he : e.height ≤ max target.height (exprLimit m) + 1) :
      Yields (Reader.suffixes inner e) fun e' =>
        e'.height ≤ max target.height (exprLimit (m + 1)) + (m + 1) :=
    (h.suffixes e).mono fun e' he' => by omega
  unfold Reader.member
  refine .after fun name => .after fun called => ?_
  split
  · refine h.arguments.bind fun args hargs => .after fun c => hon _ ?_
    simp only [Expr.height]
    omega
  · refine hon _ ?_
    cases target with
    | name t path => simp [Expr.height, Dotted.parts, Dotted.snoc]
    | _ => simp only [Expr.height]; omega

theorem Bounded.unary (h : Bounded inner m) :
    Yields (unary inner) fun e => e.height ≤ exprLimit m + m + 1 := by
  unfold Reader.unary
  refine .after fun t => ?_
  split
  case h_1 =>
    refine .after fun _ => h.operand.bind fun e he => .pure ?_
    simp only [Expr.height]
    omega
  case h_2 =>
    refine .after fun _ => h.operand.bind fun e he => .pure ?_
    simp only [Expr.height]
    omega
  case h_3 => exact .after fun _ => h.operand.mono fun e he => by omega
  case h_4 =>
    refine h.primary.bind fun e he => (h.suffixes e).mono fun e' he' => ?_
    omega

/-- Each rank adds a chain of at most `m` operators. -/
theorem Bounded.binary (h : Bounded inner m) {ranks : Nat} (hranks : ranks ≤ BinaryOp.ranks) :
    Yields (binary inner ranks) fun e => e.height ≤ exprLimit m + (ranks + 1) * m + 1 := by
  induction ranks with
  | zero => simpa [Reader.binary] using h.unary
  | succ rank ih =>
      have hrow : (rank + 1 + 1) * m = (rank + 1) * m + m := Nat.succ_mul _ _
      unfold Reader.binary
      refine (ih (Nat.le_of_succ_le hranks)).bind fun left hleft => .after fun op => ?_
      split
      · refine (h.chain hranks left).mono fun e he => ?_
        omega
      · exact .pure (by omega)

theorem Bounded.around_chain (h : Bounded inner m) {rank : Nat} (hrank : rank < BinaryOp.ranks)
    (left : Expr Span) :
    Yields (Reader.chain inner rank left) fun e =>
      e.height ≤ max left.height (exprLimit (m + 1)) + (m + 1) := by
  have hgrow := exprLimit_succ_ge m
  have hranks : BinaryOp.ranks = 6 := rfl
  have hrow : (rank + 1) * m ≤ 6 * m := Nat.mul_le_mul_right m (by omega)
  unfold Reader.chain
  refine .after fun op => ?_
  split
  · exact .pure (by omega)
  · refine .after fun _ => (h.binary (Nat.le_of_lt hrank)).bind fun right hright => ?_
    refine .after fun more => ?_
    split
    · refine (h.chain hrank _).mono fun e he => ?_
      simp only [Expr.height] at he
      omega
    · refine .pure ?_
      simp only [Expr.height]
      omega

theorem Bounded.ternary (h : Bounded inner m) :
    Yields (ternary inner) fun e => e.height ≤ exprLimit (m + 1) := by
  have hgrow := exprLimit_succ_ge m
  unfold Reader.ternary
  refine (h.binary (Nat.le_refl _)).bind fun cond hcond => .after fun asked => ?_
  have hcond : cond.height ≤ exprLimit m + 7 * m + 1 := hcond
  split
  · refine h.branches.bind fun r hr => .pure ?_
    -- The branches have been read, so there is a layer to read them in.
    have hpos : 0 < m := by
      rcases Nat.eq_zero_or_pos m with rfl | hpos
      · exact absurd hr.1 (Nat.not_le.mpr r.1.height_pos)
      · exact hpos
    have hlimit := exprLimit_succ_of_pos hpos
    simp only [Expr.height]
    omega
  · exact .pure (by omega)

theorem Bounded.around_expr (h : Bounded inner m) :
    Yields (Reader.expr inner) fun e => e.height ≤ exprLimit (m + 1) := by
  have hgrow := exprLimit_succ_ge m
  unfold Reader.expr
  refine h.ternary.bind fun left hleft => .after fun kind => ?_
  split
  · exact .pure hleft
  · refine .after fun v => .after fun _ => h.expr.bind fun value hvalue => .pure ?_
    simp only [Expr.height]
    omega

theorem Bounded.around_branches (h : Bounded inner m) :
    Yields (Reader.branches inner) fun r =>
      r.1.height ≤ exprLimit (m + 1) ∧ r.2.height ≤ exprLimit (m + 1) := by
  unfold Reader.branches
  exact h.ternary.bind fun yes hyes => .after fun _ =>
    h.ternary.bind fun no hno => .pure ⟨hyes, hno⟩

/-! ### Statements -/

theorem Bounded.simple (h : Bounded inner m) :
    Yields (simple inner) fun s => s.height ≤ exprLimit m + 1 := by
  have hdeclaration : Yields (declaration inner) fun d =>
      Expr.optionHeight d.init ≤ exprLimit m := by
    unfold declaration
    refine .after fun path => .after fun name => .after fun assigned => ?_
    split
    · exact h.expr.bind fun e he => .pure he
    · split
      · exact yields_failAt
      · exact .pure (Nat.zero_le _)
  unfold Reader.simple
  refine .after fun c => ?_
  split
  · exact hdeclaration.bind fun d hd => .pure (Nat.succ_le_succ hd)
  · exact h.expr.bind fun e he => .pure (Nat.succ_le_succ he)

theorem Bounded.nested (h : Bounded inner m) :
    Yields (nested inner) fun s => s.height ≤ stmtLimit m := by
  unfold Reader.nested
  refine h.statement.bind fun s hs => ?_
  split
  any_goals exact .pure hs
  all_goals refine .after fun _ => ?_
  · exact .pure hs
  all_goals
    split
    · exact .pure hs
    · refine .after fun kind => ?_
      split
      · exact .pure hs
      · exact .pure hs
      · exact .pure hs
      · exact yields_fail

theorem Bounded.block (h : Bounded inner m) :
    Yields (block inner) fun s => s.height ≤ exprLimit m + 2 := by
  have htail : ∀ (n : Nat) (done : List (Stmt Span)), (∀ s ∈ done, s.height ≤ stmtLimit m) →
      Yields (blockTail inner n done) fun ss => ∀ s ∈ ss, s.height ≤ stmtLimit m := by
    intro n
    induction n with
    | zero => exact fun _ _ => yields_fail
    | succ n ih =>
        intro done hdone
        unfold blockTail
        refine .after fun kind => ?_
        split
        · exact .after fun _ => .pure fun s hs => hdone s (List.mem_reverse.mp hs)
        · exact yields_fail
        · exact h.nested.bind fun s hs => ih _ (List.forall_mem_cons.mpr ⟨hs, hdone⟩)
  have hlimit := stmtLimit_le m
  unfold Reader.block
  refine .after fun _ => .after fun n => (htail n [] (by simp)).bind fun body hbody => .pure ?_
  have := Stmt.heights_le hbody
  simp only [Stmt.height]
  omega

theorem Bounded.condition (h : Bounded inner m) :
    Yields (condition inner) fun e => e.height ≤ exprLimit m := by
  unfold Reader.condition
  exact .after fun _ => h.expr.bind fun e he => .after fun _ => .pure he

theorem Bounded.optional (h : Bounded inner m) (stop : Punct) :
    Yields (optional inner stop) fun e => Expr.optionHeight e ≤ exprLimit m := by
  unfold Reader.optional
  refine .after fun stopped => ?_
  split
  · exact .pure (Nat.zero_le _)
  · exact h.expr.bind fun e he => .pure he

theorem Bounded.choice (h : Bounded inner m) :
    Yields (choice inner) fun s => s.height ≤ exprLimit m + 2 := by
  have hlimit := stmtLimit_le m
  unfold Reader.choice
  refine .after fun _ => h.condition.bind fun cond hcond => h.nested.bind fun yes hyes => ?_
  refine .after fun kind => ?_
  split
  · refine .after fun _ => h.nested.bind fun no hno => .pure ?_
    simp only [Stmt.height]
    omega
  · refine .pure ?_
    simp only [Stmt.height]
    omega

theorem Bounded.whileLoop (h : Bounded inner m) :
    Yields (whileLoop inner) fun s => s.height ≤ exprLimit m + 2 := by
  have hlimit := stmtLimit_le m
  unfold Reader.whileLoop
  refine .after fun _ => h.condition.bind fun cond hcond => h.nested.bind fun body hbody => .pure ?_
  simp only [Stmt.height]
  omega

theorem Bounded.forLoop (h : Bounded inner m) :
    Yields (forLoop inner) fun s => s.height ≤ exprLimit m + 2 := by
  have hlimit := stmtLimit_le m
  unfold Reader.forLoop
  refine .after fun _ => .after fun _ => .after fun absent => ?_
  extract_lets rest
  have hrest (init : Option (Simple Span)) (hinit : init.elim 0 Simple.height ≤ exprLimit m + 1) :
      Yields (rest init) fun s => s.height ≤ exprLimit m + 2 := by
    refine .after fun _ => (h.optional _).bind fun cond hcond => .after fun _ => ?_
    refine (h.optional _).bind fun update hupdate => .after fun _ => ?_
    refine h.nested.bind fun body hbody => .pure ?_
    simp only [Stmt.height]
    omega
  split
  · exact hrest none (Nat.zero_le _)
  · exact (Yields.map (R := fun o => o.elim 0 Simple.height ≤ exprLimit m + 1) h.simple).bind hrest

theorem Bounded.around_statement (h : Bounded inner m) :
    Yields (Reader.statement inner) fun s => s.height ≤ stmtLimit (m + 1) := by
  have hleaf : 1 ≤ stmtLimit (m + 1) := by
    rw [stmtLimit]
    omega
  unfold Reader.statement
  refine .after fun t => ?_
  split
  case h_1 => exact h.block
  case h_2 => exact .pure hleaf
  case h_3 => exact h.choice
  case h_4 => exact h.whileLoop
  case h_5 => exact h.forLoop
  case h_6 => exact .after fun _ => .pure hleaf
  case h_7 => exact .after fun _ => .pure hleaf
  case h_8 => exact yields_fail
  case h_9 => exact h.simple.bind fun s hs => .pure (Nat.le_succ_of_le hs)

/-- What one more layer allows. -/
theorem Bounded.around (h : Bounded inner m) : Bounded (.around inner) (m + 1) where
  statement := h.around_statement
  expr := h.around_expr
  branches := h.around_branches
  operand := h.unary.mono fun e he => by
    have := exprLimit_succ_ge m
    omega
  chain hrank left := h.around_chain hrank left
  member target := h.around_member target

end Layers

/-- What a number of layers allows. -/
theorem bounded_layer (n : Nat) : Bounded (layer n) n := by
  induction n with
  | zero => exact bounded_closed
  | succ n ih => exact ih.around

-- Two layers can be filled up to the limit, with one node for each chain.
example :
    ((Source.tokenize "f(a).b*c+d<e==g&&h||i?j:k".toList).bind fun tokens =>
      ((layer 2).expr.run ⟨tokens, ⟨0, 0⟩⟩).map fun r => r.1.height) = .ok (exprLimit 2) := by
  decide +kernel

theorem yields_snippet : Yields snippet fun t => t.height ≤ stmtLimit maxNesting := by
  unfold snippet
  refine .after fun kind => ?_
  extract_lets rest
  have hrest (t : TopLevel Span) (ht : t.height ≤ stmtLimit maxNesting) :
      Yields (rest t) fun t => t.height ≤ stmtLimit maxNesting := by
    refine .after fun _ => .after fun kind => ?_
    split
    · exact .pure ht
    · exact yields_fail
  split
  · refine Yields.bind (P := fun t => t.height ≤ stmtLimit maxNesting) ?_ hrest
    exact .after fun _ => .after fun first => .after fun n => .after fun tail =>
      .pure (Nat.le_add_left 1 _)
  · exact ((bounded_layer maxNesting).statement.map).bind hrest

end Reader

/-- One in brackets plus one again and again, `n` times inside the brackets and as often behind. -/
def twoChains (n : Nat) : List Char :=
  let chain := (List.replicate n ['+', '1']).flatten
  ['(', '1'] ++ chain ++ [')'] ++ chain

theorem parse_twoChains :
    ∃ tokens t, Source.tokenize (twoChains 60) = .ok tokens ∧ parse tokens = .ok t ∧
      t.height = 122 := by
  have hheight : ((Source.tokenize (twoChains 60)).bind parse).map TopLevel.height = .ok 122 := by
    decide +kernel
  rcases htokens : Source.tokenize (twoChains 60) with f | tokens
  · rw [htokens] at hheight
    cases hheight
  · rw [htokens] at hheight
    change (parse tokens).map TopLevel.height = .ok 122 at hheight
    rcases hparse : parse tokens with f | t
    · rw [hparse] at hheight
      cases hheight
    · rw [hparse] at hheight
      exact ⟨tokens, t, rfl, hparse, Except.ok.inj hheight⟩

/-- **How high a tree can get.**  No tree that is read is higher than a hundred layers allow. -/
theorem parse_height_le {tokens : List Source.Token} {t : TopLevel Source.Span}
    (h : parse tokens = .ok t) : t.height ≤ 34156 := by
  have hlimit : Reader.stmtLimit Reader.maxNesting = 34156 := by
    have hsquare := Reader.two_mul_exprLimit_succ 98
    rw [Reader.maxNesting, show 100 = (98 + 1) + 1 from rfl, Reader.stmtLimit]
    omega
  rcases hrun : Reader.snippet ⟨tokens, ⟨0, 0⟩⟩ with f | ⟨t', c⟩
  · rw [parse, StateT.run, hrun] at h
    cases h
  · rw [parse, StateT.run, hrun] at h
    cases h
    rw [← hlimit]
    exact Reader.yields_snippet _ _ _ hrun

theorem parse_height_le_chains :
    ∃ tokens t, parse tokens = .ok t ∧ t.height = 122 ∧ t.height ≤ 34156 := by
  obtain ⟨tokens, t, -, hparse, hheight⟩ := parse_twoChains
  exact ⟨tokens, t, hparse, hheight, parse_height_le hparse⟩

/-- The number of layers is no limit for the height.  The chain in the brackets has left its layers
when the chain behind them enters its own. -/
theorem exists_parse_height_gt :
    ∃ tokens t, Source.tokenize (twoChains 60) = .ok tokens ∧ parse tokens = .ok t ∧
      Reader.maxNesting + 2 < t.height := by
  obtain ⟨tokens, t, htokens, hparse, hheight⟩ := parse_twoChains
  exact ⟨tokens, t, htokens, hparse, by rw [hheight]; decide⟩

end Syntax
end GuardedRepl
