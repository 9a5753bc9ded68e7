import GuardedRepl.Proofs.Syntax.Shape

/-!
# Printed expressions

An expression is printed as tokens.  A part stands in brackets where it holds together more loosely
than its position asks for, and nowhere else.

**Results.**
* `Expr.print`: the tokens of an expression.
* `Expr.Printable`: the expressions that can be read back.
* `Expr.begun_print`: the first token of an expression.
* `Expr.apart_print`: no two names stand side by side.
-/

namespace GuardedRepl
namespace Syntax

open Source

variable {α : Type}

/-! ## The printer -/

/-- How loosely an expression holds together.  Nothing holds tighter than dots and brackets do, then
come the operators in front of an operand, those between two operands by their rank, conditional
expressions and assignments. -/
def Expr.looseness : Expr α → Nat
  | .unary _ _ _ => 1
  | .binary _ op _ _ => 2 + op.rank
  | .ternary _ _ _ _ => 8
  | .assign _ _ _ _ => 9
  | _ => 0

theorem Expr.looseness_le (e : Expr α) : e.looseness ≤ 9 := by
  cases e with
  | binary _ op _ _ =>
      have hrank : op.rank < 6 := op.rank_lt_ranks
      rw [Expr.looseness]
      omega
  | _ => simp [Expr.looseness]

/-- Tokens in brackets. -/
def bracket (ks : List TokenKind) : List TokenKind :=
  .punct .openParen :: (ks ++ [.punct .closeParen])

theorem length_bracket (ks : List TokenKind) : (bracket ks).length = ks.length + 2 := by
  rw [bracket, List.length_cons, List.length_append, List.length_singleton]

/-- Tokens at a position that takes a part of some looseness: in brackets if theirs is greater. -/
def fit (position looseness : Nat) (ks : List TokenKind) : List TokenKind :=
  if looseness ≤ position then ks else bracket ks

/-- The token of a name. -/
def Ident.print (i : Ident α) : TokenKind :=
  .ofWord i.name

/-- The tokens of the parts of a dotted name after the first one. -/
def Dotted.printTail (parts : List (Ident α)) : List TokenKind :=
  parts.flatMap fun i => [.punct .dot, i.print]

/-- The tokens of a dotted name. -/
def Dotted.print (d : Dotted α) : List TokenKind :=
  d.first.print :: Dotted.printTail d.rest

/-- The written form of an assignment. -/
def assigning : Option ArithOp → Punct
  | none => .assign
  | some op => op.assigning

/-- The written form of counting. -/
def StepOp.punct : StepOp → Punct
  | .up => .increment
  | .down => .decrement

mutual

/-- The tokens of an expression. -/
@[simp] def Expr.print : Expr α → List TokenKind
  | .int _ n => [.int n]
  | .str _ s => [.str s]
  | .bool _ b => [.keyword (if b then .trueWord else .falseWord)]
  | .null _ => [.keyword .nullWord]
  | .name _ path => path.print
  | .field _ target m => fit 0 target.looseness target.print ++ [.punct .dot, m.print]
  | .call _ target m args =>
    fit 0 target.looseness target.print ++
      .punct .dot :: m.print :: bracket (Expr.listPrint args)
  | .bareCall _ m args => m.print :: bracket (Expr.listPrint args)
  | .new _ cls args => .keyword .newWord :: (cls.print ++ bracket (Expr.listPrint args))
  | .unary _ op operand => .punct op.punct :: fit 1 operand.looseness operand.print
  | .binary _ op left right =>
    fit (2 + op.rank) left.looseness left.print ++
      .punct op.punct :: fit (1 + op.rank) right.looseness right.print
  | .ternary _ cond yes no =>
    fit 7 cond.looseness cond.print ++ .punct .question ::
      (fit 8 yes.looseness yes.print ++ .punct .colon :: fit 8 no.looseness no.print)
  | .assign _ target op value =>
    target.print :: .punct (assigning op) :: value.print
  | .step _ target op => [target.print, .punct op.punct]

/-- The tokens of arguments, with commas between them. -/
@[simp] def Expr.listPrint : List (Expr α) → List TokenKind
  | [] => []
  | [e] => e.print
  | e :: e' :: es => e.print ++ .punct .comma :: Expr.listPrint (e' :: es)

end

/-! ## Expressions that can be read back -/

/-- The word is a name. -/
def Ident.IsFree (i : Ident α) : Prop :=
  Keyword.ofText? i.name = none

/-- The words are names. -/
def Dotted.IsFree (d : Dotted α) : Prop :=
  ∀ i ∈ d.parts, i.IsFree

/-- The expression is a dotted name. -/
def Expr.isName : Expr α → Bool
  | .name _ _ => true
  | _ => false

mutual

/-- No name is a reserved word and no literal is negative.  A name with a dot behind it is a longer
name and not a target. -/
@[simp] def Expr.Printable : Expr α → Prop
  | .int _ n => 0 ≤ n
  | .str _ _ => True
  | .bool _ _ => True
  | .null _ => True
  | .name _ path => path.IsFree
  | .field _ target m => target.Printable ∧ target.isName = false ∧ m.IsFree
  | .call _ target m args => target.Printable ∧ m.IsFree ∧ Expr.ListPrintable args
  | .bareCall _ m args => m.IsFree ∧ Expr.ListPrintable args
  | .new _ cls args => cls.IsFree ∧ Expr.ListPrintable args
  | .unary _ _ operand => operand.Printable
  | .binary _ _ left right => left.Printable ∧ right.Printable
  | .ternary _ cond yes no => cond.Printable ∧ yes.Printable ∧ no.Printable
  | .assign _ target _ value => target.IsFree ∧ value.Printable
  | .step _ target _ => target.IsFree

/-- All arguments can be read back. -/
@[simp] def Expr.ListPrintable : List (Expr α) → Prop
  | [] => True
  | e :: es => e.Printable ∧ Expr.ListPrintable es

end

theorem Ident.print_eq {i : Ident α} (h : i.IsFree) : i.print = .ident i.name := by
  rw [Ident.print, TokenKind.ofWord, h]

/-! ## The first token -/

/-- The token can begin an expression. -/
def begins : TokenKind → Bool
  | .int _ => true
  | .str _ => true
  | .ident _ => true
  | .keyword k => k = .trueWord || k = .falseWord || k = .nullWord || k = .newWord
  | .punct p => p = .openParen || p = .minus || p = .bang
  | .endOfSource => false

/-- The kind of the first of some tokens, behind which the source ends. -/
def front (ks : List TokenKind) : TokenKind :=
  ks.headD .endOfSource

/-- The tokens begin like an expression. -/
def Begun (ks : List TokenKind) : Prop :=
  ∃ k more, ks = k :: more ∧ begins k = true

/-- What begins like an expression does not begin with anything else. -/
theorem Begun.front_ne {ks : List TokenKind} (h : Begun ks) {k : TokenKind}
    (hk : begins k = false) : front ks ≠ k := by
  obtain ⟨k', more, rfl, hk'⟩ := h
  rintro rfl
  exact Bool.false_ne_true (hk.symm.trans hk')

theorem Begun.append {ks : List TokenKind} (h : Begun ks) (rest : List TokenKind) :
    Begun (ks ++ rest) := by
  obtain ⟨k, more, rfl, hk⟩ := h
  exact ⟨k, more ++ rest, rfl, hk⟩

theorem Begun.fit {ks : List TokenKind} (h : Begun ks) (position looseness : Nat) :
    Begun (fit position looseness ks) := by
  unfold Syntax.fit
  split_ifs
  · exact h
  · exact ⟨_, _, rfl, rfl⟩

theorem begun_ident {i : Ident α} (h : i.IsFree) (rest : List TokenKind) :
    Begun (i.print :: rest) :=
  ⟨_, _, rfl, by rw [Ident.print_eq h]; rfl⟩

/-- An expression begins with the first token of its leftmost part. -/
theorem Expr.begun_print : ∀ e : Expr α, e.Printable → Begun e.print
  | .int _ _, _ => ⟨_, _, rfl, rfl⟩
  | .str _ _, _ => ⟨_, _, rfl, rfl⟩
  | .bool _ b, _ => ⟨_, _, rfl, by cases b <;> rfl⟩
  | .null _, _ => ⟨_, _, rfl, rfl⟩
  | .name _ path, h => begun_ident (h path.first List.mem_cons_self) _
  | .field _ target _, h => ((begun_print target h.1).fit _ _).append _
  | .call _ target _ _, h => ((begun_print target h.1).fit _ _).append _
  | .bareCall _ _ _, h => begun_ident h.1 _
  | .new _ _ _, _ => ⟨_, _, rfl, rfl⟩
  | .unary _ op _, _ => ⟨_, _, rfl, by cases op <;> rfl⟩
  | .binary _ _ left _, h => ((begun_print left h.1).fit _ _).append _
  | .ternary _ cond _ _, h => ((begun_print cond h.1).fit _ _).append _
  | .assign _ _ _ _, h => begun_ident h.1 _
  | .step _ _ _, h => begun_ident h _

/-! ## Names -/

/-- The token is a name. -/
def isIdent : TokenKind → Bool
  | .ident _ => true
  | _ => false

/-- No two names stand side by side. -/
def Apart (ks : List TokenKind) : Prop :=
  ks.IsChain fun k k' => (isIdent k && isIdent k') = false

theorem apart_singleton (k : TokenKind) : Apart [k] :=
  .singleton k

theorem Apart.cons {ks : List TokenKind} {k : TokenKind} (h : Apart ks)
    (hk : isIdent k = false) : Apart (k :: ks) :=
  List.isChain_cons.mpr ⟨fun _ _ => by rw [hk, Bool.false_and], h⟩

/-- Something that is no name keeps names apart. -/
theorem Apart.append_cons {ks rest : List TokenKind} {k : TokenKind} (h : Apart ks)
    (hk : isIdent k = false) (hrest : Apart rest) : Apart (ks ++ k :: rest) := by
  refine List.IsChain.append h (hrest.cons hk) fun k' _ k'' hk'' => ?_
  rw [Option.mem_def, List.head?_cons, Option.some.injEq] at hk''
  rw [← hk'', hk, Bool.and_false]

theorem Apart.bracket {ks : List TokenKind} (h : Apart ks) : Apart (bracket ks) :=
  Apart.cons (h.append_cons rfl .nil) rfl

theorem Apart.fit {ks : List TokenKind} (h : Apart ks) (position looseness : Nat) :
    Apart (fit position looseness ks) := by
  unfold Syntax.fit
  split_ifs
  · exact h
  · exact h.bracket

theorem apart_dotted (k : TokenKind) (parts : List (Ident α)) :
    Apart (k :: Dotted.printTail parts) := by
  induction parts generalizing k with
  | nil => exact apart_singleton k
  | cons i parts ih => exact Apart.append_cons (apart_singleton k) rfl (ih i.print)

mutual

/-- The parts of an expression are joined by operators and brackets. -/
theorem Expr.apart_print : ∀ e : Expr α, Apart e.print
  | .int _ _ => apart_singleton _
  | .str _ _ => apart_singleton _
  | .bool _ _ => apart_singleton _
  | .null _ => apart_singleton _
  | .name _ path => apart_dotted path.first.print path.rest
  | .field _ target m => .append_cons ((apart_print target).fit _ _) rfl (apart_singleton m.print)
  | .call _ target m args =>
      .append_cons ((apart_print target).fit _ _) rfl
        (.append_cons (apart_singleton m.print) rfl
          (.append_cons (apart_listPrint args) rfl .nil))
  | .bareCall _ m args =>
      .append_cons (apart_singleton m.print) rfl (.append_cons (apart_listPrint args) rfl .nil)
  | .new _ cls args =>
      .cons (.append_cons (apart_dotted cls.first.print cls.rest) rfl
        (.append_cons (apart_listPrint args) rfl .nil)) rfl
  | .unary _ _ operand => .cons ((apart_print operand).fit _ _) rfl
  | .binary _ _ left right =>
      .append_cons ((apart_print left).fit _ _) rfl ((apart_print right).fit _ _)
  | .ternary _ cond yes no =>
      .append_cons ((apart_print cond).fit _ _) rfl
        (.append_cons ((apart_print yes).fit _ _) rfl ((apart_print no).fit _ _))
  | .assign _ target _ value =>
      .append_cons (apart_singleton target.print) rfl (apart_print value)
  | .step _ target _ => .append_cons (apart_singleton target.print) rfl .nil

theorem Expr.apart_listPrint : ∀ es : List (Expr α), Apart (Expr.listPrint es)
  | [] => .nil
  | [e] => apart_print e
  | e :: e' :: es => .append_cons (apart_print e) rfl (apart_listPrint (e' :: es))

end

end Syntax
end GuardedRepl
