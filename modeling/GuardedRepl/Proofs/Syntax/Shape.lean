import GuardedRepl.Syntax.Tree
import Mathlib.Tactic

/-!
# Shapes of trees

The shape of a tree is the tree without its tags.  Two trees that are read from the same words have
one shape, wherever the words stand.

**Results.**
* `TopLevel.shape`: what a snippet says, without the places where it says it.
* `Expr.listShape_eq_map`, `Stmt.listShape_eq_map`: the shapes of lists.
-/

namespace GuardedRepl
namespace Syntax

variable {α : Type}

/-- A name without its tag. -/
def Ident.shape (i : Ident α) : Ident Unit :=
  ⟨i.name, ()⟩

/-- A dotted name without tags. -/
def Dotted.shape (d : Dotted α) : Dotted Unit :=
  ⟨d.first.shape, d.rest.map Ident.shape⟩

mutual

/-- An expression without tags. -/
@[simp] def Expr.shape : Expr α → Expr Unit
  | .int _ n => .int () n
  | .str _ s => .str () s
  | .bool _ b => .bool () b
  | .null _ => .null ()
  | .name _ path => .name () path.shape
  | .field _ target m => .field () target.shape m.shape
  | .call _ target m args => .call () target.shape m.shape (Expr.listShape args)
  | .bareCall _ m args => .bareCall () m.shape (Expr.listShape args)
  | .new _ cls args => .new () cls.shape (Expr.listShape args)
  | .unary _ op operand => .unary () op operand.shape
  | .binary _ op left right => .binary () op left.shape right.shape
  | .ternary _ cond yes no => .ternary () cond.shape yes.shape no.shape
  | .assign _ target op value => .assign () target.shape op value.shape
  | .step _ target op => .step () target.shape op

/-- Expressions without tags. -/
@[simp] def Expr.listShape : List (Expr α) → List (Expr Unit)
  | [] => []
  | e :: es => e.shape :: Expr.listShape es

end

/-- A type without tags. -/
def TypeName.shape : TypeName α → TypeName Unit
  | .inferred => .inferred
  | .primitive p => .primitive p
  | .cls path => .cls path.shape

/-- A declaration without tags. -/
def Declaration.shape (d : Declaration α) : Declaration Unit :=
  ⟨d.type.shape, d.name.shape, d.init.map Expr.shape⟩

/-- A simple statement without tags. -/
def Simple.shape : Simple α → Simple Unit
  | .declare d => .declare d.shape
  | .expr e => .expr e.shape

mutual

/-- A statement without tags. -/
@[simp] def Stmt.shape : Stmt α → Stmt Unit
  | .simple s => .simple s.shape
  | .block body => .block (Stmt.listShape body)
  | .ifThen cond yes => .ifThen cond.shape yes.shape
  | .ifElse cond yes no => .ifElse cond.shape yes.shape no.shape
  | .while cond body => .while cond.shape body.shape
  | .for init cond update body =>
    .for (init.map Simple.shape) (cond.map Expr.shape) (update.map Expr.shape) body.shape
  | .break _ => .break ()
  | .continue _ => .continue ()
  | .empty => .empty

/-- Statements without tags. -/
@[simp] def Stmt.listShape : List (Stmt α) → List (Stmt Unit)
  | [] => []
  | s :: ss => s.shape :: Stmt.listShape ss

end

/-- A snippet without tags. -/
def TopLevel.shape : TopLevel α → TopLevel Unit
  | .importing path wildcard => .importing path.shape wildcard
  | .stmt s => .stmt s.shape

theorem Expr.listShape_eq_map (es : List (Expr α)) : Expr.listShape es = es.map Expr.shape := by
  induction es with
  | nil => rfl
  | cons e es ih => rw [Expr.listShape, ih, List.map_cons]

theorem Stmt.listShape_eq_map (ss : List (Stmt α)) : Stmt.listShape ss = ss.map Stmt.shape := by
  induction ss with
  | nil => rfl
  | cons s ss ih => rw [Stmt.listShape, ih, List.map_cons]

theorem Expr.shape_retag (t : α) (e : Expr α) : (e.retag t).shape = e.shape := by
  cases e <;> rfl

/-- Two expressions have one shape. -/
abbrev Expr.Alike (e e' : Expr α) : Prop :=
  e.shape = e'.shape

/-- Two statements have one shape. -/
abbrev Stmt.Alike (s s' : Stmt α) : Prop :=
  s.shape = s'.shape

/-- Whether the last part of a statement is an empty statement. -/
def Stmt.endsEmpty : Stmt α → Bool
  | .empty => true
  | .ifThen _ yes => yes.endsEmpty
  | .ifElse _ _ no => no.endsEmpty
  | .while _ body => body.endsEmpty
  | .for _ _ _ body => body.endsEmpty
  | _ => false

/-- Whether a snippet ends with an empty statement. -/
def TopLevel.endsEmpty : TopLevel α → Bool
  | .stmt s => s.endsEmpty
  | .importing _ _ => false

end Syntax
end GuardedRepl
