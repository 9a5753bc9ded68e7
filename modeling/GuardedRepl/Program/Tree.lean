import GuardedRepl.Library.Member
import GuardedRepl.Syntax.Tree

/-!
# Programs

What a snippet does, once its names have been looked up.  Every static member, constructor and
declared type is one that the library has; variables and instance methods are still named, since
they are found when the program runs.
-/

namespace GuardedRepl
namespace Program

open Library
open Syntax (ArithOp RelOp LogicOp UnaryOp StepOp Primitive)

/-- An expression. -/
inductive Expr where
  | int (value : Int64)
  | str (value : String)
  | bool (value : Bool)
  | null
  | var (name : String)
  | staticField (f : StaticField)
  | field (target : Expr) (name : String)
  | call (target : Expr) (method : String) (args : List Expr)
  | staticCall (m : StaticMethod) (args : List Expr)
  | construct (cls : HostClass) (args : List Expr)
  | unary (op : UnaryOp) (operand : Expr)
  | arith (op : ArithOp) (left right : Expr)
  | compare (op : RelOp) (left right : Expr)
  | logic (op : LogicOp) (left right : Expr)
  | ternary (cond yes no : Expr)
  | assign (name : String) (op : Option ArithOp) (value : Expr)
  | step (name : String) (op : StepOp)
deriving Repr, Inhabited

/-- The type that a variable is declared with. -/
inductive DeclaredType where
  | inferred
  | primitive (p : Primitive)
  | cls (c : HostClass)
deriving DecidableEq, Repr

/-- The name of a declared type. -/
def DeclaredType.label : DeclaredType → String
  | .inferred => "var"
  | .primitive p => p.name
  | .cls c => c.name

/-- The declaration of a variable. -/
structure Declaration where
  type : DeclaredType
  name : String
  init : Option Expr
deriving Repr

/-- A statement without parts that are statements. -/
inductive Simple where
  | declare (d : Declaration)
  | expr (e : Expr)
deriving Repr

/-- A statement. -/
inductive Stmt where
  | simple (s : Simple)
  | block (body : List Stmt)
  | ifThen (cond : Expr) (yes : Stmt)
  | ifElse (cond : Expr) (yes no : Stmt)
  | while (cond : Expr) (body : Stmt)
  | for (init : Option Simple) (cond update : Option Expr) (body : Stmt)
  | break
  | continue
  | empty
deriving Repr, Inhabited

/-- What a snippet can be. -/
inductive TopLevel where
  | importClass (c : HostClass)
  | importPackage (p : Package)
  | declare (d : Declaration)
  | expr (e : Expr)
  | stmt (s : Stmt)
deriving Repr

end Program
end GuardedRepl
