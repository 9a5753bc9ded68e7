import GuardedRepl.Syntax.Operator

/-!
# Syntax trees

What a snippet says, before its names are looked up.  Every node carries a tag: the parser tags a
node with its span, and a tree of which only the shape counts is tagged with the unit.
-/

namespace GuardedRepl
namespace Syntax

/-- A name at one place. -/
structure Ident (α : Type) where
  name : String
  tag : α
deriving DecidableEq, Repr

/-- One name or more, joined by dots. -/
structure Dotted (α : Type) where
  first : Ident α
  rest : List (Ident α)
deriving DecidableEq, Repr

namespace Dotted

variable {α β : Type}

/-- The dotted name of a single name. -/
def single (i : Ident α) : Dotted α :=
  ⟨i, []⟩

/-- The parts of a dotted name. -/
def parts (d : Dotted α) : List (Ident α) :=
  d.first :: d.rest

/-- A dotted name with one more part. -/
def snoc (d : Dotted α) (i : Ident α) : Dotted α :=
  ⟨d.first, d.rest ++ [i]⟩

/-- Names with dots between them. -/
def join (parts : List (Ident α)) : String :=
  ".".intercalate (parts.map Ident.name)

/-- A dotted name as it is written. -/
def text (d : Dotted α) : String :=
  join d.parts

end Dotted

/-- An expression. -/
inductive Expr (α : Type) where
  | int (tag : α) (value : Int64)
  | str (tag : α) (value : String)
  | bool (tag : α) (value : Bool)
  | null (tag : α)
  /-- A variable, a static field, or a field of one of these. -/
  | name (tag : α) (path : Dotted α)
  | field (tag : α) (target : Expr α) (member : Ident α)
  | call (tag : α) (target : Expr α) (method : Ident α) (args : List (Expr α))
  /-- A call without a target. -/
  | bareCall (tag : α) (method : Ident α) (args : List (Expr α))
  | new (tag : α) (cls : Dotted α) (args : List (Expr α))
  | unary (tag : α) (op : UnaryOp) (operand : Expr α)
  | binary (tag : α) (op : BinaryOp) (left right : Expr α)
  | ternary (tag : α) (cond yes no : Expr α)
  /-- An assignment, which may first combine the variable with the value. -/
  | assign (tag : α) (target : Ident α) (op : Option ArithOp) (value : Expr α)
  /-- Counts a variable and yields the value from before. -/
  | step (tag : α) (target : Ident α) (op : StepOp)
deriving Repr, Inhabited

namespace Expr

variable {α : Type}

/-- The tag of the outermost node. -/
def tag : Expr α → α
  | int t _ => t
  | str t _ => t
  | bool t _ => t
  | null t => t
  | name t _ => t
  | field t _ _ => t
  | call t _ _ _ => t
  | bareCall t _ _ => t
  | new t _ _ => t
  | unary t _ _ => t
  | binary t _ _ _ => t
  | ternary t _ _ _ => t
  | assign t _ _ _ => t
  | step t _ _ => t

/-- The same expression with another tag on its outermost node. -/
def retag (t : α) : Expr α → Expr α
  | int _ n => int t n
  | str _ s => str t s
  | bool _ b => bool t b
  | null _ => null t
  | name _ p => name t p
  | field _ e m => field t e m
  | call _ e m as => call t e m as
  | bareCall _ m as => bareCall t m as
  | new _ c as => new t c as
  | unary _ op e => unary t op e
  | binary _ op l r => binary t op l r
  | ternary _ c y n => ternary t c y n
  | assign _ v op e => assign t v op e
  | step _ v op => step t v op

end Expr

/-- The primitive types. -/
inductive Primitive where
  | int
  | long
  | short
  | byte
  | char
  | boolean
deriving DecidableEq, Repr

namespace Primitive

/-- The name of a primitive type. -/
def name : Primitive → String
  | int => "int"
  | long => "long"
  | short => "short"
  | byte => "byte"
  | char => "char"
  | boolean => "boolean"

/-- All primitive types. -/
def all : List Primitive :=
  [int, long, short, byte, char, boolean]

/-- The primitive type of a name. -/
def ofName? (s : String) : Option Primitive :=
  all.find? fun p => p.name = s

end Primitive

/-- The type in a declaration. -/
inductive TypeName (α : Type) where
  /-- The type is that of the initial value. -/
  | inferred
  | primitive (p : Primitive)
  | cls (path : Dotted α)
deriving Repr

/-- The declaration of a variable. -/
structure Declaration (α : Type) where
  type : TypeName α
  name : Ident α
  init : Option (Expr α)
deriving Repr

/-- A statement without parts that are statements. -/
inductive Simple (α : Type) where
  | declare (d : Declaration α)
  | expr (e : Expr α)
deriving Repr

/-- A statement. -/
inductive Stmt (α : Type) where
  | simple (s : Simple α)
  | block (body : List (Stmt α))
  | ifThen (cond : Expr α) (yes : Stmt α)
  | ifElse (cond : Expr α) (yes no : Stmt α)
  | while (cond : Expr α) (body : Stmt α)
  | for (init : Option (Simple α)) (cond update : Option (Expr α)) (body : Stmt α)
  | break (tag : α)
  | continue (tag : α)
  | empty
deriving Repr, Inhabited

/-- What a snippet can be. -/
inductive TopLevel (α : Type) where
  /-- The import of a class, or of all classes of a package. -/
  | importing (path : Dotted α) (wildcard : Bool)
  | stmt (s : Stmt α)
deriving Repr, Inhabited

end Syntax
end GuardedRepl
