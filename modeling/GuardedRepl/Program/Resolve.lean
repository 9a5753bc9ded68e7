import GuardedRepl.Access
import GuardedRepl.Program.Finding
import GuardedRepl.Program.Tree

/-!
# Looking up names

A snippet becomes a program by the look-up of its names among the variables of the session and of
the snippet itself, the imports and the classes of the library.  Whether the snippet may use what is
found is not asked here.
-/

namespace GuardedRepl
namespace Program

open Library
open Source (Span)
open Syntax (Ident Dotted)

/-- The names that a session offers to a snippet. -/
structure Names where
  vars : List String
  imports : List HostClass
  packages : List Package

/-- The place of a part of a snippet: the names of the session, the names that the snippet has
declared around it, and whether a loop is around it. -/
structure Env where
  session : Names
  locals : List String := []
  inLoop : Bool := false

/-- The stretch of source that a dotted name takes up. -/
def pathSpan (path : Dotted Span) : Span :=
  path.first.tag.through (path.rest.getLast?.getD path.first).tag

namespace Env

/-- Whether a name is that of a variable. -/
def isVariable (env : Env) (name : String) : Bool :=
  env.locals.contains name || env.session.vars.contains name

/-- Whether the simple name of a class stands for it. -/
def isVisible (env : Env) (c : HostClass) : Bool :=
  env.session.imports.contains c || c.package = .lang || env.session.packages.contains c.package

/-- The class that a simple name stands for. -/
def classOf? (env : Env) (simpleName : String) : Option HostClass :=
  HostClass.all.find? fun c => c.simpleName = simpleName && env.isVisible c

/-- The class that the first parts of a dotted name stand for, and the number of these parts. -/
def classAt? (env : Env) (path : Dotted Span) : Option (HostClass × Nat) :=
  match env.classOf? path.first.name with
  | some c => some (c, 1)
  | none =>
    let names := path.parts.map Ident.name
    (HostClass.all.find? fun c => c.segments.isPrefixOf names).map fun c => (c, c.segments.length)

/-- The class that a whole dotted name stands for. -/
def wholeClass? (env : Env) (path : Dotted Span) : Option HostClass :=
  match env.classAt? path with
  | some (c, used) => if used = path.parts.length then some c else none
  | none => none

/-- The class that a call has for its target, if that is no object. -/
def staticTarget? (env : Env) : Syntax.Expr Span → Option HostClass
  | .name _ path => if env.isVariable path.first.name then none else env.wholeClass? path
  | _ => none

/-- The place behind a declaration. -/
def declaring (env : Env) (name : String) : Env :=
  { env with locals := name :: env.locals }

/-- The place inside the body of a loop. -/
def looping (env : Env) : Env :=
  { env with inLoop := true }

/-- Looks up a class that a dotted name must stand for. -/
def findClass (env : Env) (path : Dotted Span) : Checked HostClass :=
  match env.wholeClass? path with
  | some c => pure c
  | none => .reject (pathSpan path) (.unknownClass path.text)

/-- Looks up the class of a construction. -/
def findConstructor (env : Env) (path : Dotted Span) : Checked HostClass :=
  match env.wholeClass? path with
  | some c =>
    if c.isConstructible then pure c
    else .reject (pathSpan path) (.notConstructible c.simpleName)
  | none => .reject (pathSpan path) (.unknownClass path.text)

/-- Looks up a variable to assign to. -/
def findVariable (env : Env) (i : Ident Span) : Checked String :=
  if env.isVariable i.name then pure i.name
  else .reject i.tag (.unknownVariable i.name)

/-- The fields that dotted names pick from an expression. -/
def fieldsOf (e : Expr) (members : List (Ident Span)) : Expr :=
  members.foldl (fun e m => .field e m.name) e

/-- Looks up a dotted name that stands for a value: a variable or a static field, and fields of
it. -/
def findName (env : Env) (tag : Span) (path : Dotted Span) : Checked Expr :=
  if env.isVariable path.first.name then pure (fieldsOf (.var path.first.name) path.rest)
  else
    match env.classAt? path with
    | none => .reject path.first.tag (.unknownVariable path.first.name)
    | some (c, used) =>
      match path.parts.drop used with
      | [] => .reject tag (.unknownVariable c.simpleName)
      | m :: members =>
        match StaticField.find? c m.name with
        | some f => pure (fieldsOf (.staticField f) members)
        | none => .reject m.tag (.unknownField m.name c.simpleName)

end Env

/-- The program of an operator with its operands. -/
def binary : Syntax.BinaryOp → Expr → Expr → Expr
  | .arith op => .arith op
  | .rel op => .compare op
  | .logic op => .logic op

mutual

/-- Looks up the names of an expression. -/
def resolveExpr (env : Env) : Syntax.Expr Span → Checked Expr
  | .int _ n => pure (.int n)
  | .str _ s => pure (.str s)
  | .bool _ b => pure (.bool b)
  | .null _ => pure .null
  | .name tag path => env.findName tag path
  | .field _ target m => (Expr.field · m.name) <$> resolveExpr env target
  | .bareCall _ m _ => .reject m.tag (.unknownMethod m.name)
  | .call _ target m args =>
    match env.staticTarget? target with
    | none =>
      (fun args target => Expr.call target m.name args)
        <$> resolveExprs env args <*> resolveExpr env target
    | some c =>
      (fun args f => Expr.staticCall f args) <$> resolveExprs env args <*>
        match StaticMethod.find? c m.name with
        | some f => pure f
        | none => .reject m.tag (.unknownStaticMethod m.name c.simpleName)
  | .new _ path args =>
    (fun args c => Expr.construct c args) <$> resolveExprs env args <*> env.findConstructor path
  | .unary _ op e => Expr.unary op <$> resolveExpr env e
  | .binary _ op l r => binary op <$> resolveExpr env l <*> resolveExpr env r
  | .ternary _ c y n =>
    Expr.ternary <$> resolveExpr env c <*> resolveExpr env y <*> resolveExpr env n
  | .assign _ v op e => (Expr.assign · op) <$> env.findVariable v <*> resolveExpr env e
  | .step _ v op => (Expr.step · op) <$> env.findVariable v

/-- Looks up the names of expressions in turn. -/
def resolveExprs (env : Env) : List (Syntax.Expr Span) → Checked (List Expr)
  | [] => pure []
  | e :: es => List.cons <$> resolveExpr env e <*> resolveExprs env es

end

/-- Looks up the names of an expression that may be missing. -/
def resolveOptional (env : Env) : Option (Syntax.Expr Span) → Checked (Option Expr)
  | none => pure none
  | some e => some <$> resolveExpr env e

/-- Looks up the type of a declaration. -/
def resolveType (env : Env) : Syntax.TypeName Span → Checked DeclaredType
  | .inferred => pure .inferred
  | .primitive p => pure (.primitive p)
  | .cls path => DeclaredType.cls <$> env.findClass path

/-- Takes a name for a new variable of the snippet. -/
def freshName (env : Env) (i : Ident Span) : Checked String :=
  if env.locals.contains i.name then .reject i.tag (.redefinition i.name) else pure i.name

/-- Looks up the names of a declaration. -/
def resolveDeclaration (env : Env) (d : Syntax.Declaration Span) : Checked Declaration :=
  (fun type init name => ⟨type, name, init⟩)
    <$> resolveType env d.type <*> resolveOptional env d.init <*> freshName env d.name

/-- Looks up the names of a simple statement. -/
def resolveSimple (env : Env) : Syntax.Simple Span → Checked Simple
  | .declare d => Simple.declare <$> resolveDeclaration env d
  | .expr e => Simple.expr <$> resolveExpr env e

namespace Env

/-- The place behind a simple statement. -/
def afterSimple (env : Env) : Syntax.Simple Span → Env
  | .declare d => env.declaring d.name.name
  | .expr _ => env

/-- The place behind the first part of the head of a loop. -/
def afterInit (env : Env) : Option (Syntax.Simple Span) → Env
  | some s => env.afterSimple s
  | none => env

/-- The place behind a statement. -/
def after (env : Env) : Syntax.Stmt Span → Env
  | .simple s => env.afterSimple s
  | _ => env

end Env

mutual

/-- Looks up the names of a statement. -/
def resolveStmt (env : Env) : Syntax.Stmt Span → Checked Stmt
  | .simple s => Stmt.simple <$> resolveSimple env s
  | .block body => Stmt.block <$> resolveStmts env body
  | .ifThen c yes => Stmt.ifThen <$> resolveExpr env c <*> resolveStmt env yes
  | .ifElse c yes no =>
    Stmt.ifElse <$> resolveExpr env c <*> resolveStmt env yes <*> resolveStmt env no
  | .while c body => Stmt.while <$> resolveExpr env c <*> resolveStmt env.looping body
  | .for init c update body =>
    let inner := env.afterInit init
    Stmt.for
      <$> (match init with
        | none => pure none
        | some s => some <$> resolveSimple env s)
      <*> resolveOptional inner c <*> resolveOptional inner update
      <*> resolveStmt inner.looping body
  | .break tag => if env.inLoop then pure .break else .reject tag .strayBreak
  | .continue tag => if env.inLoop then pure .continue else .reject tag .strayContinue
  | .empty => pure .empty

/-- Looks up the names of statements, each of which sees what the ones before it declare. -/
def resolveStmts (env : Env) : List (Syntax.Stmt Span) → Checked (List Stmt)
  | [] => pure []
  | s :: ss => List.cons <$> resolveStmt env s <*> resolveStmts (env.after s) ss

end

/-- Looks up an import. -/
def resolveImport (names : Names) (path : Dotted Span) (wildcard : Bool) : Checked TopLevel :=
  let span := pathSpan path
  let name := path.text
  if wildcard then
    match Package.ofName? name with
    | some p => pure (.importPackage p)
    | none => .reject span (.unknownPackage name)
  else
    match HostClass.ofName? name with
    | some c =>
      if names.imports.contains c then .warn span (.duplicateImport name) (.importClass c)
      else pure (.importClass c)
    | none =>
      let package := packageOf name
      match Package.ofName? package with
      | some _ => .reject span (.unknownImport (simpleName name) package)
      | none => .reject span (.unknownPackage package)

/-- Looks up the names of a snippet. -/
def resolve (names : Names) : Syntax.TopLevel Span → Checked TopLevel
  | .importing path wildcard => resolveImport names path wildcard
  | .stmt (.simple (.declare d)) => TopLevel.declare <$> resolveDeclaration ⟨names, [], false⟩ d
  | .stmt (.simple (.expr e)) => TopLevel.expr <$> resolveExpr ⟨names, [], false⟩ e
  | .stmt s => TopLevel.stmt <$> resolveStmt ⟨names, [], false⟩ s

end Program
end GuardedRepl
