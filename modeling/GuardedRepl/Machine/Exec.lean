import GuardedRepl.Machine.Call

/-!
# Running programs

A program is run by recursion on its tree.  The host is asked whether to stop at every statement, at
every call and after every round of a loop, and it is asked for an access at every use of a class
and of one of its members, just before the use.
-/

namespace GuardedRepl
namespace Machine

open Program

mutual

/-- Evaluates an expression. -/
def eval : Expr → Run Value
  | .int n => return .int n
  | .str s => return .str s
  | .bool b => return .bool b
  | .null => return .null
  | .var name => Run.lookup name
  | .staticField f => do
    Run.check (.cls f.owner.name)
    return staticValue f
  | .field target name => do
    match ← eval target with
    | .null => Run.throw .nullValue
    | _ => Run.throw (.noSuchField name)
  | .call target method args => do
    Run.poll
    let v ← eval target
    callMethod v method (← evalAll args)
  | .staticCall m args => do
    Run.poll
    Run.check (.cls m.owner.name)
    Run.check (.method m.owner.name m.name)
    callStatic m (← evalAll args)
  | .construct cls args => do
    Run.poll
    Run.check (.cls cls.name)
    Run.check (.method cls.name "<init>")
    Run.lift (construct cls (← evalAll args))
  | .unary op e => do Run.lift ((← eval e).unary op)
  | .arith op l r => do
    let v ← eval l
    let w ← eval r
    Run.lift (v.arith op w)
  | .compare op l r => do
    let v ← eval l
    let w ← eval r
    return .bool (← Run.lift (v.compare op w))
  | .logic .and l r => do
    if ← Run.lift (← eval l).asBool then return .bool (← Run.lift (← eval r).asBool)
    else return .bool false
  | .logic .or l r => do
    if ← Run.lift (← eval l).asBool then return .bool true
    else return .bool (← Run.lift (← eval r).asBool)
  | .ternary c y n => do
    if ← Run.lift (← eval c).asBool then eval y else eval n
  | .assign name none e => do
    let v ← eval e
    Run.assign name v
    return v
  | .assign name (some op) e => do
    let w ← eval e
    let v ← Run.lift ((← Run.lookup name).arith op w)
    Run.assign name v
    return v
  | .step name op => do
    match ← Run.lookup name with
    | .int n =>
      Run.assign name (.int (n + op.delta))
      return .int n
    | _ => Run.throw (.notCountable name)

/-- Evaluates expressions in turn. -/
def evalAll : List Expr → Run (List Value)
  | [] => return []
  | e :: es => do
    let v ← eval e
    return v :: (← evalAll es)

end

/-- Evaluates a condition. -/
def evalBool (e : Expr) : Run Bool := do
  Run.lift (← eval e).asBool

/-- Evaluates a condition that may be missing. -/
def evalCondition : Option Expr → Run Bool
  | some e => evalBool e
  | none => return true

/-- Evaluates an expression that may be missing, for its effects. -/
def evalUpdate : Option Expr → Run Unit
  | some e => do
    let _ ← eval e
    return ()
  | none => return ()

/-- Asks for the class that a variable is declared with. -/
def checkType : DeclaredType → Run Unit
  | .cls c => Run.check (.cls c.name)
  | _ => return ()

/-- The value that a declared type makes of an initial value, if it accepts it. -/
def fitted (type : DeclaredType) (v : Value) : Except Exception Value :=
  if v = .void then .error .voidValue
  else if type.accepts v then .ok v
  else .error (.incompatible v type.label)

/-- The initial value of a declaration, before its type has been asked. -/
def evalInit (type : DeclaredType) : Option Expr → Run Value
  | some e => eval e
  | none => return type.default

/-- The value that a declared variable begins with. -/
def initialValue (d : Declaration) : Run Value := do
  checkType d.type
  let v ← evalInit d.type d.init
  Run.lift (fitted d.type v)

/-- Runs a simple statement. -/
def execSimple (s : Simple) : Run Unit := do
  Run.poll
  match s with
  | .declare d => Run.declareLocal d.name (← initialValue d)
  | .expr e => let _ ← eval e

/-- Runs the first part of the head of a loop, which may be missing. -/
def execInit : Option Simple → Run Unit
  | some s => execSimple s
  | none => return ()

/-- How a statement ends: the next one is to follow, or the loop around it is to be left or to go on
with its next round. -/
inductive Completion where
  | next
  | broke
  | continued
deriving DecidableEq, Repr

/-- A round of a loop, which tells whether another one is to follow. -/
def loopRound (cond : Run Bool) (body : Run Completion) (update : Run Unit) : Run Bool := do
  if ← cond then
    match ← Run.inBlock body with
    | .broke => return false
    | _ => do
      update
      Run.poll
      return true
  else return false

mutual

/-- Runs a statement. -/
def exec : Stmt → Run Completion
  | .simple s => do
    execSimple s
    return .next
  | .block body => do
    Run.poll
    Run.inBlock (execAll body)
  | .ifThen c yes => do
    Run.poll
    if ← evalBool c then Run.inBlock (exec yes) else return .next
  | .ifElse c yes no => do
    Run.poll
    if ← evalBool c then Run.inBlock (exec yes) else Run.inBlock (exec no)
  | .while c body => do
    Run.poll
    Run.repeated (loopRound (evalBool c) (exec body) (return ()))
    return .next
  | .for init c update body => do
    Run.poll
    Run.inBlock do
      execInit init
      Run.repeated (loopRound (evalCondition c) (exec body) (evalUpdate update))
    return .next
  | .break => do
    Run.poll
    return .broke
  | .continue => do
    Run.poll
    return .continued
  | .empty => do
    Run.poll
    return .next

/-- Runs statements in turn, until one of them breaks out. -/
def execAll : List Stmt → Run Completion
  | [] => return .next
  | s :: ss => do
    match ← exec s with
    | .next => execAll ss
    | c => return c

end

/-- What a snippet that ran to its end leaves: the value that is shown for it, and the snippet that
owned its variable before. -/
structure Finished where
  value : Option Value := none
  displaced : Option Snippet := none

/-- Runs a snippet. -/
def runTop (snippet : Snippet) : TopLevel → Run Finished
  | .importClass c => do
    Run.poll
    Run.poll
    Run.check (.package c.package.name)
    Run.check (.cls c.name)
    Run.modify fun s => { s with session := s.session.importClass c }
    return {}
  | .importPackage p => do
    Run.poll
    Run.poll
    Run.check (.package p.name)
    Run.modify fun s => { s with session := s.session.importPackage p }
    return {}
  | .declare d => do
    Run.poll
    let value ← initialValue d
    let displaced ← Run.gets fun s => (s.session.find? d.name).map Variable.owner
    Run.modify fun s => { s with session := s.session.declare ⟨d.name, d.type, value, snippet⟩ }
    return { value := some value, displaced }
  | .expr e => do
    Run.poll
    return { value := some (← eval e) }
  | .stmt s => do
    let _ ← exec s
    return {}

end Machine
end GuardedRepl
