import GuardedRepl.Source.Fault
import GuardedRepl.Syntax.Tree

/-!
# Reading snippets

A snippet is read from its tokens by recursive descent.  How deeply a snippet may be nested is
bounded: every statement, every expression in brackets, every operand after an operator and every
member after a dot is read in a layer of its own, and there are a hundred layers.  A layer is the
collection of the readers that may be entered from the layer around it, so the readers themselves
call no reader of their own layer and each layer is built from the one inside it.
-/

namespace GuardedRepl
namespace Syntax

open Source

/-- The tokens ahead, and the span of the token that was read last. -/
structure Cursor where
  ahead : List Token
  behind : Span

/-- A reader of tokens. -/
abbrev Reader := StateT Cursor (Except Fault)

namespace Reader

variable {α : Type}

/-- The token ahead; behind the last token stands the end of the source. -/
def next : Reader Token := do
  let c ← get
  return c.ahead.headD ⟨.endOfSource, c.behind⟩

/-- What the token ahead is. -/
def peek : Reader TokenKind :=
  return (← next).kind

/-- Whether the token ahead is this operator. -/
def sees (p : Punct) : Reader Bool :=
  return (← peek) = .punct p

/-- Reads the token ahead. -/
def advance : Reader Token := do
  let t ← next
  set (⟨(← get).ahead.drop 1, t.span⟩ : Cursor)
  return t

/-- Refuses the source at a place. -/
def failAt (s : Span) (cause : Cause) : Reader α :=
  throw ⟨s, cause⟩

/-- Refuses the source at the token ahead. -/
def fail (cause : Cause) : Reader α := do
  failAt (← next).span cause

/-- Reads this operator if it is the token ahead. -/
def eat (p : Punct) : Reader Bool := do
  if ← sees p then
    let _ ← advance
    return true
  else return false

/-- Reads this operator. -/
def expect (p : Punct) : Reader Span := do
  if ← sees p then return (← advance).span
  else fail (.expected p)

/-- Reads a name. -/
def ident : Reader (Ident Span) := do
  let t ← next
  match t.kind with
  | .ident name =>
    let _ ← advance
    return ⟨name, t.span⟩
  | _ => fail .identifierExpected

/-- The number of tokens ahead, which bounds the number of times that a reader of at least one token
can be used. -/
def remaining : Reader Nat :=
  return (← get).ahead.length

/-- Reads the parts of a dotted name after the first one.  With `star`, a final asterisk may stand
for a last part.  Up to `n` parts are read. -/
def dottedTail (star : Bool) : Nat → List (Ident Span) → Reader (List (Ident Span) × Bool)
  | 0, done => return (done.reverse, false)
  | n + 1, done => do
    if ← eat .dot then
      if star && (← sees .times) then
        let _ ← advance
        return (done.reverse, true)
      dottedTail star n ((← ident) :: done)
    else return (done.reverse, false)

/-- Reads a dotted name. -/
def dotted : Reader (Dotted Span) := do
  let first ← ident
  let (rest, _) ← dottedTail false (← remaining) []
  return ⟨first, rest⟩

/-- Reads an import. -/
def importing : Reader (TopLevel Span) := do
  let _ ← advance
  let first ← ident
  let (rest, wildcard) ← dottedTail true (← remaining) []
  return .importing ⟨first, rest⟩ wildcard

/-- The readers that lie one layer further in. -/
structure Layer where
  statement : Reader (Stmt Span)
  expr : Reader (Expr Span)
  /-- The two branches of a conditional expression, after the question mark. -/
  branches : Reader (Expr Span × Expr Span)
  /-- The operand of an operator in front of it. -/
  operand : Reader (Expr Span)
  /-- An operator of a rank with its right operand, and more of them, after the left operand. -/
  chain (rank : Nat) (left : Expr Span) : Reader (Expr Span)
  /-- A member after a dot, and what follows it. -/
  member (target : Expr Span) : Reader (Expr Span)

/-- The layer that can no longer be entered. -/
def Layer.closed : Layer where
  statement := fail .tooDeep
  expr := fail .tooDeep
  branches := fail .tooDeep
  operand := fail .tooDeep
  chain _ _ := fail .tooDeep
  member _ := fail .tooDeep

/-! ## Expressions -/

/-- The variable that an expression can be assigned to. -/
def assignable : Expr Span → Reader (Ident Span)
  | .name t path =>
    match path.rest with
    | [] => return path.first
    | _ => failAt t .notAssignable
  | e => failAt e.tag .notVariable

/-- Reads arguments after the first bracket, up to `n` of them. -/
def argumentTail (inner : Layer) : Nat → List (Expr Span) → Reader (List (Expr Span))
  | 0, _ => fail .endReached
  | n + 1, done => do
    let e ← inner.expr
    if ← eat .closeParen then return (e :: done).reverse
    let _ ← expect .comma
    argumentTail inner n (e :: done)

/-- Reads arguments in brackets. -/
def arguments (inner : Layer) : Reader (List (Expr Span)) := do
  let _ ← expect .openParen
  if ← eat .closeParen then return []
  argumentTail inner (← remaining) []

/-- Reads a construction of an object, which begins at `start`. -/
def construction (inner : Layer) (start : Span) : Reader (Expr Span) := do
  let _ ← advance
  let cls ← dotted
  let args ← arguments inner
  return .new (start.through (← get).behind) cls args

/-- Reads a name or a call without a target. -/
def named (inner : Layer) : Reader (Expr Span) := do
  let i ← ident
  if ← sees .openParen then
    let args ← arguments inner
    return .bareCall (i.tag.through (← get).behind) i args
  else return .name i.tag (.single i)

/-- Reads an expression in brackets, which begins at `start`. -/
def bracketed (inner : Layer) (start : Span) : Reader (Expr Span) := do
  let _ ← advance
  let e ← inner.expr
  let stop ← expect .closeParen
  return e.retag (start.through stop)

/-- Reads an expression that no operator takes apart. -/
def primary (inner : Layer) : Reader (Expr Span) := do
  let t ← next
  match t.kind with
  | .int n =>
    let _ ← advance
    return .int t.span n
  | .str s =>
    let _ ← advance
    return .str t.span s
  | .keyword .trueWord =>
    let _ ← advance
    return .bool t.span true
  | .keyword .falseWord =>
    let _ ← advance
    return .bool t.span false
  | .keyword .nullWord =>
    let _ ← advance
    return .null t.span
  | .keyword .newWord => construction inner t.span
  | .keyword _ => fail .illegalStart
  | .punct .openParen => bracketed inner t.span
  | .punct _ => fail .illegalStart
  | .ident _ => named inner
  | .endOfSource => fail .endReached

/-- Reads one counting operator after `e` if there is one. -/
def counted (e : Expr Span) : Reader (Expr Span) := do
  let op : Option StepOp :=
    match ← peek with
    | .punct .increment => some .up
    | .punct .decrement => some .down
    | _ => none
  match op with
  | none => return e
  | some op =>
    let v ← assignable e
    let t ← advance
    return .step (e.tag.through t.span) v op

/-- Reads what follows `e`: counting, of which a second one finds no variable, and a member. -/
def suffixes (inner : Layer) (e : Expr Span) : Reader (Expr Span) := do
  let e ← counted e
  let e ← counted e
  if ← eat .dot then inner.member e else return e

/-- Reads a member of `target` after the dot, and what follows it. -/
def member (inner : Layer) (target : Expr Span) : Reader (Expr Span) := do
  let m ← ident
  if ← sees .openParen then
    let args ← arguments inner
    suffixes inner (.call (target.tag.through (← get).behind) target m args)
  else
    let t := target.tag.through m.tag
    suffixes inner (match target with
      | .name _ path => .name t (path.snoc m)
      | e => .field t e m)

/-- Reads an expression with operators in front of it. -/
def unary (inner : Layer) : Reader (Expr Span) := do
  let t ← next
  match t.kind with
  | .punct .minus =>
    let _ ← advance
    let e ← inner.operand
    return .unary (t.span.through e.tag) .neg e
  | .punct .bang =>
    let _ ← advance
    let e ← inner.operand
    return .unary (t.span.through e.tag) .not e
  | .punct .plus =>
    let _ ← advance
    inner.operand
  | _ => suffixes inner (← primary inner)

/-- The operator ahead, if it has this rank. -/
def operator? (rank : Nat) : Reader (Option BinaryOp) :=
  return match ← peek with
    | .punct p => (BinaryOp.ofPunct? p).filter fun op => op.rank = rank
    | _ => none

/-- Reads an expression in which only operators of a rank below `ranks` stand outside brackets. -/
def binary (inner : Layer) : (ranks : Nat) → Reader (Expr Span)
  | 0 => unary inner
  | rank + 1 => do
    let left ← binary inner rank
    match ← operator? rank with
    | some _ => inner.chain rank left
    | none => return left

/-- Reads an operator of a rank with its right operand, and more of them. -/
def chain (inner : Layer) (rank : Nat) (left : Expr Span) : Reader (Expr Span) := do
  match ← operator? rank with
  | none => return left
  | some op =>
    let _ ← advance
    let right ← binary inner rank
    let e := .binary (left.tag.through right.tag) op left right
    match ← operator? rank with
    | some _ => inner.chain rank e
    | none => return e

/-- Reads a conditional expression. -/
def ternary (inner : Layer) : Reader (Expr Span) := do
  let cond ← binary inner BinaryOp.ranks
  if ← eat .question then
    let (yes, no) ← inner.branches
    return .ternary (cond.tag.through no.tag) cond yes no
  else return cond

/-- Reads the two branches of a conditional expression. -/
def branches (inner : Layer) : Reader (Expr Span × Expr Span) := do
  let yes ← ternary inner
  let _ ← expect .colon
  let no ← ternary inner
  return (yes, no)

/-- The assignment that an operator stands for: none, a plain one, or one that also computes. -/
def assignment? : TokenKind → Option (Option ArithOp)
  | .punct .assign => some none
  | .punct .plusAssign => some (some .add)
  | .punct .minusAssign => some (some .sub)
  | .punct .timesAssign => some (some .mul)
  | .punct .divAssign => some (some .div)
  | .punct .remAssign => some (some .rem)
  | _ => none

/-- Reads an expression. -/
def expr (inner : Layer) : Reader (Expr Span) := do
  let left ← ternary inner
  match assignment? (← peek) with
  | none => return left
  | some op =>
    let v ← assignable left
    let _ ← advance
    let value ← inner.expr
    return .assign (left.tag.through value.tag) v op value

/-! ## Statements -/

/-- Whether tokens go on like a declaration after the first part of its type. -/
def declaresAfterName : List Token → Bool
  | ⟨.punct .dot, _⟩ :: ⟨.ident _, _⟩ :: rest => declaresAfterName rest
  | [⟨.ident _, _⟩] => true
  | ⟨.ident _, _⟩ :: t :: _ =>
    t.kind = .punct .assign || t.kind = .punct .semicolon || t.kind = .endOfSource
  | _ => false

/-- Whether tokens begin a declaration: a type, a name, and then an equals sign, a semicolon or the
end of the source. -/
def declares : List Token → Bool
  | ⟨.ident _, _⟩ :: rest => declaresAfterName rest
  | _ => false

/-- The type that a dotted name stands for. -/
def typeName (path : Dotted Span) : TypeName Span :=
  match path.rest with
  | [] =>
    if path.first.name = "var" then .inferred
    else
      match Primitive.ofName? path.first.name with
      | some p => .primitive p
      | none => .cls path
  | _ => .cls path

/-- Reads a declaration. -/
def declaration (inner : Layer) : Reader (Declaration Span) := do
  let type := typeName (← dotted)
  let name ← ident
  if ← eat .assign then return ⟨type, name, some (← inner.expr)⟩
  match type with
  | .inferred => failAt name.tag .nothingToInfer
  | _ => return ⟨type, name, none⟩

/-- Reads a declaration or an expression. -/
def simple (inner : Layer) : Reader (Simple Span) := do
  if declares (← get).ahead then return .declare (← declaration inner)
  else return .expr (← inner.expr)

/-- Reads a statement inside another one, with the semicolon after it.  A statement that ends with a
brace needs none, and the last statement before a brace, an `else` or the end can do without. -/
def nested (inner : Layer) : Reader (Stmt Span) := do
  let s ← inner.statement
  match s with
  | .block _ | .ifThen .. | .ifElse .. | .while .. | .for .. => return s
  | .empty =>
    let _ ← expect .semicolon
    return s
  | .simple _ | .break _ | .continue _ =>
    if ← eat .semicolon then return s
    match ← peek with
    | .endOfSource | .punct .closeBrace | .keyword .elseWord => return s
    | _ => fail (.expected .semicolon)

/-- Reads the statements of a block up to its closing brace, up to `n` of them. -/
def blockTail (inner : Layer) : Nat → List (Stmt Span) → Reader (List (Stmt Span))
  | 0, _ => fail .endReached
  | n + 1, done => do
    match ← peek with
    | .punct .closeBrace =>
      let _ ← advance
      return done.reverse
    | .endOfSource => fail .endReached
    | _ => blockTail inner n ((← nested inner) :: done)

/-- Reads a block. -/
def block (inner : Layer) : Reader (Stmt Span) := do
  let _ ← advance
  return .block (← blockTail inner (← remaining) [])

/-- Reads a condition in brackets. -/
def condition (inner : Layer) : Reader (Expr Span) := do
  let _ ← expect .openParen
  let cond ← inner.expr
  let _ ← expect .closeParen
  return cond

/-- Reads a choice. -/
def choice (inner : Layer) : Reader (Stmt Span) := do
  let _ ← advance
  let cond ← condition inner
  let yes ← nested inner
  if (← peek) = .keyword .elseWord then
    let _ ← advance
    return .ifElse cond yes (← nested inner)
  else return .ifThen cond yes

/-- Reads a loop with a condition. -/
def whileLoop (inner : Layer) : Reader (Stmt Span) := do
  let _ ← advance
  let cond ← condition inner
  return .while cond (← nested inner)

/-- Reads an expression unless this operator comes at once. -/
def optional (inner : Layer) (stop : Punct) : Reader (Option (Expr Span)) := do
  if ← sees stop then return none
  else return some (← inner.expr)

/-- Reads a loop with a head. -/
def forLoop (inner : Layer) : Reader (Stmt Span) := do
  let _ ← advance
  let _ ← expect .openParen
  let init ← if ← sees .semicolon then pure none else some <$> simple inner
  let _ ← expect .semicolon
  let cond ← optional inner .semicolon
  let _ ← expect .semicolon
  let update ← optional inner .closeParen
  let _ ← expect .closeParen
  return .for init cond update (← nested inner)

/-- Reads a statement without the semicolon after it. -/
def statement (inner : Layer) : Reader (Stmt Span) := do
  let t ← next
  match t.kind with
  | .punct .openBrace => block inner
  | .punct .semicolon => return .empty
  | .keyword .ifWord => choice inner
  | .keyword .whileWord => whileLoop inner
  | .keyword .forWord => forLoop inner
  | .keyword .breakWord =>
    let _ ← advance
    return .break t.span
  | .keyword .continueWord =>
    let _ ← advance
    return .continue t.span
  | .keyword .elseWord => fail .lonelyElse
  | _ => return .simple (← simple inner)

/-! ## Layers -/

/-- The layer around another one. -/
def Layer.around (inner : Layer) : Layer where
  statement := Reader.statement inner
  expr := Reader.expr inner
  branches := Reader.branches inner
  operand := Reader.unary inner
  chain := Reader.chain inner
  member := Reader.member inner

/-- The layer with `n` layers to enter, itself included. -/
def layer : Nat → Layer
  | 0 => .closed
  | n + 1 => .around (layer n)

/-- The number of layers that a snippet may have. -/
def maxNesting : Nat := 100

/-- Reads a snippet up to the end of the source. -/
def snippet : Reader (TopLevel Span) := do
  let s ← match ← peek with
    | .keyword .importWord => importing
    | _ => .stmt <$> (layer maxNesting).statement
  let _ ← eat .semicolon
  match ← peek with
  | .endOfSource => return s
  | _ => fail (.expected .semicolon)

end Reader

/-- The snippet that tokens make. -/
def parse (tokens : List Token) : Except Fault (TopLevel Span) :=
  (Reader.snippet.run ⟨tokens, ⟨0, 0⟩⟩).map Prod.fst

end Syntax
end GuardedRepl
