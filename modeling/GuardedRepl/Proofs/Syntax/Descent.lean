import GuardedRepl.Syntax.Parser

/-!
# Descent by positions

The grammar of snippets once more, read by a descent that moves a position along the tokens and
counts the layers it is in.  A layer is entered and left one by one, but the layers of a chain of
operators or members are left all at once behind its end.  The counter might run out of its range,
and that is not ruled out here.

Loops go round without a bound of their own, and each round is one more call.  A descent is given
how many calls deep it may go, and if it has to go deeper it has no outcome.  So a descent that goes
on forever is one that has no outcome for any number of calls.

**Results.**
* `enter`, `leave`: the counter, which remembers the highest number it has had.
* `statement`, `expr`, `binary`, `operation`, ...: the descent into a part of a snippet.
-/

namespace GuardedRepl
namespace Syntax

open Source

/-- Where a descent stands. -/
structure Place where
  /-- The number of tokens in front of it. -/
  position : Nat
  /-- The number of layers that it is in. -/
  depth : Nat
  /-- The highest number of layers that it has been in. -/
  deepest : Nat
deriving DecidableEq, Repr

/-- Why a descent ends without a result. -/
inductive Stop where
  | fault (f : Fault)
  /-- More layers should have been left than had been entered. -/
  | underflow
deriving DecidableEq, Repr

/-- A descent keeps its place when it stops. -/
abbrev Descent (α : Type) := ExceptT Stop (StateT Place Option) α

namespace Descent

variable {α : Type}

/-- Counts one more layer, of which there is a limited number. -/
def enter (here : Span) : Descent Unit := do
  let p ← get
  set { p with depth := p.depth + 1, deepest := max p.deepest (p.depth + 1) }
  if Reader.maxNesting < p.depth + 1 then throw (.fault ⟨here, .tooDeep⟩)

/-- Counts so many layers less. -/
def leave (levels : Nat) : Descent Unit := do
  let p ← get
  if p.depth < levels then throw .underflow
  set { p with depth := p.depth - levels }

/-- A descent that has to go deeper than it may has no outcome yet. -/
def unended : Descent α :=
  fun _ => none

/-- Refuses the source at a place. -/
def failAt (s : Span) (cause : Cause) : Descent α :=
  throw (.fault ⟨s, cause⟩)

/-- The member of a target, or the longer name. -/
def memberOf (target : Expr Span) (m : Ident Span) : Expr Span :=
  let t := target.tag.through m.tag
  match target with
  | .name _ path => .name t (path.snoc m)
  | e => .field t e m

/-- The operator of a rank that a token stands for. -/
def operatorOf? (rank : Nat) : TokenKind → Option BinaryOp
  | .punct p => (BinaryOp.ofPunct? p).filter fun op => op.rank = rank
  | _ => none

/-- The counting operator that a token stands for. -/
def stepOf? : TokenKind → Option StepOp
  | .punct .increment => some .up
  | .punct .decrement => some .down
  | _ => none

section Tokens

variable (tokens : List Token)

/-- The token at a position; behind the last token it is still the last one. -/
def tokenAt (position : Nat) : Option Token :=
  tokens[position]?.or tokens.getLast?

/-- What the token ahead is. -/
def peek : Descent TokenKind := do
  return ((tokenAt tokens (← get).position).map Token.kind).getD .endOfSource

/-- Where the token ahead stands. -/
def here : Descent Span := do
  return ((tokenAt tokens (← get).position).map Token.span).getD ⟨0, 0⟩

/-- Where the token behind stands, or the one ahead if there is none. -/
def behind : Descent Span := do
  match (← get).position with
  | 0 => here tokens
  | position + 1 =>
    match tokens[position]? with
    | some t => return t.span
    | none => here tokens

/-- Takes the token ahead, unless it is past the last one. -/
def advance : Descent Token := do
  let p ← get
  match tokens[p.position]? with
  | some t =>
    set { p with position := p.position + 1 }
    return t
  | none => return ⟨.endOfSource, ← here tokens⟩

/-- Whether the token ahead is this operator. -/
def sees (p : Punct) : Descent Bool :=
  return (← peek tokens) = .punct p

/-- Takes this operator if it is the token ahead.  The position is not checked. -/
def eat (p : Punct) : Descent Bool := do
  if ← sees tokens p then
    modify fun place => { place with position := place.position + 1 }
    return true
  else return false

/-- Refuses the source at the token ahead. -/
def fail (cause : Cause) : Descent α := do
  failAt (← here tokens) cause

/-- Takes this operator. -/
def expect (p : Punct) : Descent Span := do
  if ← sees tokens p then return (← advance tokens).span
  else fail tokens (.expected p)

/-- Takes a name. -/
def ident : Descent (Ident Span) := do
  match ← peek tokens with
  | .ident name => return ⟨name, (← advance tokens).span⟩
  | _ => fail tokens .identifierExpected

/-- Whether a declaration is ahead. -/
def declares : Descent Bool :=
  return Syntax.Reader.declares (tokens.drop (← get).position)

/-- The operator ahead, if it has this rank. -/
def operator? (rank : Nat) : Descent (Option BinaryOp) :=
  return operatorOf? rank (← peek tokens)

/-- The variable that an expression can be assigned to. -/
def assignable : Expr Span → Descent (Ident Span)
  | .name t path =>
    match path.rest with
    | [] => return path.first
    | _ => failAt t .notAssignable
  | e => failAt e.tag .notVariable

/-- The counting operator ahead. -/
def step? : Descent (Option StepOp) :=
  return stepOf? (← peek tokens)

/-! ## Names -/

/-- Takes the parts of a dotted name after the first one, and with `star` an asterisk at its end. -/
def path (star : Bool) (done : List (Ident Span)) : Nat → Descent (List (Ident Span) × Bool)
  | 0 => unended
  | calls + 1 => do
    if ← eat tokens .dot then
      if ← if star then eat tokens .times else pure false then
        return (done.reverse, true)
      else
        let i ← ident tokens
        path star (i :: done) calls
    else return (done.reverse, false)

/-- Takes a dotted name. -/
def dotted (calls : Nat) : Descent (Dotted Span) := do
  let first ← ident tokens
  let (rest, _) ← path tokens false [] calls
  return ⟨first, rest⟩

/-- Takes an import. -/
def importing (calls : Nat) : Descent (TopLevel Span) := do
  let _ ← advance tokens
  let first ← ident tokens
  let (rest, wildcard) ← path tokens true [] calls
  return .importing ⟨first, rest⟩ wildcard

/-! ## Expressions -/

mutual

/-- Takes an expression. -/
def expr : Nat → Descent (Expr Span)
  | 0 => unended
  | calls + 1 => do
    enter (← here tokens)
    let e ← assignment calls
    leave 1
    return e
termination_by structural calls => calls

/-- Takes an expression, in the layer that was entered for it. -/
def assignment : Nat → Descent (Expr Span)
  | 0 => unended
  | calls + 1 => do
    let left ← ternary calls
    match Reader.assignment? (← peek tokens) with
    | none => return left
    | some op =>
      let v ← assignable left
      let _ ← advance tokens
      let value ← expr calls
      return .assign (left.tag.through value.tag) v op value
termination_by structural calls => calls

/-- Takes a conditional expression. -/
def ternary : Nat → Descent (Expr Span)
  | 0 => unended
  | calls + 1 => do
    let cond ← binary BinaryOp.ranks calls
    if ← eat tokens .question then
      let (yes, no) ← branches calls
      return .ternary (cond.tag.through no.tag) cond yes no
    else return cond
termination_by structural calls => calls

/-- Takes the two branches of a conditional expression. -/
def branches : Nat → Descent (Expr Span × Expr Span)
  | 0 => unended
  | calls + 1 => do
    enter (← here tokens)
    let yes ← ternary calls
    let _ ← expect tokens .colon
    let no ← ternary calls
    leave 1
    return (yes, no)
termination_by structural calls => calls

/-- Takes an expression in which only operators of a rank below `ranks` stand outside brackets. -/
def binary (ranks : Nat) : Nat → Descent (Expr Span)
  | 0 => unended
  | calls + 1 => do
    match ranks with
    | 0 => unary calls
    | rank + 1 =>
      let left ← binary rank calls
      chain rank 0 left calls
termination_by structural calls => calls

/-- Takes operators of a rank with their right operands, while there are any.  The layers of the
chain are left at its end. -/
def chain (rank chained : Nat) (left : Expr Span) : Nat → Descent (Expr Span)
  | 0 => unended
  | calls + 1 => do
    match ← operator? tokens rank with
    | some op => link rank chained op left calls
    | none =>
      leave chained
      return left
termination_by structural calls => calls

/-- Takes one operator of a chain, and the rest of the chain. -/
def link (rank chained : Nat) (op : BinaryOp) (left : Expr Span) : Nat → Descent (Expr Span)
  | 0 => unended
  | calls + 1 => do
    enter (← here tokens)
    let _ ← advance tokens
    let right ← binary rank calls
    chain rank (chained + 1) (.binary (left.tag.through right.tag) op left right) calls
termination_by structural calls => calls

/-- Takes an expression with operators in front of it. -/
def unary : Nat → Descent (Expr Span)
  | 0 => unended
  | calls + 1 => do
    let start ← here tokens
    if ← eat tokens .minus then
      let e ← operand calls
      return .unary (start.through e.tag) .neg e
    else if ← eat tokens .bang then
      let e ← operand calls
      return .unary (start.through e.tag) .not e
    else if ← eat tokens .plus then operand calls
    else operation calls
termination_by structural calls => calls

/-- Takes the operand of an operator in front of it. -/
def operand : Nat → Descent (Expr Span)
  | 0 => unended
  | calls + 1 => do
    enter (← here tokens)
    let e ← unary calls
    leave 1
    return e
termination_by structural calls => calls

/-- Takes an expression with its members and counting operators. -/
def operation : Nat → Descent (Expr Span)
  | 0 => unended
  | calls + 1 => do
    let e ← primary calls
    suffixes 0 e calls
termination_by structural calls => calls

/-- Takes members and counting operators after `e`, while there are any.  The layers of the members
are left at the end. -/
def suffixes (chained : Nat) (e : Expr Span) : Nat → Descent (Expr Span)
  | 0 => unended
  | calls + 1 => do
    if ← eat tokens .dot then member chained e calls
    else
      match ← step? tokens with
      | some op =>
        let v ← assignable e
        let t ← advance tokens
        suffixes chained (.step (e.tag.through t.span) v op) calls
      | none =>
        leave chained
        return e
termination_by structural calls => calls

/-- Takes one member after its dot, and what follows it. -/
def member (chained : Nat) (target : Expr Span) : Nat → Descent (Expr Span)
  | 0 => unended
  | calls + 1 => do
    enter (← here tokens)
    let m ← ident tokens
    if ← sees tokens .openParen then
      let args ← arguments calls
      suffixes (chained + 1) (.call (target.tag.through (← behind tokens)) target m args) calls
    else
      suffixes (chained + 1) (memberOf target m) calls
termination_by structural calls => calls

/-- Takes an expression that no operator takes apart. -/
def primary : Nat → Descent (Expr Span)
  | 0 => unended
  | calls + 1 => do
    let start ← here tokens
    match ← peek tokens with
    | .int n =>
      let _ ← advance tokens
      return .int start n
    | .str s =>
      let _ ← advance tokens
      return .str start s
    | .keyword .trueWord =>
      let _ ← advance tokens
      return .bool start true
    | .keyword .falseWord =>
      let _ ← advance tokens
      return .bool start false
    | .keyword .nullWord =>
      let _ ← advance tokens
      return .null start
    | .keyword .newWord => construction start calls
    | .keyword _ => fail tokens .illegalStart
    | .punct .openParen => bracketed start calls
    | .punct _ => fail tokens .illegalStart
    | .ident _ => named calls
    | .endOfSource => fail tokens .endReached
termination_by structural calls => calls

/-- Takes the construction of an object. -/
def construction (start : Span) : Nat → Descent (Expr Span)
  | 0 => unended
  | calls + 1 => do
    let _ ← advance tokens
    let cls ← dotted tokens calls
    let args ← arguments calls
    return .new (start.through (← behind tokens)) cls args
termination_by structural calls => calls

/-- Takes an expression in brackets. -/
def bracketed (start : Span) : Nat → Descent (Expr Span)
  | 0 => unended
  | calls + 1 => do
    let _ ← advance tokens
    let e ← expr calls
    let stop ← expect tokens .closeParen
    return e.retag (start.through stop)
termination_by structural calls => calls

/-- Takes a name or a call without a target. -/
def named : Nat → Descent (Expr Span)
  | 0 => unended
  | calls + 1 => do
    let i ← ident tokens
    if ← sees tokens .openParen then
      let args ← arguments calls
      return .bareCall (i.tag.through (← behind tokens)) i args
    else return .name i.tag (.single i)
termination_by structural calls => calls

/-- Takes arguments in brackets. -/
def arguments : Nat → Descent (List (Expr Span))
  | 0 => unended
  | calls + 1 => do
    let _ ← expect tokens .openParen
    if ← eat tokens .closeParen then return []
    else argumentTail [] calls
termination_by structural calls => calls

/-- Takes arguments up to the closing bracket. -/
def argumentTail (done : List (Expr Span)) : Nat → Descent (List (Expr Span))
  | 0 => unended
  | calls + 1 => do
    let e ← expr calls
    if ← eat tokens .closeParen then return (e :: done).reverse
    else
      let _ ← expect tokens .comma
      argumentTail (e :: done) calls
termination_by structural calls => calls

end

/-! ## Statements -/

/-- Takes a condition in brackets. -/
def condition (calls : Nat) : Descent (Expr Span) := do
  let _ ← expect tokens .openParen
  let cond ← expr tokens calls
  let _ ← expect tokens .closeParen
  return cond

/-- Takes an expression unless this operator comes at once. -/
def optional (stop : Punct) (calls : Nat) : Descent (Option (Expr Span)) := do
  if ← sees tokens stop then return none
  else
    let e ← expr tokens calls
    return some e

/-- Takes a declaration. -/
def declaration (calls : Nat) : Descent (Declaration Span) := do
  let cls ← dotted tokens calls
  let name ← ident tokens
  if ← eat tokens .assign then
    let e ← expr tokens calls
    return ⟨Reader.typeName cls, name, some e⟩
  else
    match Reader.typeName cls with
    | .inferred => failAt name.tag .nothingToInfer
    | type => return ⟨type, name, none⟩

/-- Takes a declaration or an expression. -/
def simple (calls : Nat) : Descent (Simple Span) := do
  if ← declares tokens then
    let d ← declaration tokens calls
    return .declare d
  else
    let e ← expr tokens calls
    return .expr e

/-- Takes the first part of the head of a loop, if there is one. -/
def beginning (calls : Nat) : Descent (Option (Simple Span)) := do
  if ← sees tokens .semicolon then return none
  else
    let s ← simple tokens calls
    return some s

mutual

/-- Takes a statement without the semicolon after it. -/
def statement : Nat → Descent (Stmt Span)
  | 0 => unended
  | calls + 1 => do
    enter (← here tokens)
    let s ← plainStatement calls
    leave 1
    return s

/-- Takes a statement, in the layer that was entered for it. -/
def plainStatement : Nat → Descent (Stmt Span)
  | 0 => unended
  | calls + 1 => do
    match ← peek tokens with
    | .punct .openBrace => block calls
    | .punct .semicolon => return .empty
    | .keyword .ifWord => choice calls
    | .keyword .whileWord => whileLoop calls
    | .keyword .forWord => forLoop calls
    | .keyword .breakWord =>
      let t ← advance tokens
      return .break t.span
    | .keyword .continueWord =>
      let t ← advance tokens
      return .continue t.span
    | .keyword .elseWord => fail tokens .lonelyElse
    | _ =>
      let s ← simple tokens calls
      return .simple s

/-- Takes a statement inside another one, with what ends it. -/
def nested : Nat → Descent (Stmt Span)
  | 0 => unended
  | calls + 1 => do
    let s ← statement calls
    match s with
    | .block _ | .ifThen .. | .ifElse .. | .while .. | .for .. => return s
    | .empty =>
      let _ ← expect tokens .semicolon
      return s
    | .simple _ | .break _ | .continue _ =>
      if ← eat tokens .semicolon then return s
      else
        match ← peek tokens with
        | .endOfSource | .punct .closeBrace | .keyword .elseWord => return s
        | _ => fail tokens (.expected .semicolon)

/-- Takes the statements of a block up to its closing brace. -/
def blockTail (done : List (Stmt Span)) : Nat → Descent (List (Stmt Span))
  | 0 => unended
  | calls + 1 => do
    match ← peek tokens with
    | .punct .closeBrace =>
      let _ ← advance tokens
      return done.reverse
    | .endOfSource => fail tokens .endReached
    | _ =>
      let s ← nested calls
      blockTail (s :: done) calls

/-- Takes a block. -/
def block : Nat → Descent (Stmt Span)
  | 0 => unended
  | calls + 1 => do
    let _ ← expect tokens .openBrace
    let body ← blockTail [] calls
    return .block body

/-- Takes a choice. -/
def choice : Nat → Descent (Stmt Span)
  | 0 => unended
  | calls + 1 => do
    let _ ← advance tokens
    let cond ← condition tokens calls
    let yes ← nested calls
    if (← peek tokens) = .keyword .elseWord then
      let _ ← advance tokens
      let no ← nested calls
      return .ifElse cond yes no
    else return .ifThen cond yes

/-- Takes a loop with a condition. -/
def whileLoop : Nat → Descent (Stmt Span)
  | 0 => unended
  | calls + 1 => do
    let _ ← advance tokens
    let cond ← condition tokens calls
    let body ← nested calls
    return .while cond body

/-- Takes a loop with a head. -/
def forLoop : Nat → Descent (Stmt Span)
  | 0 => unended
  | calls + 1 => do
    let _ ← advance tokens
    let _ ← expect tokens .openParen
    let init ← beginning tokens calls
    let _ ← expect tokens .semicolon
    let cond ← optional tokens .semicolon calls
    let _ ← expect tokens .semicolon
    let update ← optional tokens .closeParen calls
    let _ ← expect tokens .closeParen
    let body ← nested calls
    return .for init cond update body

end

/-- Takes the end of the source after a snippet. -/
def ending (s : TopLevel Span) : Descent (TopLevel Span) := do
  let _ ← eat tokens .semicolon
  if (← peek tokens) = .endOfSource then return s
  else fail tokens (.expected .semicolon)

/-- Takes a snippet up to the end of the source. -/
def snippet (calls : Nat) : Descent (TopLevel Span) := do
  if (← peek tokens) = .keyword .importWord then
    let s ← importing tokens calls
    ending tokens s
  else
    let s ← statement tokens calls
    ending tokens (.stmt s)

end Tokens

end Descent
end Syntax
end GuardedRepl
