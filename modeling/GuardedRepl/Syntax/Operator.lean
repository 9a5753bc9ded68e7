import GuardedRepl.Source.Token

/-!
# Operators

The operators of the snippet language, how they are written, and how tightly they bind.
-/

namespace GuardedRepl
namespace Syntax

/-- The operators that compute with integers.  The sum also joins strings. -/
inductive ArithOp where
  | add
  | sub
  | mul
  | div
  | rem
deriving DecidableEq, Repr

/-- The operators that compare. -/
inductive RelOp where
  | eq
  | ne
  | lt
  | le
  | gt
  | ge
deriving DecidableEq, Repr

/-- The operators whose right operand may go unused. -/
inductive LogicOp where
  | and
  | or
deriving DecidableEq, Repr

/-- The operators with two operands. -/
inductive BinaryOp where
  | arith (op : ArithOp)
  | rel (op : RelOp)
  | logic (op : LogicOp)
deriving DecidableEq, Repr

/-- The operators in front of one operand. -/
inductive UnaryOp where
  | neg
  | not
deriving DecidableEq, Repr

/-- The operators that count a variable up or down. -/
inductive StepOp where
  | up
  | down
deriving DecidableEq, Repr

/-- The written form of an arithmetic operator. -/
def ArithOp.punct : ArithOp → Source.Punct
  | .add => .plus
  | .sub => .minus
  | .mul => .times
  | .div => .div
  | .rem => .rem

/-- The written form of an arithmetic operator that also assigns. -/
def ArithOp.assigning : ArithOp → Source.Punct
  | .add => .plusAssign
  | .sub => .minusAssign
  | .mul => .timesAssign
  | .div => .divAssign
  | .rem => .remAssign

/-- The written form of a comparison. -/
def RelOp.punct : RelOp → Source.Punct
  | .eq => .equal
  | .ne => .notEqual
  | .lt => .less
  | .le => .lessEqual
  | .gt => .greater
  | .ge => .greaterEqual

/-- The written form of a logical operator. -/
def LogicOp.punct : LogicOp → Source.Punct
  | .and => .andAnd
  | .or => .orOr

/-- The written form of an operator in front of its operand. -/
def UnaryOp.punct : UnaryOp → Source.Punct
  | .neg => .minus
  | .not => .bang

/-- What counting adds to a variable. -/
def StepOp.delta : StepOp → Int64
  | .up => 1
  | .down => -1

namespace BinaryOp

/-- The written form of an operator. -/
def punct : BinaryOp → Source.Punct
  | .arith op => op.punct
  | .rel op => op.punct
  | .logic op => op.punct

/-- The operator of a written form. -/
def ofPunct? : Source.Punct → Option BinaryOp
  | .plus => some (.arith .add)
  | .minus => some (.arith .sub)
  | .times => some (.arith .mul)
  | .div => some (.arith .div)
  | .rem => some (.arith .rem)
  | .equal => some (.rel .eq)
  | .notEqual => some (.rel .ne)
  | .less => some (.rel .lt)
  | .lessEqual => some (.rel .le)
  | .greater => some (.rel .gt)
  | .greaterEqual => some (.rel .ge)
  | .andAnd => some (.logic .and)
  | .orOr => some (.logic .or)
  | _ => none

/-- How loosely an operator binds: the number of ranks that bind more tightly. -/
def rank : BinaryOp → Nat
  | .arith .mul => 0
  | .arith .div => 0
  | .arith .rem => 0
  | .arith .add => 1
  | .arith .sub => 1
  | .rel .lt => 2
  | .rel .le => 2
  | .rel .gt => 2
  | .rel .ge => 2
  | .rel .eq => 3
  | .rel .ne => 3
  | .logic .and => 4
  | .logic .or => 5

/-- The number of ranks. -/
def ranks : Nat := 6

@[simp] theorem ofPunct?_punct (op : BinaryOp) : ofPunct? op.punct = some op := by
  cases op with
  | arith op => cases op <;> rfl
  | rel op => cases op <;> rfl
  | logic op => cases op <;> rfl

theorem rank_lt_ranks (op : BinaryOp) : op.rank < ranks := by
  cases op with
  | arith op => cases op <;> decide
  | rel op => cases op <;> decide
  | logic op => cases op <;> decide

end BinaryOp

end Syntax
end GuardedRepl
