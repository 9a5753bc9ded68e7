import GuardedRepl.Value.Exception

/-!
# Operators on values

Integers are words of 64 bits: results wrap around, and quotients are cut off towards zero.  A sum
with a string joins texts, up to a limit.
-/

namespace GuardedRepl
namespace Value

open Syntax (ArithOp RelOp UnaryOp)

/-- The number of bytes that a string can have when it is joined, repeated or read. -/
def maxStringBytes : Nat := 1024 * 1024

/-- Joins two strings. -/
def concat (a b : String) : Except Exception Value :=
  if maxStringBytes < a.utf8ByteSize + b.utf8ByteSize then .error .outOfMemory
  else .ok (.str (a ++ b))

/-- Computes with two integers. -/
def arithInt (op : ArithOp) (a b : Int64) : Except Exception Int64 :=
  match op with
  | .add => .ok (a + b)
  | .sub => .ok (a - b)
  | .mul => .ok (a * b)
  | .div => if b = 0 then .error .divisionByZero else .ok (a / b)
  | .rem => if b = 0 then .error .divisionByZero else .ok (a % b)

/-- Computes with two values. -/
def arith (op : ArithOp) (v w : Value) : Except Exception Value :=
  match op, v, w with
  | .add, .str a, w => concat a w.text
  | .add, .void, .str _ => .error (.badOperands (.arith op) v w)
  | .add, v, .str b => concat v.text b
  | op, .int a, .int b => (arithInt op a b).map .int
  | op, v, w => .error (.badOperands (.arith op) v w)

/-- Compares two values. -/
def compare (op : RelOp) (v w : Value) : Except Exception Bool :=
  match op, v, w with
  | .eq, v, w => .ok (v.same w)
  | .ne, v, w => .ok (!v.same w)
  | .lt, .int a, .int b => .ok (a < b)
  | .le, .int a, .int b => .ok (a ≤ b)
  | .gt, .int a, .int b => .ok (b < a)
  | .ge, .int a, .int b => .ok (b ≤ a)
  | op, v, w => .error (.badOperands (.rel op) v w)

/-- Applies an operator in front of a value. -/
def unary (op : UnaryOp) (v : Value) : Except Exception Value :=
  match op, v with
  | .neg, .int n => .ok (.int (-n))
  | .not, .bool b => .ok (.bool !b)
  | op, v => .error (.badOperand op v)

/-- The truth value that a value is. -/
def asBool : Value → Except Exception Bool
  | .bool b => .ok b
  | v => .error (.incompatible v "boolean")

/-- The integer that a value is. -/
def asInt : Value → Except Exception Int64
  | .int n => .ok n
  | v => .error (.incompatible v "int")

/-- The string that a value is. -/
def asString : Value → Except Exception String
  | .str s => .ok s
  | .null => .error .nullValue
  | v => .error (.incompatible v "java.lang.String")

/-- The path that a value is. -/
def asPath : Value → Except Exception Files.Path
  | .path p => .ok p
  | .null => .error .nullValue
  | v => .error (.incompatible v "java.nio.file.Path")

/-- The value of smallest size with the sign of `b` that differs from `a` by a multiple of `b`. -/
def floorMod (a b : Int64) : Except Exception Int64 :=
  if b = 0 then .error .divisionByZero
  else
    let r := a % b
    .ok (if r ≠ 0 && (decide (r < 0) != decide (b < 0)) then r + b else r)

end Value
end GuardedRepl
