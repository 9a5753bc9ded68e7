import GuardedRepl.Program.Tree
import GuardedRepl.Value.Basic

/-!
# Declared types and values

Which values a variable of a declared type can begin with, and its value if it is declared without
one.
-/

namespace GuardedRepl
namespace Program
namespace DeclaredType

open Syntax (Primitive)

/-- The value of a variable that is declared without one. -/
def default : DeclaredType → Value
  | .primitive .boolean => .bool false
  | .primitive .char => .str "\x00"
  | .primitive _ => .int 0
  | .inferred => .null
  | .cls _ => .null

/-- Whether a declared type accepts a value. -/
def accepts : DeclaredType → Value → Bool
  | .inferred, _ => true
  | .primitive p, .int _ => p ≠ .boolean && p ≠ .char
  | .primitive p, .bool _ => p = .boolean
  | .primitive p, .str s => p = .char && s.length = 1
  | .primitive _, _ => false
  | .cls _, .null => true
  | .cls c, v => v.cls? = some c

end DeclaredType
end Program
end GuardedRepl
