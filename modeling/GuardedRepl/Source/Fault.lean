import GuardedRepl.Source.Span
import GuardedRepl.Source.Token

/-!
# Faults of a source

Why a text is no snippet.  The first group of causes is found while the text is cut into tokens, the
second one while the tokens are put together.
-/

namespace GuardedRepl
namespace Source

/-- A cause for which a text is no snippet. -/
inductive Cause where
  | unclosedComment
  | unclosedString
  | unclosedCharacter
  | illegalEscape
  | numberTooLarge
  | illegalCharacter (c : Char)
  | expected (p : Punct)
  | identifierExpected
  | illegalStart
  | endReached
  | tooDeep
  | lonelyElse
  /-- A variable whose type is to be inferred has no initial value. -/
  | nothingToInfer
  /-- A value stands where only a variable can be assigned. -/
  | notVariable
  /-- A dotted name stands where only a variable can be assigned. -/
  | notAssignable
deriving DecidableEq, Repr

/-- The message of a cause. -/
def Cause.message : Cause → String
  | .unclosedComment => "unclosed comment"
  | .unclosedString => "unclosed string literal"
  | .unclosedCharacter => "unclosed character literal"
  | .illegalEscape => "illegal escape character"
  | .numberTooLarge => "integer number too large"
  | .illegalCharacter c => "illegal character: '" ++ c.toString ++ "'"
  | .expected p => "'" ++ p.text ++ "' expected"
  | .identifierExpected => "<identifier> expected"
  | .illegalStart => "illegal start of expression"
  | .endReached => "reached end of input while parsing"
  | .tooDeep => "code too deeply nested"
  | .lonelyElse => "'else' without 'if'"
  | .nothingToInfer => "cannot infer type for local variable without initializer"
  | .notVariable => "unexpected type: required variable, found value"
  | .notAssignable => "cannot assign a value to this target"

/-- A cause and the place it was found at. -/
structure Fault where
  span : Span
  cause : Cause
deriving DecidableEq, Repr

/-- The same fault in a text that stands `offset` bytes further on. -/
def Fault.shift (offset : Nat) (f : Fault) : Fault :=
  { f with span := f.span.shift offset }

end Source
end GuardedRepl
