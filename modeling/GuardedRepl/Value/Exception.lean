import GuardedRepl.Access
import GuardedRepl.Library.Member
import GuardedRepl.Snippet
import GuardedRepl.Syntax.Operator
import GuardedRepl.Value.Basic

/-!
# Exceptions

The causes for which a snippet breaks off, and the exception that each of them is reported as.
-/

namespace GuardedRepl

/-- A cause for which a snippet breaks off. -/
inductive Exception where
  /-- The policy denies an access. -/
  | denied (d : Denial)
  | exitForbidden
  | execForbidden
  | divisionByZero
  /-- A method is called on a value without a class. -/
  | nullTarget (method : String)
  /-- Null stands where an object is needed. -/
  | nullValue
  | noSuchField (name : String)
  | noSuchMethod (cls : Library.HostClass) (name : String)
  /-- A value has the wrong type. -/
  | incompatible (v : Value) (wanted : String)
  | voidValue
  | badOperands (op : Syntax.BinaryOp) (left right : Value)
  | badOperand (op : Syntax.UnaryOp) (v : Value)
  | notCountable (name : String)
  /-- A static method has the wrong number of arguments. -/
  | badStaticCall (m : Library.StaticMethod) (args : Nat)
  | badCall (method : String) (args : Nat)
  | badConstruction (cls : Library.HostClass) (args : Nat)
  /-- A method of every object has the wrong number of arguments. -/
  | badObjectCall (method : String)
  | tooManyArguments
  | negativeTimeout
  | negativeCount (n : Int64)
  | outOfMemory
  | indexOutOfBounds (i : Int64) (length : Nat)
  | badRange (start stop : Int64) (length : Nat)
  | notNumber (s : String)
  | noSuchFile (p : Files.Path)
  /-- A file cannot be read. -/
  | unreadable (reason : String)
deriving DecidableEq, Repr

namespace Exception

/-- The class of refusals. -/
def security : String := "java.lang.SecurityException"

/-- The class of accesses to nothing. -/
def nullPointer : String := "java.lang.NullPointerException"

/-- The class of values of the wrong type. -/
def classCast : String := "java.lang.ClassCastException"

/-- The class of arguments that a method cannot take. -/
def illegalArgument : String := "java.lang.IllegalArgumentException"

/-- The class of positions outside a string. -/
def index : String := "java.lang.StringIndexOutOfBoundsException"

/-- How an exception is reported. -/
def thrown : Exception → Thrown
  | denied d => ⟨security, d.message⟩
  | exitForbidden => ⟨security, "System.exit is not permitted"⟩
  | execForbidden => ⟨security, "Runtime.exec is not permitted"⟩
  | divisionByZero => ⟨"java.lang.ArithmeticException", "/ by zero"⟩
  | nullTarget method =>
    ⟨nullPointer, "Cannot invoke \"" ++ method ++ "()\" because value is null"⟩
  | nullValue => ⟨nullPointer, ""⟩
  | noSuchField name => ⟨"java.lang.NoSuchFieldError", name⟩
  | noSuchMethod cls name => ⟨"java.lang.NoSuchMethodError", cls.simpleName ++ "." ++ name⟩
  | incompatible v wanted =>
    ⟨classCast, "incompatible types: " ++ v.className ++ " cannot be converted to " ++ wanted⟩
  | voidValue => ⟨classCast, "'void' type not allowed here"⟩
  | badOperands op l r =>
    ⟨classCast, "bad operand types for binary operator '" ++ op.punct.text ++ "': " ++
      l.className ++ " and " ++ r.className⟩
  | badOperand op v =>
    ⟨classCast, "bad operand type " ++ v.className ++ " for unary operator '" ++ op.punct.text ++
      "'"⟩
  | notCountable name => ⟨classCast, "bad operand type for " ++ name⟩
  | badStaticCall m args =>
    ⟨illegalArgument, "method " ++ m.name ++ " in class " ++ m.owner.simpleName ++
      " cannot be applied to " ++ toString args ++ " argument(s)"⟩
  | badCall method args =>
    ⟨illegalArgument, "method " ++ method ++ " cannot be applied to " ++ toString args ++
      " argument(s)"⟩
  | badConstruction cls args =>
    ⟨illegalArgument, "constructor " ++ cls.simpleName ++ " cannot be applied to " ++
      toString args ++ " argument(s)"⟩
  | badObjectCall method => ⟨illegalArgument, "bad arguments to " ++ method⟩
  | tooManyArguments => ⟨illegalArgument, "too many arguments"⟩
  | negativeTimeout => ⟨illegalArgument, "timeout value is negative"⟩
  | negativeCount n => ⟨illegalArgument, "count is negative: " ++ Value.intText n⟩
  | outOfMemory => ⟨"java.lang.OutOfMemoryError", "Java heap space"⟩
  | indexOutOfBounds i length =>
    ⟨index, "Index " ++ Value.intText i ++ " out of bounds for length " ++ toString length⟩
  | badRange start stop length =>
    ⟨index, "begin " ++ Value.intText start ++ ", end " ++ Value.intText stop ++ ", length " ++
      toString length⟩
  | notNumber s => ⟨"java.lang.NumberFormatException", "For input string: \"" ++ s ++ "\""⟩
  | noSuchFile p => ⟨"java.nio.file.NoSuchFileException", p.text⟩
  | unreadable reason => ⟨"java.io.IOException", reason⟩

end Exception

end GuardedRepl
