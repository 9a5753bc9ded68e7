import GuardedRepl.Library.Class

/-!
# The members of the classes

Static fields, static methods and instance methods by name.  A static member is found by its class
and name when a snippet is read, an instance method by its name when the object is at hand.
-/

namespace GuardedRepl
namespace Library

/-- A static field. -/
inductive StaticField where
  | out
  | err
  | maxValue
  | minValue
deriving DecidableEq, Repr

namespace StaticField

/-- The class of a static field. -/
def owner : StaticField → HostClass
  | out => .system
  | err => .system
  | maxValue => .integer
  | minValue => .integer

/-- The name of a static field. -/
def name : StaticField → String
  | out => "out"
  | err => "err"
  | maxValue => "MAX_VALUE"
  | minValue => "MIN_VALUE"

/-- All static fields. -/
def all : List StaticField :=
  [out, err, maxValue, minValue]

/-- The static field of a class with a name. -/
def find? (c : HostClass) (s : String) : Option StaticField :=
  all.find? fun f => f.owner = c && f.name = s

end StaticField

/-- A static method. -/
inductive StaticMethod where
  | currentTimeMillis
  | nanoTime
  | exit
  | getProperty
  | getenv
  | lineSeparator
  | abs
  | max
  | min
  | floorMod
  | valueOf
  | parseInt
  | intToString
  | parseBoolean
  | sleep
  | getRuntime
  | fileExists
  | readString
  | of
deriving DecidableEq, Repr

namespace StaticMethod

/-- The class of a static method. -/
def owner : StaticMethod → HostClass
  | currentTimeMillis => .system
  | nanoTime => .system
  | exit => .system
  | getProperty => .system
  | getenv => .system
  | lineSeparator => .system
  | abs => .math
  | max => .math
  | min => .math
  | floorMod => .math
  | valueOf => .string
  | parseInt => .integer
  | intToString => .integer
  | parseBoolean => .boolean
  | sleep => .thread
  | getRuntime => .runtime
  | fileExists => .files
  | readString => .files
  | of => .path

/-- The name of a static method. -/
def name : StaticMethod → String
  | currentTimeMillis => "currentTimeMillis"
  | nanoTime => "nanoTime"
  | exit => "exit"
  | getProperty => "getProperty"
  | getenv => "getenv"
  | lineSeparator => "lineSeparator"
  | abs => "abs"
  | max => "max"
  | min => "min"
  | floorMod => "floorMod"
  | valueOf => "valueOf"
  | parseInt => "parseInt"
  | intToString => "toString"
  | parseBoolean => "parseBoolean"
  | sleep => "sleep"
  | getRuntime => "getRuntime"
  | fileExists => "exists"
  | readString => "readString"
  | of => "of"

/-- All static methods. -/
def all : List StaticMethod :=
  [currentTimeMillis, nanoTime, exit, getProperty, getenv, lineSeparator, abs, max, min, floorMod,
    valueOf, parseInt, intToString, parseBoolean, sleep, getRuntime, fileExists, readString, of]

/-- The static method of a class with a name. -/
def find? (c : HostClass) (s : String) : Option StaticMethod :=
  all.find? fun m => m.owner = c && m.name = s

end StaticMethod

/-- A method that every object has. -/
inductive ObjectMethod where
  | toString
  | equals
  | hashCode
deriving DecidableEq, Repr

/-- The method of every object with a name. -/
def ObjectMethod.ofName? : String → Option ObjectMethod
  | "toString" => some .toString
  | "equals" => some .equals
  | "hashCode" => some .hashCode
  | _ => none

/-- A method of a print stream. -/
inductive PrintMethod where
  | println
  | print
deriving DecidableEq, Repr

/-- The method of a print stream with a name. -/
def PrintMethod.ofName? : String → Option PrintMethod
  | "println" => some .println
  | "print" => some .print
  | _ => none

/-- A method of a string. -/
inductive StringMethod where
  | length
  | isEmpty
  | toUpperCase
  | toLowerCase
  | substring
  | repeat
  | contains
  | charAt
  | trim
  | startsWith
  | endsWith
  | indexOf
deriving DecidableEq, Repr

/-- The method of a string with a name. -/
def StringMethod.ofName? : String → Option StringMethod
  | "length" => some .length
  | "isEmpty" => some .isEmpty
  | "toUpperCase" => some .toUpperCase
  | "toLowerCase" => some .toLowerCase
  | "substring" => some .substring
  | "repeat" => some .repeat
  | "contains" => some .contains
  | "charAt" => some .charAt
  | "trim" => some .trim
  | "startsWith" => some .startsWith
  | "endsWith" => some .endsWith
  | "indexOf" => some .indexOf
  | _ => none

/-- A method of the runtime. -/
inductive RuntimeMethod where
  | availableProcessors
  | exec
deriving DecidableEq, Repr

/-- The method of the runtime with a name. -/
def RuntimeMethod.ofName? : String → Option RuntimeMethod
  | "availableProcessors" => some .availableProcessors
  | "exec" => some .exec
  | _ => none

/-- A method of a file. -/
inductive FileMethod where
  | exists
  | getName
  | getPath
deriving DecidableEq, Repr

/-- The method of a file with a name. -/
def FileMethod.ofName? : String → Option FileMethod
  | "exists" => some .exists
  | "getName" => some .getName
  | "getPath" => some .getPath
  | _ => none

/-- A method of a path. -/
inductive PathMethod where
  | getFileName
deriving DecidableEq, Repr

/-- The method of a path with a name. -/
def PathMethod.ofName? : String → Option PathMethod
  | "getFileName" => some .getFileName
  | _ => none

end Library
end GuardedRepl
