import GuardedRepl.Text.Search

/-!
# The classes of the host

The packages and classes that snippets can name.  A class has a simple name, unique among all
classes, and a full name, which begins with the name of its package.
-/

namespace GuardedRepl
namespace Library

/-- A package of classes. -/
inductive Package where
  /-- The package whose classes need no import. -/
  | lang
  | io
  | nioFile
deriving DecidableEq, Repr

namespace Package

/-- The name of a package. -/
def name : Package → String
  | lang => "java.lang"
  | io => "java.io"
  | nioFile => "java.nio.file"

/-- All packages. -/
def all : List Package :=
  [lang, io, nioFile]

/-- The package of a name. -/
def ofName? (s : String) : Option Package :=
  all.find? fun p => p.name = s

end Package

/-- A class of the host. -/
inductive HostClass where
  | system
  | printStream
  | math
  | string
  | integer
  | boolean
  | thread
  | runtime
  | file
  | files
  | path
deriving DecidableEq, Repr

namespace HostClass

/-- The package of a class. -/
def package : HostClass → Package
  | system => .lang
  | printStream => .io
  | math => .lang
  | string => .lang
  | integer => .lang
  | boolean => .lang
  | thread => .lang
  | runtime => .lang
  | file => .io
  | files => .nioFile
  | path => .nioFile

/-- The name of a class within its package. -/
def simpleName : HostClass → String
  | system => "System"
  | printStream => "PrintStream"
  | math => "Math"
  | string => "String"
  | integer => "Integer"
  | boolean => "Boolean"
  | thread => "Thread"
  | runtime => "Runtime"
  | file => "File"
  | files => "Files"
  | path => "Path"

/-- The full name of a class. -/
def name (c : HostClass) : String :=
  c.package.name ++ "." ++ c.simpleName

/-- The parts of the full name of a class. -/
def segments (c : HostClass) : List String :=
  (Text.splitOn '.' c.name.toList).map String.ofList

/-- All classes. -/
def all : List HostClass :=
  [system, printStream, math, string, integer, boolean, thread, runtime, file, files, path]

/-- The class of a full name. -/
def ofName? (s : String) : Option HostClass :=
  all.find? fun c => c.name = s

/-- The class of a simple name. -/
def ofSimpleName? (s : String) : Option HostClass :=
  all.find? fun c => c.simpleName = s

/-- Whether snippets can construct objects of a class. -/
def isConstructible (c : HostClass) : Bool :=
  c = file

theorem mem_all (c : HostClass) : c ∈ all := by
  cases c <;> decide

end HostClass

end Library
end GuardedRepl
