import GuardedRepl.Files.Path
import GuardedRepl.Library.Class
import GuardedRepl.Text.Numeral

/-!
# Values

What expressions evaluate to.  A value has a text, which is what strings are joined with, and a
rendering, which is what is shown for it: the rendering of a string is quoted.
-/

namespace GuardedRepl

/-- The streams that a snippet can print to. -/
inductive Stream where
  | out
  | err
deriving DecidableEq, Repr

/-- A value. -/
inductive Value where
  | int (n : Int64)
  | bool (b : Bool)
  | str (s : String)
  | null
  /-- The outcome of a call that returns nothing. -/
  | void
  | stream (s : Stream)
  | file (p : Files.Path)
  | path (p : Files.Path)
  | runtime
deriving DecidableEq, Repr

namespace Value

open Library (HostClass)

/-- The class of a value, if it has one. -/
def cls? : Value → Option HostClass
  | int _ => some .integer
  | bool _ => some .boolean
  | str _ => some .string
  | null => none
  | void => none
  | stream _ => some .printStream
  | file _ => some .file
  | path _ => some .path
  | runtime => some .runtime

/-- The class of a value as error messages name it. -/
def className (v : Value) : String :=
  match v.cls? with
  | some c => c.name
  | none => "null"

/-- The decimal notation of an integer. -/
def intText (n : Int64) : String :=
  String.ofList (Text.Numeral.ofInt n.toInt)

/-- The text of a value. -/
def text : Value → String
  | int n => intText n
  | bool true => "true"
  | bool false => "false"
  | str s => s
  | null => "null"
  | void => ""
  | stream .out => "java.io.PrintStream@out"
  | stream .err => "java.io.PrintStream@err"
  | file p => p.text
  | path p => p.text
  | runtime => "java.lang.Runtime@runtime"

/-- A character as it stands in the rendering of a string. -/
def escape : Char → List Char
  | '"' => ['\\', '"']
  | '\\' => ['\\', '\\']
  | '\n' => ['\\', 'n']
  | '\t' => ['\\', 't']
  | '\r' => ['\\', 'r']
  | c => [c]

/-- The rendering of a string. -/
def quote (cs : List Char) : List Char :=
  '"' :: cs.flatMap escape ++ ['"']

/-- What is shown for a value, if anything is. -/
def render : Value → Option String
  | void => none
  | str s => some (String.ofList (quote s.toList))
  | v => some v.text

/-- Whether two values are equal. -/
def same : Value → Value → Bool
  | file p, file q => p.same q
  | path p, path q => p.same q
  | v, w => v = w

/-- The units of a character in UTF-16. -/
def units (c : Char) : List UInt16 :=
  let n := c.toNat
  if n < 0x10000 then [n.toUInt16]
  else [(0xD800 + (n - 0x10000) / 0x400).toUInt16, (0xDC00 + (n - 0x10000) % 0x400).toUInt16]

/-- The hash of a text: the number in base 31 whose digits are its units in UTF-16, in a word of 32
bits. -/
def textHash (s : String) : Int32 :=
  (s.toList.flatMap units).foldl (fun h u => 31 * h + Int32.ofNat u.toNat) 0

/-- The hash of a value. -/
def hash : Value → Int64
  | int n => n
  | bool true => 1231
  | bool false => 1237
  | str s => (textHash s).toInt64
  | _ => 0

end Value

end GuardedRepl
