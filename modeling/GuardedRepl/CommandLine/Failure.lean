import GuardedRepl.Config.Error
import GuardedRepl.Text.Search
import GuardedRepl.Text.Utf8

/-!
# Failures

Why the program gives up before its work is done, and the text in which it says so: what failed, and
below it the causes.
-/

namespace GuardedRepl
namespace CommandLine

/-- Why the program gives up: what failed, and the causes in turn. -/
structure Failure where
  message : String
  causes : List String := []

namespace Failure

/-- A text behind a label, with all further lines moved to the right. -/
def indented (label margin text : String) : String :=
  label ++ ("\n" ++ margin).intercalate
    ((Text.splitOn '\n' text.toList).map String.ofList)

/-- The causes of a failure, which are numbered if there are several. -/
def causeLines : List String → List String
  | [] => []
  | [cause] => [indented "    " "    " cause]
  | causes => causes.zipIdx.map fun (cause, n) =>
      let number := toString n
      let space := String.ofList (List.replicate (5 - number.length) ' ')
      indented (space ++ number ++ ": ") "       " cause

/-- A failure in words. -/
def text (f : Failure) : String :=
  "Error: " ++ f.message ++
    (if f.causes.isEmpty then ""
      else "\n\nCaused by:\n" ++ "\n".intercalate (causeLines f.causes)) ++
    "\n"

/-- The failure to load a configuration. -/
def ofConfig (path : String) (e : ConfigError) : Failure :=
  { message := "failed to load config from " ++ path
    causes := match e with
      | .unreadable _ reason => [e.message, reason]
      | e => [e.message] }

/-- The failure to read a line. -/
def ofFault (f : Text.Utf8.Fault) : Failure :=
  { message := "failed to read stdin"
    causes := [match f.length with
      | some n =>
        "invalid utf-8 sequence of " ++ toString n ++ " bytes from index " ++ toString f.index
      | none => "incomplete utf-8 byte sequence from index " ++ toString f.index] }

end Failure

end CommandLine
end GuardedRepl
