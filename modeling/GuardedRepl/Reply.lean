import GuardedRepl.Snippet
import GuardedRepl.Text.Blank
import GuardedRepl.Text.Utf8

/-!
# Replies

The text of a reply: a line for each event that has something to say, then the captured output.  A
reply beyond a fixed number of bytes keeps its beginning and its end.
-/

namespace GuardedRepl
namespace Reply

/-- The number of bytes up to which a reply is kept whole. -/
def maxBytes : Nat := 2000

/-- The line of an event, if it has one. -/
def eventLine (e : Event) : Option String :=
  match e.status with
  | .overwritten => none
  | .rejected => some ("✗ rejected: " ++ String.ofList (Text.trim e.snippet.source.toList))
  | .valid =>
    match e.exception, e.value with
    | some t, _ => some ("✗ " ++ t.describe)
    | none, some v => some ("✓ " ++ v)
    | none, none => none

/-- A text without the line ends at its end. -/
def chomp (cs : List Char) : List Char :=
  (cs.reverse.dropWhile (· = '\n')).reverse

/-- Cuts the middle out of a long text, in favour of a line that counts the missing bytes. -/
def truncate (cs : List Char) : List Char :=
  if Text.Utf8.size cs ≤ maxBytes then cs
  else
    let front := Text.Utf8.takeBytes (maxBytes / 2) cs
    let back := Text.Utf8.takeLastBytes (maxBytes / 2) cs
    let missing := Text.Utf8.size cs - Text.Utf8.size back - Text.Utf8.size front
    front ++ ("\n... [truncated " ++ toString missing ++ " bytes] ...\n").toList ++ back

/-- The untruncated reply to events and output. -/
def fullText (events : List Event) (output : String) : List Char :=
  chomp ((events.filterMap eventLine).flatMap (fun line => line.toList ++ ['\n']) ++ output.toList)

/-- The reply to events and output. -/
def ofResult (events : List Event) (output : String) : String :=
  String.ofList (truncate (fullText events output))

/-- The untruncated listing of diagnostics. -/
def fullListing (id : Nat) (diagnostics : List Diagnostic) : List Char :=
  chomp (diagnostics.flatMap fun d => ("#" ++ toString id ++ ": " ++ d.describe).toList ++ ['\n'])

/-- The listing of the diagnostics of snippet `id`, one to a line. -/
def ofDiagnostics (id : Nat) (diagnostics : List Diagnostic) : String :=
  String.ofList (truncate (fullListing id diagnostics))

end Reply
end GuardedRepl
