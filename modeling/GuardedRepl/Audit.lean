import GuardedRepl.Text.Blank
import GuardedRepl.Text.Utf8

/-!
# The audit trail

Every evaluation leaves one line: a JSON object with the time, the beginning of the command, the
outcome and the duration.
-/

namespace GuardedRepl

/-- The outcome of an evaluation, as far as the audit trail tells it. -/
inductive AuditResult where
  | success
  /-- The number of snippets that were rejected or threw. -/
  | failed (failures : Nat)
  | timeout
  | error (message : String)
deriving DecidableEq, Repr

/-- One line of the audit trail. -/
structure AuditEntry where
  timestamp : String
  command : String
  result : AuditResult
  durationMs : Nat
deriving DecidableEq, Repr

namespace Audit

/-- The number of bytes of a command that are recorded. -/
def maxCommandBytes : Nat := 512

/-- The letter that stands for a character behind a backslash in a JSON string. -/
def escapeLetter? : Char → Option Char
  | '"' => some '"'
  | '\\' => some '\\'
  | '\x08' => some 'b'
  | '\x0c' => some 'f'
  | '\n' => some 'n'
  | '\r' => some 'r'
  | '\t' => some 't'
  | _ => none

/-- One character as it stands in a JSON string. -/
def escape (c : Char) : List Char :=
  match escapeLetter? c with
  | some l => ['\\', l]
  | none =>
    if c.toNat < 0x20 then
      ['\\', 'u', '0', '0', Nat.digitChar (c.toNat / 16), Nat.digitChar (c.toNat % 16)]
    else [c]

/-- A JSON string. -/
def jsonString (s : String) : String :=
  String.ofList ('"' :: s.toList.flatMap escape ++ ['"'])

/-- A JSON object of fields whose values are JSON already. -/
def jsonObject (fields : List (String × String)) : String :=
  "\x7b" ++ ",".intercalate (fields.map fun (k, v) => jsonString k ++ ":" ++ v) ++ "\x7d"

/-- The outcome as a JSON object. -/
def jsonResult : AuditResult → String
  | .success => jsonObject [("type", jsonString "success")]
  | .failed n => jsonObject [("type", jsonString "failed"), ("failures", toString n)]
  | .timeout => jsonObject [("type", jsonString "timeout")]
  | .error message => jsonObject [("type", jsonString "error"), ("message", jsonString message)]

/-- The entry for a command, of which only the beginning is kept. -/
def entry (timestamp command : String) (result : AuditResult) (durationMs : Nat) : AuditEntry :=
  { timestamp, result, durationMs,
    command := String.ofList (Text.Utf8.takeBytes maxCommandBytes command.toList) }

end Audit

/-- The text of an entry, without a line end. -/
def AuditEntry.toJson (e : AuditEntry) : String :=
  Audit.jsonObject [
    ("timestamp", Audit.jsonString e.timestamp),
    ("command", Audit.jsonString e.command),
    ("result", Audit.jsonResult e.result),
    ("duration_ms", toString e.durationMs)]

/-- Where audit lines go. -/
inductive AuditDestination where
  /-- The log of the program. -/
  | stdout
  /-- The end of a file. -/
  | file (path : String)
deriving DecidableEq, Repr

namespace AuditDestination

/-- The destination of a setting: the word `stdout` in any case, or else the path of a file. -/
def ofSetting (raw : String) : AuditDestination :=
  if (Text.trim raw.toList).map Char.toLower = "stdout".toList then .stdout else .file raw

/-- A destination in words. -/
def describe : AuditDestination → String
  | .stdout => "stdout"
  | .file path => path

end AuditDestination

end GuardedRepl
