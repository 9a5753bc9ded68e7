import GuardedRepl.Config.Error
import GuardedRepl.Text.Blank
import GuardedRepl.Text.Utf8

/-!
# Captured output

A buffer of bytes with a hard cap.  Bytes beyond the cap are counted and dropped.  Taking the text
out of a buffer that lost bytes leaves no character cut in half and says how many bytes are missing.
-/

namespace GuardedRepl

/-- The encodings that captured output can be decoded from. -/
inductive Encoding where
  | utf8
deriving DecidableEq, Repr

namespace Encoding

/-- The encoding of a name, in any case and with white space around it. -/
def ofName (name : String) : Except ConfigError Encoding :=
  if (Text.trim name.toList).map Char.toLower ∈ ["utf-8".toList, "utf8".toList] then .ok .utf8
  else .error (.unsupportedEncoding name)

/-- The name of an encoding. -/
def name : Encoding → String
  | .utf8 => "UTF-8"

end Encoding

/-- Output kept so far, the number of bytes lost, and the cap. -/
structure Capture where
  maxBytes : Nat
  bytes : Array UInt8 := #[]
  dropped : Nat := 0

/-- An end of a capture that bytes are written to, with the cap of the capture.  A capture may have
any number of them. -/
structure Sink where
  maxBytes : Nat
deriving DecidableEq, Repr

namespace Capture

/-- An empty capture. -/
def empty (maxBytes : Nat) : Capture :=
  { maxBytes }

/-- The number of bytes kept. -/
def size (c : Capture) : Nat :=
  c.bytes.size

/-- A sink of the capture. -/
def sink (c : Capture) : Sink :=
  ⟨c.maxBytes⟩

/-- Takes in bytes from a sink up to the cap.  Every write counts as complete, and the sink is told
so. -/
def receive (c : Capture) (k : Sink) (new : List UInt8) : Nat × Capture :=
  let room := k.maxBytes - c.bytes.size
  (new.length,
    { c with
      bytes := c.bytes ++ new.take room
      dropped := c.dropped + (new.length - room) })

/-- Takes in bytes from a sink of its own. -/
def write (c : Capture) (new : List UInt8) : Capture :=
  (c.receive c.sink new).2

/-- The number of bytes of the character that a first byte begins, if it can begin one. -/
def announcedLength (b : UInt8) : Option Nat :=
  if b < 0x80 then some 1
  else if b < 0xC0 then none
  else if b < 0xE0 then some 2
  else if b < 0xF0 then some 3
  else if b < 0xF8 then some 4
  else none

/-- The number of bytes at the end that begin a character and do not complete it.  The bytes are
given last one first, and `back` of them have been passed over. -/
def unfinishedFrom (back : Nat) : List UInt8 → Nat
  | [] => 0
  | b :: bs =>
    if 4 ≤ back then 0
    else if 0x80 ≤ b && b < 0xC0 then unfinishedFrom (back + 1) bs
    else
      match announcedLength b with
      | some n => if back + 1 < n then back + 1 else 0
      | none => 0

/-- The number of bytes at the end of `bytes` that begin a character and do not complete it. -/
def unfinished (bytes : List UInt8) : Nat :=
  unfinishedFrom 0 bytes.reverse

/-- The line that reports lost bytes. -/
def lossNotice (n : Nat) : List Char :=
  ("\n... [output truncated: " ++ toString n ++ " bytes dropped]").toList

/-- The text of the captured output. -/
def text (c : Capture) : List Char :=
  let bytes := c.bytes.toList
  if c.dropped = 0 then Text.Utf8.decodeReplacing bytes
  else
    let cut := unfinished bytes
    Text.Utf8.decodeReplacing (bytes.take (bytes.length - cut)) ++ lossNotice (c.dropped + cut)

/-- The capture without its contents. -/
def reset (c : Capture) : Capture :=
  empty c.maxBytes

/-- Takes the text out. -/
def drain (c : Capture) : String × Capture :=
  (String.ofList c.text, c.reset)

end Capture

end GuardedRepl
