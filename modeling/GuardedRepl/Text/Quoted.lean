import GuardedRepl.Text.Visible

/-!
# Quoted texts

A text between double quotes.  The characters of a small table stand behind a backslash, and a
character without a form of its own is written by its number in hexadecimal.
-/

namespace GuardedRepl
namespace Text
namespace Quoted

/-- The letter that stands for a character behind a backslash. -/
def escapeLetter? : Char → Option Char
  | '\x00' => some '0'
  | '\t' => some 't'
  | '\r' => some 'r'
  | '\n' => some 'n'
  | '"' => some '"'
  | '\\' => some '\\'
  | _ => none

/-- One character as it stands between the quotes. -/
def escape (c : Char) : List Char :=
  match escapeLetter? c with
  | some l => ['\\', l]
  | none =>
    if isVisible c then [c] else "\\u\x7b".toList ++ Nat.toDigits 16 c.toNat ++ ['}']

/-- A text between double quotes. -/
def encode (cs : List Char) : List Char :=
  '"' :: cs.flatMap escape ++ ['"']

end Quoted
end Text
end GuardedRepl
