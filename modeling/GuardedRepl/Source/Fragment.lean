import GuardedRepl.Source.Comment
import GuardedRepl.Text.Alphanumeric
import GuardedRepl.Text.Blank
import GuardedRepl.Text.Utf8

/-!
# Fragments of a command

A command is cut into fragments, each of which is then read as one snippet.  A fragment ends at a
semicolon outside brackets, literals and comments, or with the brace that closes a block statement
unless an `else` comes next.  White space around a fragment is left out, and so is a fragment that
holds nothing but comments.
-/

namespace GuardedRepl
namespace Source

/-- A piece of a command, with the number of bytes before it. -/
structure Fragment where
  start : Nat
  text : List Char
deriving DecidableEq, Repr

/-- Whether a word of letters stands at the front of the text, white space aside. -/
def nextWordIs (word : String) (cs : List Char) : Bool :=
  let cs := Text.trimStart cs
  word.toList.isPrefixOf cs &&
    !(cs.drop word.toList.length).head?.any fun c =>
      Text.isAlphanumeric c || c = '_' || c = '$'

/-- Whether the text begins like a statement that ends with a brace. -/
def startsBlock (cs : List Char) : Bool :=
  (Text.trimStart cs).head? = some '\x7b' ||
    nextWordIs "if" cs || nextWordIs "while" cs || nextWordIs "for" cs

/-- The number of characters up to and with the closing quote of a literal.  A line end closes the
literal too, and a backslash takes the next character with it.  The reader has passed `length`
characters. -/
def quotedLength (quote : Char) (length : Nat) : List Char → Nat
  | [] => length
  | ['\\'] => length + 1
  | '\\' :: _ :: cs => quotedLength quote (length + 2) cs
  | c :: cs => if c = '\n' || c = quote then length + 1 else quotedLength quote (length + 1) cs

/-- The number of characters after `c` that have no say in where a fragment ends, since they belong
to a literal or a comment that `c` begins. -/
def inertLength? (c : Char) (cs : List Char) : Option Nat :=
  if c = '"' || c = '\'' then some (quotedLength c 0 cs)
  else if c = '/' && cs.head? = some '/' then some (lineLength cs)
  else if c = '/' && cs.head? = some '*' then
    some (((blockLength? (cs.drop 1)).map (· + 1)).getD cs.length)
  else none

/-- Whether the text holds nothing but comments with white space after them. -/
def isOnlyComments : List Char → Bool
  | [] => true
  | '/' :: '/' :: cs => isOnlyComments (Text.trimStart (cs.drop (lineLength cs)))
  | '/' :: '*' :: cs =>
    match blockLength? cs with
    | some n => isOnlyComments (Text.trimStart (cs.drop n))
    | none => true
  | _ => false
termination_by cs => cs.length
decreasing_by
  all_goals
    refine Nat.lt_of_le_of_lt (Text.length_trimStart_le _) ?_
    simp only [List.length_drop, List.length_cons]
    omega

/-- The fragment that a stretch of a command makes, if it is more than white space and comments. -/
def Fragment.ofStretch? (start : Nat) (stretch : List Char) : Option Fragment :=
  let text := Text.trim stretch
  if text.isEmpty || isOnlyComments text then none
  else some ⟨start + Text.Utf8.size (stretch.takeWhile Text.isBlank), text⟩

/-- Where the scan of a command stands: the offset in bytes and the text from the beginning of the
current stretch on, the number of its characters that have been passed, and the number of open
brackets. -/
structure Scan where
  start : Nat
  stretch : List Char
  length : Nat
  depth : Nat

namespace Scan

/-- Passes a number of characters. -/
def pass (s : Scan) (n : Nat) : Scan :=
  { s with length := s.length + n }

/-- The characters of the current stretch, and `n` more. -/
def current (s : Scan) (n : Nat) : List Char :=
  s.stretch.take (s.length + n)

/-- Begins a new stretch after `n` more characters. -/
def next (s : Scan) (n : Nat) : Scan :=
  { start := s.start + Text.Utf8.size (s.current n)
    stretch := s.stretch.drop (s.length + n)
    length := 0
    depth := 0 }

end Scan

/-- The stretches of a command: the offset and the text of each. -/
def stretches (command : List Char) : List (Nat × List Char) :=
  go [] ⟨0, command, 0, 0⟩ command
where
  /-- Goes on at the text `cs` after the stretches of `done`, last one first. -/
  go (done : List (Nat × List Char)) (s : Scan) : List Char → List (Nat × List Char)
    | [] => ((s.start, s.current 0) :: done).reverse
    | c :: cs =>
      match inertLength? c cs with
      | some n => go done (s.pass (1 + n)) (cs.drop n)
      | none =>
        if c = '(' || c = '[' || c = '\x7b' then
          go done { s.pass 1 with depth := s.depth + 1 } cs
        else if c = ')' || c = ']' then
          go done { s.pass 1 with depth := s.depth - 1 } cs
        else if c = '\x7d' then
          if s.depth ≤ 1 && startsBlock s.stretch && !nextWordIs "else" cs then
            go ((s.start, s.current 1) :: done) (s.next 1) cs
          else go done { s.pass 1 with depth := s.depth - 1 } cs
        else if c = ';' && s.depth = 0 then
          go ((s.start, s.current 0) :: done) (s.next 1) cs
        else go done (s.pass 1) cs
  termination_by cs => cs.length
  decreasing_by
    all_goals simp only [List.length_drop, List.length_cons]; omega

/-- The fragments of a command. -/
def fragments (command : List Char) : List Fragment :=
  (stretches command).filterMap fun (start, stretch) => Fragment.ofStretch? start stretch

end Source
end GuardedRepl
