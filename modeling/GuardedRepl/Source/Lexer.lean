import GuardedRepl.Source.Comment
import GuardedRepl.Source.Fault
import GuardedRepl.Text.Numeral
import GuardedRepl.Text.Utf8

/-!
# Cutting a source into tokens

A text is read from the left, one piece at a time: a blank, a comment, or a token.  Spans are given
in bytes, while the pieces are counted in characters.
-/

namespace GuardedRepl
namespace Source

open Text.Utf8 (size)

/-- The blanks between tokens. -/
def isSpace (c : Char) : Bool :=
  c = ' ' || c = '\t' || c = '\n' || c = '\x0c' || c = '\r'

/-- The characters that a name begins with. -/
def isNameStart (c : Char) : Bool :=
  c.isAlpha || c = '_' || c = '$'

/-- The characters that a name goes on with. -/
def isNamePart (c : Char) : Bool :=
  c.isAlphanum || c = '_' || c = '$'

/-- The characters that a number goes on with. -/
def isNumberPart (c : Char) : Bool :=
  c.isDigit || c = '_'

/-- The character that stands behind a backslash for another one. -/
def unescape? : Char → Option Char
  | 'n' => some '\n'
  | 't' => some '\t'
  | 'r' => some '\r'
  | '0' => some '\x00'
  | '\\' => some '\\'
  | '"' => some '"'
  | '\'' => some '\''
  | _ => none

/-- What a text begins with: a blank or a comment if `kind?` is `none`, or else a token, with
`more` characters after the first one. -/
structure Piece where
  kind? : Option TokenKind
  more : Nat

/-- The rest of a string literal after its opening quote: its value, and the number of characters
with the closing quote.  The reader has passed `length` characters of `bytes` bytes and has
collected the value in `done`, last character first. -/
def stringBody (bytes length : Nat) (done : List Char) : List Char → Except Fault (String × Nat)
  | [] => .error ⟨⟨0, bytes⟩, .unclosedString⟩
  | '"' :: _ => .ok (String.ofList done.reverse, length + 1)
  | '\n' :: cs => .error ⟨⟨0, bytes + size ('\n' :: cs)⟩, .unclosedString⟩
  | ['\\'] => .error ⟨⟨0, bytes + 1⟩, .unclosedString⟩
  | '\\' :: e :: cs =>
    match unescape? e with
    | some c => stringBody (bytes + 1 + e.utf8Size) (length + 2) (c :: done) cs
    | none => .error ⟨⟨bytes, bytes + 1 + e.utf8Size⟩, .illegalEscape⟩
  | c :: cs => stringBody (bytes + c.utf8Size) (length + 1) (c :: done) cs

/-- The rest of a character literal after its opening quote. -/
def characterBody (cs : List Char) : Except Fault (Char × Nat) :=
  let unclosed : Fault := ⟨⟨0, 1 + size cs⟩, .unclosedCharacter⟩
  match cs with
  | '\\' :: e :: rest =>
    match unescape? e with
    | some c => if rest.head? = some '\'' then .ok (c, 3) else .error unclosed
    | none => .error ⟨⟨1, 2 + e.utf8Size⟩, .illegalEscape⟩
  | ['\\'] => .error unclosed
  | '\'' :: _ => .error unclosed
  | c :: rest => if rest.head? = some '\'' then .ok (c, 2) else .error unclosed
  | [] => .error unclosed

/-- A number that begins with the digit `c`. -/
def number (c : Char) (cs : List Char) : Except Fault Piece :=
  let tail := cs.takeWhile isNumberPart
  let suffixed := (cs.drop tail.length).head?.any fun s => s = 'L' || s = 'l'
  let more := tail.length + if suffixed then 1 else 0
  let value := Text.Numeral.value ((c :: tail).filter (· ≠ '_'))
  if value ≤ 0x7FFFFFFFFFFFFFFF then .ok ⟨some (.int (Int64.ofNat value)), more⟩
  else .error ⟨⟨0, 1 + more⟩, .numberTooLarge⟩

/-- The piece that the text `c :: cs` begins with. -/
def piece (c : Char) (cs : List Char) : Except Fault Piece :=
  if isSpace c then .ok ⟨none, 0⟩
  else if c = '/' && cs.head? = some '/' then .ok ⟨none, lineLength cs⟩
  else if c = '/' && cs.head? = some '*' then
    match blockLength? (cs.drop 1) with
    | some n => .ok ⟨none, n + 1⟩
    | none => .error ⟨⟨0, size (c :: cs)⟩, .unclosedComment⟩
  else if c.isDigit then number c cs
  else if c = '"' then (stringBody 1 0 [] cs).map fun (value, n) => ⟨some (.str value), n⟩
  else if c = '\'' then (characterBody cs).map fun (value, n) => ⟨some (.str value.toString), n⟩
  else if isNameStart c then
    let tail := cs.takeWhile isNamePart
    .ok ⟨some (.ofWord (String.ofList (c :: tail))), tail.length⟩
  else
    match Punct.longest? (c :: cs) with
    | some p => .ok ⟨some (.punct p), p.text.length - 1⟩
    | none => .error ⟨⟨0, c.utf8Size⟩, .illegalCharacter c⟩

/-- The tokens of a source, with the token for its end. -/
def tokenize (source : List Char) : Except Fault (List Token) :=
  go 0 [] source
where
  /-- Goes on at byte `offset` after the tokens of `done`, last one first. -/
  go (offset : Nat) (done : List Token) : List Char → Except Fault (List Token)
    | [] => .ok (⟨.endOfSource, ⟨offset, offset⟩⟩ :: done).reverse
    | c :: cs =>
      match piece c cs with
      | .error f => .error (f.shift offset)
      | .ok ⟨kind?, more⟩ =>
        let stop := offset + size (c :: cs.take more)
        match kind? with
        | none => go stop done (cs.drop more)
        | some kind => go stop (⟨kind, ⟨offset, stop⟩⟩ :: done) (cs.drop more)
  termination_by cs => cs.length
  decreasing_by
    all_goals simp only [List.length_drop, List.length_cons]; omega

end Source
end GuardedRepl
