import GuardedRepl.Toml.Scalar

/-!
# Reading TOML

A file is read line by line into the entries of its root table.  Values in brackets and braces can
lie eighty deep in each other, and their lines can be broken.  Line ends within strings are kept as
they are.
-/

namespace GuardedRepl
namespace Toml

/-- A reader of text, which fails without a reason. -/
abbrev Reader := StateT (List Char) Option

/-- How deep brackets can lie in each other, and how many tables a key can lead through. -/
def maxDepth : Nat := 80

/-- The white space within a line. -/
def isSpace (c : Char) : Bool :=
  c = ' ' || c = '\t'

/-- The characters of comments and of strings. -/
def isPrintable (c : Char) : Bool :=
  c = '\t' || (' ' ≤ c && c ≠ '\x7f')

/-- The text behind a comment, which ends before the end of its line. -/
def afterComment (cs : List Char) : Option (List Char) :=
  let body := cs.takeWhile (· ≠ '\n')
  let rest := cs.drop body.length
  let body := if body.getLast? = some '\r' && rest ≠ [] then body.dropLast else body
  if body.all isPrintable then some rest else none

theorem length_afterComment_le {cs rest : List Char} (h : afterComment cs = some rest) :
    rest.length ≤ cs.length := by
  unfold afterComment at h
  simp only [Option.ite_none_right_eq_some, Option.some.injEq] at h
  rw [← h.2]
  simp

/-- The text behind white space, line ends and comments. -/
def afterBlank : List Char → Option (List Char)
  | '#' :: cs =>
    match _h : afterComment cs with
    | some rest => afterBlank rest
    | none => none
  | '\r' :: '\n' :: cs => afterBlank cs
  | c :: cs => if isSpace c || c = '\n' then afterBlank cs else some (c :: cs)
  | [] => some []
termination_by cs => cs.length
decreasing_by
  · have := length_afterComment_le _h
    simp only [List.length_cons]
    omega
  · simp only [List.length_cons]; omega
  · simp only [List.length_cons]; omega

/-- The text behind the end of a line, before which only white space and a comment can stand. -/
def afterLine (cs : List Char) : Option (List Char) := do
  let cs := cs.dropWhile isSpace
  let cs ← match cs with
    | '#' :: cs => afterComment cs
    | cs => some cs
  match cs with
  | [] => some []
  | '\n' :: cs => some cs
  | '\r' :: '\n' :: cs => some cs
  | _ => none

/-! ## Strings -/

/-- The value of hexadecimal digits. -/
def hexValue (cs : List Char) : Option Nat :=
  cs.foldlM (fun v c => (Scalar.digit? 16 c).map (16 * v + ·)) 0

/-- The character with a number, which must not be a surrogate. -/
def character (n : Nat) : Option Char :=
  if n.isValidChar then some (Char.ofNat n) else none

/-- The character that a text behind a backslash stands for, and the number of characters of the
text. -/
def escape : List Char → Option (Char × Nat)
  | 'b' :: _ => some ('\x08', 1)
  | 't' :: _ => some ('\t', 1)
  | 'n' :: _ => some ('\n', 1)
  | 'f' :: _ => some ('\x0c', 1)
  | 'r' :: _ => some ('\r', 1)
  | 'e' :: _ => some ('\x1b', 1)
  | '"' :: _ => some ('"', 1)
  | '\\' :: _ => some ('\\', 1)
  | 'x' :: cs => hex 2 cs
  | 'u' :: cs => hex 4 cs
  | 'U' :: cs => hex 8 cs
  | _ => none
where
  /-- The character given by `n` hexadecimal digits. -/
  hex (n : Nat) (cs : List Char) : Option (Char × Nat) := do
    let ds := cs.take n
    if ds.length < n then none
    let c ← character (← hexValue ds)
    return (c, n + 1)

/-- Reads a string in double quotes after the first one, behind the characters of `done`, last one
first. -/
def basic (done : List Char) : List Char → Option (String × List Char)
  | '"' :: cs => some (String.ofList done.reverse, cs)
  | '\\' :: cs =>
    match escape cs with
    | some (c, n) => basic (c :: done) (cs.drop n)
    | none => none
  | c :: cs => if isPrintable c then basic (c :: done) cs else none
  | [] => none
termination_by cs => cs.length
decreasing_by
  all_goals simp only [List.length_drop, List.length_cons]; omega

/-- Reads a string in single quotes after the first one. -/
def literal (cs : List Char) : Option (String × List Char) :=
  let body := cs.takeWhile (· ≠ '\'')
  match cs.drop body.length with
  | '\'' :: rest => if body.all isPrintable then some (String.ofList body, rest) else none
  | _ => none

/-- The text behind a line end at the front, if there is one. -/
def afterFirstLineEnd : List Char → List Char
  | '\n' :: cs => cs
  | '\r' :: '\n' :: cs => cs
  | cs => cs

/-- The text behind a backslash at the end of a line, with all white space and line ends. -/
def afterContinuation (cs : List Char) : Option (List Char) :=
  match cs.dropWhile isSpace with
  | '\n' :: _ => some (skip cs)
  | '\r' :: '\n' :: _ => some (skip cs)
  | _ => none
where
  /-- Passes over white space and line ends. -/
  skip : List Char → List Char
    | '\r' :: '\n' :: cs => skip cs
    | c :: cs => if isSpace c || c = '\n' then skip cs else c :: cs
    | [] => []

theorem length_skip_le (cs : List Char) : (afterContinuation.skip cs).length ≤ cs.length := by
  fun_induction afterContinuation.skip cs with
  | case1 cs ih => simp only [List.length_cons]; omega
  | case2 c cs h ih => simp only [List.length_cons]; omega
  | case3 => simp
  | case4 => simp

theorem length_afterContinuation_le {cs rest : List Char} (h : afterContinuation cs = some rest) :
    rest.length ≤ cs.length := by
  unfold afterContinuation at h
  split at h <;> simp only [Option.some.injEq, reduceCtorEq] at h
  all_goals exact h ▸ length_skip_le cs

/-- Reads a string over several lines, which is quoted by three `quote`s, after the first quotes.  A
string can end with one or two quotes of its own. -/
def multiline (quote : Char) (escapes : Bool) (done : List Char) :
    List Char → Option (String × List Char)
  | [] => none
  | '\r' :: '\n' :: cs => multiline quote escapes ('\n' :: '\r' :: done) cs
  | c :: cs =>
    if c = quote then
      let run := min 5 (1 + (cs.takeWhile (· = quote)).length)
      if 3 ≤ run then
        some (String.ofList (List.replicate (run - 3) quote ++ done).reverse, cs.drop (run - 1))
      else multiline quote escapes (c :: done) cs
    else if c = '\\' && escapes then
      match _h : afterContinuation cs with
      | some rest => multiline quote escapes done rest
      | none =>
        match escape cs with
        | some (c, n) => multiline quote escapes (c :: done) (cs.drop n)
        | none => none
    else if isPrintable c || c = '\n' then multiline quote escapes (c :: done) cs
    else none
termination_by cs => cs.length
decreasing_by
  · simp only [List.length_cons]; omega
  · simp only [List.length_cons]; omega
  · have := length_afterContinuation_le _h
    simp only [List.length_cons]
    omega
  · simp only [List.length_drop, List.length_cons]; omega
  · simp only [List.length_cons]; omega

/-- Reads a string, if the text begins with a quote. -/
def string? (cs : List Char) : Option (Option (String × List Char)) :=
  match cs with
  | '"' :: '"' :: '"' :: cs => some (multiline '"' true [] (afterFirstLineEnd cs))
  | '\'' :: '\'' :: '\'' :: cs => some (multiline '\'' false [] (afterFirstLineEnd cs))
  | '"' :: cs => some (basic [] cs)
  | '\'' :: cs => some (literal cs)
  | _ => none

/-! ## Keys -/

/-- The characters of keys without quotes. -/
def isBare (c : Char) : Bool :=
  c.isAlphanum || c = '_' || c = '-'

/-- Reads one part of a key. -/
def keyPart (cs : List Char) : Option (String × List Char) :=
  match cs with
  | '"' :: cs => basic [] cs
  | '\'' :: cs => literal cs
  | _ =>
    let bare := cs.takeWhile isBare
    if bare = [] then none else some (String.ofList bare, cs.drop bare.length)

/-- Reads up to `n` more parts of a key. -/
def keyTail : Nat → List String → List Char → List String × List Char
  | 0, done, cs => (done, cs)
  | n + 1, done, cs =>
    match cs.dropWhile isSpace with
    | '.' :: rest =>
      match keyPart (rest.dropWhile isSpace) with
      | some (part, rest) => keyTail n (part :: done) rest
      | none => (done, cs)
    | rest => (done, rest)

/-- Reads a key: its last part and the parts before it, which name the tables on the way. -/
def key : Reader (String × List String) := fun cs => do
  let (first, rest) ← keyPart (cs.dropWhile isSpace)
  match keyTail cs.length [first] rest with
  | (last :: before, rest) =>
    if before.length < maxDepth then some ((last, before.reverse), rest) else none
  | ([], _) => none

/-! ## Values -/

/-- Reads this character. -/
def expect (c : Char) : Reader Unit := fun cs =>
  match cs with
  | d :: cs => if d = c then some ((), cs) else none
  | [] => none

/-- Passes over white space within the line. -/
def space : Reader Unit := fun cs =>
  some ((), cs.dropWhile isSpace)

/-- Passes over white space, line ends and comments. -/
def blank : Reader Unit := fun cs =>
  (afterBlank cs).map ((), ·)

/-- The next character. -/
def peek : Reader (Option Char) := fun cs =>
  some (cs.head?, cs)

/-- Reads a value without brackets. -/
def flat : Reader Value := fun cs =>
  match string? cs with
  | some found => found.map fun (s, rest) => (.string s, rest)
  | none =>
    let n := Scalar.wordLength cs
    (Scalar.ofWord (cs.take n)).map (·, cs.drop n)

/-- Reads what stands between two brackets behind the first one: items with commas between them, and
perhaps one after the last item.  Up to `n` items are read, behind the state `done`. -/
def listed {α : Type} (item : α → Reader α) (stop : Char) : Nat → α → Reader α
  | 0, _ => failure
  | n + 1, done => do
    blank
    if (← peek) = some stop then
      expect stop
      return done
    let done ← item done
    blank
    if (← peek) = some stop then
      expect stop
      return done
    expect ','
    listed item stop n done

/-- Reads a key with its value, which stand in braces, into entries.  Lines can be broken on both
sides of the sign between them. -/
def entry (value : Reader Value) (es : Entries) : Reader Entries := do
  let (last, path) ← key
  blank
  expect '='
  blank
  let v ← value
  StateT.lift (es.addDotted last v path)

/-- Reads a value with brackets up to `depth` deep. -/
def value : (depth : Nat) → Reader Value
  | 0 => flat
  | depth + 1 => do
    match ← peek with
    | some '[' =>
      expect '['
      let item (done : List Value) : Reader (List Value) := return (← value depth) :: done
      return .array (← listed item ']' ((← get).length + 1) []).reverse
    | some '\x7b' =>
      expect '\x7b'
      return .table .braces (← listed (entry (value depth)) '\x7d' ((← get).length + 1) [])
    | _ => flat

/-! ## Files -/

/-- The tables read so far, and the header that they were read under last. -/
structure Document where
  root : Entries := []
  header : List String := []

/-- Reads a header in brackets after the first bracket. -/
def header (d : Document) : Reader Document := do
  if (← peek) = some '[' then
    expect '['
    let (last, path) ← key
    space
    expect ']'
    expect ']'
    return ⟨← StateT.lift (d.root.below (·.appendTable last) path), path ++ [last]⟩
  else
    let (last, path) ← key
    space
    expect ']'
    return ⟨← StateT.lift (d.root.below (·.openTable last) path), path ++ [last]⟩

/-- Reads a key with its value under the last header. -/
def assignment (d : Document) : Reader Document := do
  let (last, path) ← key
  space
  expect '='
  space
  let v ← value maxDepth
  return { d with root := ← StateT.lift (d.root.within (·.addDotted last v path) d.header) }

/-- Reads lines up to the end of the text, up to `n` of them. -/
def lines : Nat → Document → Reader Document
  | 0, _ => failure
  | n + 1, d => do
    blank
    match ← peek with
    | none => return d
    | some c =>
      let d ← if c = '[' then do
          expect '['
          header d
        else assignment d
      let rest ← StateT.lift (afterLine (← get))
      set rest
      lines n d

/-- The root table of a file. -/
def parse (text : List Char) : Option Entries :=
  let text := match text with
    | '\uFEFF' :: cs => cs
    | _ => text
  (lines (text.length + 1) {} text).map fun (d, _) => d.root

end Toml
end GuardedRepl
