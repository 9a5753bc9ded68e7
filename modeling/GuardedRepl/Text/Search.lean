/-!
# Searching and splitting texts

Where one text first stands inside another, and the pieces between separators.
-/

namespace GuardedRepl
namespace Text

/-- The number of characters before the first place where `needle` stands. -/
def indexOf? (needle cs : List Char) : Option Nat :=
  go 0 cs
where
  /-- Goes on at position `k`. -/
  go (k : Nat) : List Char → Option Nat
    | [] => if needle.isEmpty then some k else none
    | c :: cs => if needle.isPrefixOf (c :: cs) then some k else go (k + 1) cs

/-- Whether `needle` stands somewhere in the text. -/
def contains (needle cs : List Char) : Bool :=
  (indexOf? needle cs).isSome

/-- The text before and after the first `sep`, if there is one. -/
def cut? (sep : Char) (cs : List Char) : Option (List Char × List Char) :=
  match cs.dropWhile (· ≠ sep) with
  | [] => none
  | _ :: after => some (cs.takeWhile (· ≠ sep), after)

/-- The text before and after the last `sep`, if there is one. -/
def cutLast? (sep : Char) (cs : List Char) : Option (List Char × List Char) :=
  (cut? sep cs.reverse).map fun (after, before) => (before.reverse, after.reverse)

/-- The pieces between the separators, one more than there are separators. -/
def splitOn (sep : Char) (cs : List Char) : List (List Char) :=
  cs.foldr
    (fun c pieces =>
      if c = sep then [] :: pieces
      else match pieces with
        | [] => [[c]]
        | piece :: rest => (c :: piece) :: rest)
    [[]]

end Text
end GuardedRepl
