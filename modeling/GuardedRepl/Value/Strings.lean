import GuardedRepl.Text.Blank
import GuardedRepl.Text.LetterCase
import GuardedRepl.Text.Search
import GuardedRepl.Value.Operation

/-!
# The methods of strings

Positions and lengths are counted in characters.
-/

namespace GuardedRepl
namespace Value
namespace Strings

open Library (StringMethod)

/-- An integer of 64 bits for a length. -/
def ofLength (n : Nat) : Value :=
  .int (Int64.ofNat n)

/-- The position where one text first stands inside another one, or −1. -/
def indexOf (s needle : String) : Int64 :=
  match Text.indexOf? needle.toList s.toList with
  | some k => Int64.ofNat k
  | none => -1

/-- The character at a position. -/
def charAt (s : String) (i : Int64) : Except Exception String :=
  let cs := s.toList
  match if i < 0 then none else cs[i.toNatClampNeg]? with
  | some c => .ok c.toString
  | none => .error (.indexOutOfBounds i cs.length)

/-- The characters from one position up to another one. -/
def substring (s : String) (start stop : Int64) : Except Exception String :=
  let cs := s.toList
  if start < 0 || Int64.ofNat cs.length < stop || stop < start then
    .error (.badRange start stop cs.length)
  else
    .ok (String.ofList
      ((cs.drop start.toNatClampNeg).take (stop.toNatClampNeg - start.toNatClampNeg)))

/-- A string several times in a row. -/
def replicate (s : String) (n : Int64) : Except Exception String :=
  if n < 0 then .error (.negativeCount n)
  else if maxStringBytes < s.utf8ByteSize * n.toNatClampNeg then .error .outOfMemory
  else if s = "" then .ok ""
  else .ok (String.join (List.replicate n.toNatClampNeg s))

/-- Calls a method of a string, which is called `name`. -/
def call (s : String) (m : StringMethod) (name : String) (args : List Value) :
    Except Exception Value :=
  match m, args with
  | .length, [] => .ok (ofLength s.length)
  | .isEmpty, [] => .ok (.bool (s = ""))
  | .toUpperCase, [] => .ok (.str (String.ofList (Text.toUpper s.toList)))
  | .toLowerCase, [] => .ok (.str (String.ofList (Text.toLower s.toList)))
  | .trim, [] => .ok (.str (String.ofList (Text.trim s.toList)))
  | .contains, [v] => return .bool (Text.contains (← v.asString).toList s.toList)
  | .startsWith, [v] => return .bool ((← v.asString).toList.isPrefixOf s.toList)
  | .endsWith, [v] => return .bool ((← v.asString).toList.isSuffixOf s.toList)
  | .indexOf, [v] => return .int (indexOf s (← v.asString))
  | .charAt, [v] => return .str (← charAt s (← v.asInt))
  | .substring, [v] => return .str (← substring s (← v.asInt) (Int64.ofNat s.length))
  | .substring, [v, w] => do
    let start ← v.asInt
    let stop ← w.asInt
    return .str (← substring s start stop)
  | .repeat, [v] => return .str (← replicate s (← v.asInt))
  | _, _ => .error (.badCall name args.length)

end Strings
end Value
end GuardedRepl
