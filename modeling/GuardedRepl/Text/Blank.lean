import GuardedRepl.Text.Ranges

/-!
# White space

The property `White_Space` of Unicode, which has twenty-five characters, and the removal of white
space from the ends of a text.  The lexer of the snippet language knows a smaller, ASCII set of its
own.

**Results.**
* `length_trimStart_le`: removing white space makes no text longer.
-/

namespace GuardedRepl
namespace Text

/-- The characters with the property `White_Space`. -/
def blankRanges : Ranges :=
  [(0x9, 0xD), (0x20, 0x20), (0x85, 0x85), (0xA0, 0xA0), (0x1680, 0x1680), (0x2000, 0x200A),
   (0x2028, 0x2029), (0x202F, 0x202F), (0x205F, 0x205F), (0x3000, 0x3000)]

/-- White space in the sense of Unicode. -/
def isBlank (c : Char) : Bool :=
  blankRanges.covers c.toNat

/-- Removes white space from the front. -/
def trimStart (cs : List Char) : List Char :=
  cs.dropWhile isBlank

theorem length_trimStart_le (cs : List Char) : (trimStart cs).length ≤ cs.length :=
  (List.dropWhile_sublist _).length_le

/-- Removes white space from the back. -/
def trimEnd (cs : List Char) : List Char :=
  (cs.reverse.dropWhile isBlank).reverse

/-- Removes white space from both ends. -/
def trim (cs : List Char) : List Char :=
  trimEnd (trimStart cs)

end Text
end GuardedRepl
