import GuardedRepl.Toml.Decimal
import GuardedRepl.Toml.Value

/-!
# TOML numbers, dates and truth values

Values that are one word.  A word is recognised as a whole.
-/

namespace GuardedRepl
namespace Toml
namespace Scalar

/-- The value of a digit in a base. -/
def digit? (base : Nat) (c : Char) : Option Nat :=
  let d :=
    if c.isDigit then some (c.toNat - '0'.toNat)
    else if 'a' ≤ c && c ≤ 'f' then some (c.toNat - 'a'.toNat + 10)
    else if 'A' ≤ c && c ≤ 'F' then some (c.toNat - 'A'.toNat + 10)
    else none
  d.filter (· < base)

/-- Reads digits to the end.  An underscore stands between two digits. -/
def digits (base : Nat) (value : Nat) : List Char → Option Nat
  | [] => none
  | [c] => (digit? base c).map (base * value + ·)
  | c :: '_' :: cs => (digit? base c).bind fun d => digits base (base * value + d) cs
  | c :: cs => (digit? base c).bind fun d => digits base (base * value + d) cs

/-- Takes off a sign: whether it was a minus, and the rest. -/
def sign : List Char → Bool × List Char
  | '-' :: cs => (true, cs)
  | '+' :: cs => (false, cs)
  | cs => (false, cs)

/-- Reads a number, with a sign or without one, and says whether it is negative.  It has no
superfluous zeros at the front, unless an underscore separates them from a sign. -/
def decimal (cs : List Char) : Option (Bool × Nat) :=
  match cs, sign cs with
  | '-' :: '_' :: cs, _ => (digits 10 0 cs).map (true, ·)
  | '+' :: '_' :: cs, _ => (digits 10 0 cs).map (false, ·)
  | _, (_, '0' :: _ :: _) => none
  | _, (negative, cs) => (digits 10 0 cs).map (negative, ·)

/-- Reads an integer. -/
def integer (cs : List Char) : Option Int :=
  match cs with
  | '0' :: 'x' :: cs => (digits 16 0 cs).map Int.ofNat
  | '0' :: 'o' :: cs => (digits 8 0 cs).map Int.ofNat
  | '0' :: 'b' :: cs => (digits 2 0 cs).map Int.ofNat
  | _ => (decimal cs).map fun (negative, n) => if negative then -(n : Int) else n

/-- Whether a word is infinite or no number, by its name. -/
def isSpecial (cs : List Char) : Bool :=
  let name := (sign cs).2
  name = "inf".toList || name = "nan".toList

/-- Reads the digits of a fraction with its point behind the digits of `whole`: all digits as one
number, and how many of them are in the fraction.  The fraction can be missing. -/
def fraction (whole : Nat) : List Char → Option (Nat × Nat)
  | [] => some (whole, 0)
  | _ :: cs => (digits 10 whole cs).map (·, cs.countP Char.isDigit)

/-- Reads an exponent with its letter, which can be missing. -/
def exponent : List Char → Option Int
  | [] => some 0
  | _ :: cs =>
    match sign cs with
    | (true, cs) => (digits 10 0 cs).map fun n => -(n : Int)
    | (false, cs) => (digits 10 0 cs).map Int.ofNat

/-- Reads a number with a fraction or an exponent, and says whether it is in range. -/
def float (cs : List Char) : Option Bool := do
  let mantissa := cs.takeWhile fun c => c ≠ 'e' && c ≠ 'E'
  let whole := mantissa.takeWhile (· ≠ '.')
  if whole.length = cs.length then none
  let (_, n) ← decimal whole
  let (n, places) ← fraction n (mantissa.drop whole.length)
  let e ← exponent (cs.drop mantissa.length)
  return Decimal.inRange n (e - places)

/-- Reads a number of two digits that is at most `limit`. -/
def twoDigits (limit : Nat) : List Char → Option (Nat × List Char)
  | a :: b :: cs => do
    let n := 10 * (← digit? 10 a) + (← digit? 10 b)
    if n ≤ limit then some (n, cs) else none
  | _ => none

/-- The number of days of a month. -/
def daysIn (year month : Nat) : Nat :=
  if month = 2 then
    if year % 4 = 0 && (year % 100 ≠ 0 || year % 400 = 0) then 29 else 28
  else if month ∈ [4, 6, 9, 11] then 30
  else 31

/-- Reads a day, and yields what stands behind it. -/
def day (cs : List Char) : Option (List Char) := do
  let (century, cs) ← twoDigits 99 cs
  let (rest, cs) ← twoDigits 99 cs
  let '-' :: cs := cs | none
  let (month, cs) ← twoDigits 12 cs
  let '-' :: cs := cs | none
  let (d, cs) ← twoDigits 31 cs
  if month = 0 || d = 0 || daysIn (100 * century + rest) month < d then none
  return cs

/-- Reads a time of day, whose seconds may be missing, and yields what stands behind it. -/
def time (cs : List Char) : Option (List Char) := do
  let (_, cs) ← twoDigits 23 cs
  let ':' :: cs := cs | none
  let (_, cs) ← twoDigits 59 cs
  let ':' :: cs := cs | some cs
  let (_, cs) ← twoDigits 60 cs
  let '.' :: cs := cs | some cs
  let fraction := cs.takeWhile Char.isDigit
  if fraction = [] then none
  return cs.drop fraction.length

/-- Whether a word is the distance of a time zone. -/
def isOffset (cs : List Char) : Bool :=
  match cs with
  | [] => true
  | ['Z'] => true
  | ['z'] => true
  | s :: cs =>
    (s = '+' || s = '-') &&
      match twoDigits 23 cs with
      | some (_, ':' :: cs) =>
        match twoDigits 59 cs with
        | some (_, []) => true
        | _ => false
      | _ => false

/-- Whether a word is a day, a time of day, or both. -/
def isDate (cs : List Char) : Bool :=
  match day cs with
  | some [] => true
  | some (c :: rest) =>
    (c = 'T' || c = 't' || c = ' ') &&
      match time rest with
      | some rest => isOffset rest
      | none => false
  | none =>
    match time cs with
    | some [] => true
    | _ => false

/-- The value that a word is. -/
def ofWord (cs : List Char) : Option Value :=
  if cs = "true".toList then some (.boolean true)
  else if cs = "false".toList then some (.boolean false)
  else
    match integer cs, float cs with
    | some n, _ => some (.integer n)
    | none, some inRange => some (.float inRange)
    | none, none =>
      if isSpecial cs then some (.float true)
      else if isDate cs then some .date
      else none

/-- The characters of a word. -/
def isWordPart (c : Char) : Bool :=
  c.isAlphanum || c = '_' || c = '-' || c = '+' || c = '.' || c = ':'

/-- The number of characters of the word that a text begins with.  A space can stand between a day
and a time of day. -/
def wordLength (cs : List Char) : Nat :=
  let first := (cs.takeWhile isWordPart).length
  match day (cs.take first), cs.drop first with
  | some [], ' ' :: a :: b :: ':' :: rest =>
    if a.isDigit && b.isDigit then first + 4 + (rest.takeWhile isWordPart).length else first
  | _, _ => first

end Scalar
end Toml
end GuardedRepl
