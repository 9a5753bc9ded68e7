/-!
# Decimal numerals

Numbers in decimal notation, written without leading zeros and read with a bound.  An optional plus
sign is read and never written.
-/

namespace GuardedRepl
namespace Text
namespace Numeral

/-- The digit of a number below ten. -/
def digitChar (d : Nat) : Char :=
  Char.ofNat ('0'.toNat + d)

/-- The decimal digits of a number. -/
def ofNat (n : Nat) : List Char :=
  if n < 10 then [digitChar n] else ofNat (n / 10) ++ [digitChar (n % 10)]

/-- The decimal notation of an integer. -/
def ofInt : Int → List Char
  | .ofNat n => ofNat n
  | .negSucc n => '-' :: ofNat (n + 1)

/-- The value of a string of digits. -/
def value (digits : List Char) : Nat :=
  digits.foldl (fun v c => 10 * v + (c.toNat - '0'.toNat)) 0

/-- Reads one digit or more and nothing else. -/
def readDigits (cs : List Char) : Option Nat :=
  if cs.isEmpty || !cs.all Char.isDigit then none else some (value cs)

/-- Reads a number of at most `limit`, with an optional plus sign. -/
def readNat (limit : Nat) (cs : List Char) : Option Nat :=
  (readDigits (match cs with
    | '+' :: rest => rest
    | _ => cs)).filter (· ≤ limit)

/-- Reads an integer between two bounds, with an optional sign. -/
def readInt (low high : Int) (cs : List Char) : Option Int :=
  let n : Option Int := match cs with
    | '-' :: rest => (readDigits rest).map fun n => -(n : Int)
    | '+' :: rest => (readDigits rest).map fun n => (n : Int)
    | _ => (readDigits cs).map fun n => (n : Int)
  n.filter fun n => decide (low ≤ n ∧ n ≤ high)

end Numeral
end Text
end GuardedRepl
