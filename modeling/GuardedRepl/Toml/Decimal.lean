/-!
# The range of decimal numbers

Which decimal numbers are in the range of floating point numbers of 64 bits.  A number is in the
range if the floating point number next to it is not infinite.
-/

namespace GuardedRepl
namespace Toml
namespace Decimal

/-- The least number that is rounded to infinity.  It lies half a unit of the last place above the
greatest floating point number, and in binary it has 54 ones and 970 zeros. -/
def bound : Nat :=
  0x3FFFFFFFFFFFFF <<< 970

/-- The number of digits of `bound`. -/
def boundDigits : Nat := 309

/-- Whether `n` times the power of ten with the exponent `scale` is in the range.  A power is worked
out only if the number has as many digits as the bound. -/
def inRange (n : Nat) (scale : Int) : Bool :=
  let length : Int := (Nat.toDigits 10 n).length + scale
  n = 0 || length < boundDigits ||
    (length = boundDigits &&
      n * Nat.pow 10 scale.toNat < bound * Nat.pow 10 (-scale).toNat)

end Decimal
end Toml
end GuardedRepl
