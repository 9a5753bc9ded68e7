import GuardedRepl.Value.Operation
import Mathlib.Tactic

/-!
# The arithmetic of words

Every operation on words is one on integers whose result is reduced to a word.  A quotient is cut
off towards zero; what remains behind it has the sign of the dividend.  The other remainder has the
sign of the divisor: where the two signs differ the divisor is added, and that sum is never too
large for a word.

**Results.**
* `isWordOf_iff`: an integer is reduced to exactly one word.
* `computes_arithInt`: sums, differences, products, quotients and remainders.
* `floors_floorMod`: the remainder with the sign of the divisor is the only one there is.
-/

namespace GuardedRepl
namespace Value

open Syntax (ArithOp)

/-! ## Words of integers -/

/-- The word that an integer is reduced to: they differ by a multiple of `2 ^ 64`. -/
def IsWordOf (z : Int) (c : Int64) : Prop :=
  c.toInt ≡ z [ZMOD 2 ^ 64]

theorem isWordOf_of_toInt {z : Int} {c : Int64} (hc : c.toInt = z.bmod (2 ^ 64)) :
    IsWordOf z c := by
  unfold IsWordOf Int.ModEq
  rw [hc]
  exact Int.bmod_emod

/-- An integer is reduced to exactly one word. -/
theorem isWordOf_iff {z : Int} {c : Int64} : IsWordOf z c ↔ c = Int64.ofInt z := by
  constructor
  · intro hc
    have hlow := Int64.le_toInt c
    have hhigh := Int64.toInt_lt c
    rw [← Int64.toInt_inj, Int64.toInt_ofInt, eq_comm]
    refine (Int.bmod_eq_iff (by decide)).mpr ⟨hlow, hhigh, ?_⟩
    exact Int.modEq_iff_dvd.mp hc.symm
  · rintro rfl
    exact isWordOf_of_toInt Int64.toInt_ofInt

theorem isWordOf_self (c : Int64) : IsWordOf c.toInt c :=
  Int.ModEq.refl _

theorem isWordOf_neg (a : Int64) : IsWordOf (-a.toInt) (-a) :=
  isWordOf_of_toInt (Int64.toInt_neg a)

theorem isWordOf_add (a b : Int64) : IsWordOf (a.toInt + b.toInt) (a + b) :=
  isWordOf_of_toInt (Int64.toInt_add a b)

theorem lt_zero_iff {a : Int64} : a < 0 ↔ a.toInt < 0 :=
  Int64.lt_iff_toInt_lt

/-- A word below zero is negated, and any other one is left as it is. -/
theorem abs_eq (a : Int64) : a.abs = if a < 0 then -a else a := by
  have hmsb : a.toBitVec.msb = true ↔ a < 0 := by
    rw [BitVec.msb_eq_toInt, decide_eq_true_eq, lt_zero_iff]
    rfl
  rw [← Int64.toBitVec_inj, Int64.toBitVec_abs, BitVec.abs_eq]
  by_cases ha : a < 0
  · rw [if_pos (hmsb.mpr ha), if_pos ha, Int64.toBitVec_neg]
  · rw [if_neg (mt hmsb.mp ha), if_neg ha]

theorem isWordOf_abs (a : Int64) : IsWordOf |a.toInt| a.abs := by
  rw [abs_eq]
  by_cases ha : a < 0
  · rw [if_pos ha, abs_of_neg (lt_zero_iff.mp ha)]
    exact isWordOf_neg a
  · rw [if_neg ha, abs_of_nonneg (not_lt.mp (mt lt_zero_iff.mpr ha))]
    exact isWordOf_self a

/-! ## Remainders -/

/-- A remainder of a division by `b`: smaller than `b`, and zero or of the sign of `side`. -/
structure Remainder (side b r : Int) : Prop where
  small : |r| < |b|
  sign : r = 0 ∨ r.sign = side.sign

/-- What is left of an integer behind its quotient has the sign of the integer. -/
theorem remainder_tmod (a : Int) {b : Int} (hb : b ≠ 0) : Remainder a b (a.tmod b) where
  small := by
    rw [Int.abs_eq_natAbs, Int.abs_eq_natAbs, Int.natAbs_tmod]
    exact_mod_cast Nat.mod_lt _ (Int.natAbs_pos.mpr hb)
  sign := by
    rw [Int.sign_tmod]
    by_cases hdvd : b ∣ a
    · exact Or.inl (Int.tmod_eq_zero_of_dvd hdvd)
    · exact Or.inr (if_neg hdvd)

theorem remainder_iff_of_pos {b r : Int} (hb : 0 < b) : Remainder b b r ↔ 0 ≤ r ∧ r < b := by
  constructor
  · rintro ⟨hsmall, hsign⟩
    rw [abs_of_pos hb, abs_lt] at hsmall
    rw [Int.sign_eq_one_of_pos hb, Int.sign_eq_one_iff_pos] at hsign
    omega
  · rintro ⟨hlow, hhigh⟩
    refine ⟨by rwa [abs_of_pos hb, abs_of_nonneg hlow], ?_⟩
    rw [Int.sign_eq_one_of_pos hb, Int.sign_eq_one_iff_pos]
    omega

theorem remainder_iff_of_neg {b r : Int} (hb : b < 0) : Remainder b b r ↔ b < r ∧ r ≤ 0 := by
  constructor
  · rintro ⟨hsmall, hsign⟩
    rw [abs_of_neg hb, abs_lt] at hsmall
    rw [Int.sign_eq_neg_one_of_neg hb, Int.sign_eq_neg_one_iff_neg] at hsign
    omega
  · rintro ⟨hlow, hhigh⟩
    refine ⟨by rw [abs_of_neg hb, abs_of_nonpos hhigh]; omega, ?_⟩
    rw [Int.sign_eq_neg_one_of_neg hb, Int.sign_eq_neg_one_iff_neg]
    omega

/-- On the side of the divisor there is only one remainder in every class. -/
theorem Remainder.eq {b r r' : Int} (hb : b ≠ 0) (h : Remainder b b r) (h' : Remainder b b r')
    (hrr : r ≡ r' [ZMOD b]) : r = r' := by
  have hdvd : b ∣ r' - r := Int.modEq_iff_dvd.mp hrr
  have hclose : |r' - r| < |b| := by
    rcases lt_or_gt_of_ne hb with hneg | hpos
    · rw [remainder_iff_of_neg hneg] at h h'
      rw [abs_of_neg hneg, abs_lt]
      omega
    · rw [remainder_iff_of_pos hpos] at h h'
      rw [abs_of_pos hpos, abs_lt]
      omega
  exact (sub_eq_zero.mp (Int.eq_zero_of_abs_lt_dvd ((abs_dvd b _).mpr hdvd) hclose)).symm

/-- An integer smaller than the divisor is moved to its side by adding the divisor. -/
theorem remainder_move {b r : Int} (hsmall : |r| < |b|) :
    Remainder b b (if r ≠ 0 ∧ ¬(r < 0 ↔ b < 0) then r + b else r) := by
  rcases lt_trichotomy b 0 with hneg | rfl | hpos
  · rw [abs_of_neg hneg, abs_lt] at hsmall
    rw [remainder_iff_of_neg hneg]
    split <;> omega
  · exact absurd hsmall (by simp)
  · rw [abs_of_pos hpos, abs_lt] at hsmall
    rw [remainder_iff_of_pos hpos]
    split <;> omega

/-! ## The operations -/

/-- The class of an exception that tells of a division by zero. -/
def IsDivisionByZero (e : Exception) : Prop :=
  e.thrown.cls = "java.lang.ArithmeticException"

/-- What an operation makes of two words. -/
inductive Computes : ArithOp → Int64 → Int64 → Except Exception Int64 → Prop
  | add {a b c : Int64} : IsWordOf (a.toInt + b.toInt) c → Computes .add a b (.ok c)
  | sub {a b c : Int64} : IsWordOf (a.toInt - b.toInt) c → Computes .sub a b (.ok c)
  | mul {a b c : Int64} : IsWordOf (a.toInt * b.toInt) c → Computes .mul a b (.ok c)
  /-- A quotient is cut off towards zero. -/
  | div {a b q : Int64} : b ≠ 0 → IsWordOf (a.toInt.tdiv b.toInt) q → Computes .div a b (.ok q)
  /-- A remainder is on the side of the dividend, which it makes up with the quotient. -/
  | rem {a b q r : Int64} : b ≠ 0 → Remainder a.toInt b.toInt r.toInt →
      Computes .div a b (.ok q) → IsWordOf (q.toInt * b.toInt + r.toInt) a →
      Computes .rem a b (.ok r)
  | divByZero {a : Int64} {e : Exception} : IsDivisionByZero e → Computes .div a 0 (.error e)
  | remByZero {a : Int64} {e : Exception} : IsDivisionByZero e → Computes .rem a 0 (.error e)

theorem toInt_ne_zero_iff {b : Int64} : b.toInt ≠ 0 ↔ b ≠ 0 := by
  rw [← Int64.toInt_zero, ne_eq, Int64.toInt_inj]

theorem isWordOf_div (a b : Int64) : IsWordOf (a.toInt.tdiv b.toInt) (a / b) :=
  isWordOf_of_toInt (Int64.toInt_div a b)

/-- Quotient and remainder make up the dividend. -/
theorem isWordOf_div_mul_add_mod (a b : Int64) :
    IsWordOf ((a / b).toInt * b.toInt + (a % b).toInt) a := by
  have hquot : (a / b).toInt ≡ a.toInt.tdiv b.toInt [ZMOD 2 ^ 64] := isWordOf_div a b
  have hexact : a.toInt.tdiv b.toInt * b.toInt + (a % b).toInt = a.toInt := by
    rw [Int64.toInt_mod, Int.tdiv_mul_add_tmod]
  have hsum := (hquot.mul_right b.toInt).add_right (a % b).toInt
  rw [hexact] at hsum
  exact hsum.symm

theorem remainder_mod (a : Int64) {b : Int64} (hb : b ≠ 0) :
    Remainder a.toInt b.toInt (a % b).toInt := by
  rw [Int64.toInt_mod]
  exact remainder_tmod a.toInt (toInt_ne_zero_iff.mpr hb)

/-- The operations are those on integers, reduced to words. -/
theorem computes_arithInt (op : ArithOp) (a b : Int64) : Computes op a b (arithInt op a b) := by
  cases op with
  | add => exact .add (isWordOf_add a b)
  | sub => exact .sub (isWordOf_of_toInt (Int64.toInt_sub a b))
  | mul => exact .mul (isWordOf_of_toInt (Int64.toInt_mul a b))
  | div =>
    by_cases hb : b = 0
    · subst hb
      exact .divByZero rfl
    · simp only [arithInt, if_neg hb]
      exact .div hb (isWordOf_div a b)
  | rem =>
    by_cases hb : b = 0
    · subst hb
      exact .remByZero rfl
    · simp only [arithInt, if_neg hb]
      exact .rem hb (remainder_mod a hb) (.div hb (isWordOf_div a b)) (isWordOf_div_mul_add_mod a b)

/-- The smallest word divided by minus one is out of range, and reduced to itself. -/
example : arithInt .div Int64.minValue (-1) = .ok Int64.minValue := by decide

/-! ## The remainder on the side of the divisor -/

/-- The remainder is not yet on the side of the divisor. -/
def Moves (a b : Int64) : Prop :=
  a % b ≠ 0 ∧ ¬(a % b < 0 ↔ b < 0)

/-- The remainder on the side of the divisor, and how it comes about. -/
structure FloorRemainder (a b r : Int64) : Prop where
  congruent : r.toInt ≡ a.toInt [ZMOD b.toInt]
  remainder : Remainder b.toInt b.toInt r.toInt
  only : ∀ z : Int, z ≡ a.toInt [ZMOD b.toInt] → Remainder b.toInt b.toInt z → z = r.toInt
  kept : ¬Moves a b → r = a % b
  /-- The sum that is taken is in the range of the words. -/
  moved : Moves a b → r = a % b + b ∧ -2 ^ 63 ≤ (a % b).toInt + b.toInt ∧
    (a % b).toInt + b.toInt < 2 ^ 63

/-- What the remainder on the side of the divisor is for two words. -/
inductive Floors (a : Int64) : Int64 → Except Exception Int64 → Prop
  | remainder {b r : Int64} : b ≠ 0 → FloorRemainder a b r → Floors a b (.ok r)
  | byZero {e : Exception} : IsDivisionByZero e → Floors a 0 (.error e)

theorem mod_modEq (a b : Int64) : (a % b).toInt ≡ a.toInt [ZMOD b.toInt] := by
  rw [Int64.toInt_mod]
  refine Int.modEq_iff_dvd.mpr ⟨a.toInt.tdiv b.toInt, ?_⟩
  rw [sub_eq_iff_eq_add]
  exact (Int.mul_tdiv_add_tmod a.toInt b.toInt).symm

theorem moves_iff {a b : Int64} :
    Moves a b ↔ (a % b).toInt ≠ 0 ∧ ¬((a % b).toInt < 0 ↔ b.toInt < 0) := by
  rw [Moves, lt_zero_iff, lt_zero_iff, toInt_ne_zero_iff]

theorem moves_iff_test {a b : Int64} :
    Moves a b ↔ (a % b ≠ 0 && (decide (a % b < 0) != decide (b < 0))) = true := by
  rw [Moves, Bool.and_eq_true, decide_eq_true_eq, bne_iff_ne, ne_eq (decide _), decide_eq_decide]

theorem floorMod_of_moves {a b : Int64} (hb : b ≠ 0) (h : Moves a b) :
    floorMod a b = .ok (a % b + b) := by
  simp only [floorMod, if_neg hb, if_pos (moves_iff_test.mp h)]

theorem floorMod_of_not_moves {a b : Int64} (hb : b ≠ 0) (h : ¬Moves a b) :
    floorMod a b = .ok (a % b) := by
  simp only [floorMod, if_neg hb, if_neg (mt moves_iff_test.mpr h)]

/-- The divisor is added to a remainder of the other sign, so the sum lies between the two. -/
theorem Moves.range {a b : Int64} (h : Moves a b) :
    -2 ^ 63 ≤ (a % b).toInt + b.toInt ∧ (a % b).toInt + b.toInt < 2 ^ 63 := by
  obtain ⟨-, hsides⟩ := moves_iff.mp h
  have hr := Int64.le_toInt (a % b)
  have hr' := Int64.toInt_lt (a % b)
  have hb := Int64.le_toInt b
  have hb' := Int64.toInt_lt b
  omega

theorem toInt_add_of_range {a b : Int64}
    (h : -2 ^ 63 ≤ a.toInt + b.toInt ∧ a.toInt + b.toInt < 2 ^ 63) :
    (a + b).toInt = a.toInt + b.toInt := by
  rw [Int64.toInt_add]
  exact Int.bmod_eq_of_le h.1 h.2

/-- There is one remainder on the side of the divisor, and it is the one that is computed. -/
theorem floors_floorMod (a b : Int64) : Floors a b (floorMod a b) := by
  by_cases hb : b = 0
  · subst hb
    exact .byZero rfl
  have hzero := toInt_ne_zero_iff.mpr hb
  have hmove := remainder_move (remainder_mod a hb).small
  by_cases hmoves : Moves a b
  · rw [floorMod_of_moves hb hmoves]
    rw [if_pos (moves_iff.mp hmoves), ← toInt_add_of_range hmoves.range] at hmove
    have hcongruent : (a % b + b).toInt ≡ a.toInt [ZMOD b.toInt] := by
      rw [toInt_add_of_range hmoves.range]
      exact Int.add_modEq_right.trans (mod_modEq a b)
    exact .remainder hb {
      congruent := hcongruent
      remainder := hmove
      only := fun z hz hrem => hrem.eq hzero hmove (hz.trans hcongruent.symm)
      kept := fun h => absurd hmoves h
      moved := fun _ => ⟨rfl, hmoves.range⟩ }
  · rw [floorMod_of_not_moves hb hmoves]
    rw [if_neg (mt moves_iff.mpr hmoves)] at hmove
    exact .remainder hb {
      congruent := mod_modEq a b
      remainder := hmove
      only := fun z hz hrem => hrem.eq hzero hmove (hz.trans (mod_modEq a b).symm)
      kept := fun _ => rfl
      moved := fun h => absurd h hmoves }

example : floorMod (-7) 3 = .ok 2 ∧ floorMod 7 (-3) = .ok (-2) := by decide

end Value
end GuardedRepl
