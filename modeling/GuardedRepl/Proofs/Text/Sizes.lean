import GuardedRepl.Proofs.Text.Utf8
import GuardedRepl.Text.Blank
import GuardedRepl.Text.Numeral
import Mathlib.Data.String.Basic
import Mathlib.Tactic

/-!
# Sizes of texts

How many bytes a text has at most that is cut out of another one, decoded from bytes, or the numeral
of a number.

**Results.**
* `Utf8.size_le_of_sublist`: what is left of a text when characters are left out.
* `Utf8.size_eq_length`: what is in ASCII.
* `Utf8.size_decode_le`: what is decoded.
* `Numeral.length_ofNat_le`: numerals.
-/

namespace GuardedRepl
namespace Text

namespace Utf8

theorem utf8ByteSize_ofList (cs : List Char) : (String.ofList cs).utf8ByteSize = size cs := by
  rw [String.utf8ByteSize_ofList]
  induction cs with
  | nil => rfl
  | cons c cs ih => rw [String.utf8Len_cons, size_cons, ih, Nat.add_comm]

theorem size_toList (s : String) : size s.toList = s.utf8ByteSize := by
  rw [← utf8ByteSize_ofList, String.ofList_toList]

theorem size_le_of_sublist {cs ds : List Char} (h : cs.Sublist ds) : size cs ≤ size ds := by
  induction h with
  | slnil => exact Nat.le_refl _
  | cons c _ ih => exact Nat.le_trans ih (Nat.le_add_left _ _)
  | cons_cons c _ ih => exact Nat.add_le_add_left ih _

/-- Where a text is cut is told by the bytes before the cut. -/
theorem append_inj_of_size {p q r s : List Char} (h : p ++ q = r ++ s) (hsize : size p = size r) :
    p = r ∧ q = s := by
  have hnil {t : List Char} (ht : size t = 0) : t = [] := by
    cases t with
    | nil => rfl
    | cons c t => simp [c.utf8Size_pos.ne'] at ht
  have hr : r <+: p ++ q := h ▸ List.prefix_append r s
  rcases List.prefix_or_prefix_of_prefix (List.prefix_append p q) hr with ⟨t, rfl⟩ | ⟨t, rfl⟩
  all_goals
    rw [size_append] at hsize
    obtain rfl := hnil (show size t = 0 by omega)
    simpa using h

theorem size_le_four_mul (cs : List Char) : size cs ≤ 4 * cs.length := by
  induction cs with
  | nil => exact Nat.le_refl _
  | cons c cs ih =>
      have hc := c.utf8Size_le_four
      simp only [size_cons, List.length_cons]
      omega

/-- A text in ASCII has one byte for each character. -/
theorem size_eq_length {cs : List Char} (h : ∀ c ∈ cs, c.toNat < 0x80) : size cs = cs.length := by
  induction cs with
  | nil => rfl
  | cons c cs ih =>
      rw [List.forall_mem_cons] at h
      have hone : c.utf8Size = 1 :=
        Char.utf8Size_eq_one_iff.mpr (UInt32.le_iff_toNat_le.mpr (Nat.le_of_lt_succ h.1))
      rw [size_cons, List.length_cons, hone, ih h.2, Nat.add_comm]

/-- The size of the character with a number. -/
theorem utf8Size_ofNat_le {n k : Nat} (h : (n < 0x80 ∧ 1 ≤ k) ∨ (n < 0x800 ∧ 2 ≤ k) ∨
    (n < 0x10000 ∧ 3 ≤ k) ∨ 4 ≤ k) : (Char.ofNat n).utf8Size ≤ k := by
  by_cases hvalid : n.isValidChar
  · have hval : (Char.ofNat n).val.toNat = n := by
      rw [Char.ofNat, dif_pos hvalid]
      rfl
    simp only [Char.utf8Size, UInt32.le_iff_toNat_le, hval, UInt32.toNat_ofNatLT]
    split_ifs <;> omega
  · have hzero : Char.ofNat n = '\x00' := by
      rw [Char.ofNat, dif_neg hvalid]
      rfl
    rw [hzero]
    have hone : Char.utf8Size '\x00' = 1 := rfl
    omega

/-- A character that is read has at most as many bytes as were read for it. -/
theorem utf8Size_next_le {a : UInt8} {bs rest : List UInt8} {c : Char}
    (h : next a bs = .char c rest) : c.utf8Size + rest.length ≤ bs.length + 1 := by
  have hpayload (b : UInt8) : payload b < 0x40 := Nat.mod_lt _ (by decide)
  unfold next at h
  repeat' split at h
  all_goals cases h
  · rename_i ha
    have hone := utf8Size_ofNat_le (k := 1) (Or.inl ⟨UInt8.lt_iff_toNat_lt.mp ha, Nat.le_refl _⟩)
    omega
  · rename_i b _
    have hb := hpayload b
    have htwo := utf8Size_ofNat_le (n := a.toNat % 0x20 * 0x40 + payload b) (k := 2) (by omega)
    simp only [List.length_cons]
    omega
  · rename_i b _ _ c _
    have hb := hpayload b
    have hc := hpayload c
    have hthree := utf8Size_ofNat_le
      (n := (a.toNat % 0x10 * 0x40 + payload b) * 0x40 + payload c) (k := 3) (by omega)
    simp only [List.length_cons]
    omega
  · simp only [List.length_cons]
    exact Nat.le_trans (Nat.add_le_add_right (Char.utf8Size_le_four _) _) (by omega)

theorem size_decode_go {index : Nat} {done cs : List Char} {bytes : List UInt8}
    (h : decode.go index done bytes = .ok cs) : size cs ≤ size done + bytes.length := by
  induction index, done, bytes using decode.go.induct with
  | case1 index done =>
      rw [decode.go] at h
      cases h
      rw [size_reverse]
      exact Nat.le_refl _
  | case2 index done a bs c rest hnext ih =>
      rw [decode.go] at h
      split at h
      · rename_i c' rest' hnext'
        rw [hnext] at hnext'
        cases hnext'
        have hsize := ih h
        have hchar := utf8Size_next_le hnext
        simp only [size_cons, List.length_cons] at hsize ⊢
        omega
      · cases h
      · cases h
  | case3 index done a bs n rest hnext =>
      rw [decode.go] at h
      split at h
      · rename_i c' rest' hnext'
        rw [hnext] at hnext'
        cases hnext'
      · cases h
      · cases h
  | case4 index done a bs hnext =>
      rw [decode.go] at h
      split at h
      · rename_i c' rest' hnext'
        rw [hnext] at hnext'
        cases hnext'
      · cases h
      · cases h

/-- A text has at most as many bytes as it was decoded from. -/
theorem size_decode_le {bytes : List UInt8} {cs : List Char} (h : decode bytes = .ok cs) :
    size cs ≤ bytes.length := by
  have hgo := size_decode_go h
  rwa [size_nil, Nat.zero_add] at hgo

end Utf8

theorem Numeral.length_ofNat_le {k n : Nat} (h : n < 10 ^ (k + 1)) :
    (Numeral.ofNat n).length ≤ k + 1 := by
  induction k generalizing n with
  | zero =>
      rw [Numeral.ofNat, if_pos (by omega)]
      exact Nat.le_refl _
  | succ k ih =>
      rw [Numeral.ofNat]
      split
      · exact Nat.le_add_left _ _
      · have hdiv : n / 10 < 10 ^ (k + 1) := by
          rw [Nat.div_lt_iff_lt_mul (by decide), ← Nat.pow_succ]
          exact h
        have hlen := ih hdiv
        rw [List.length_append, List.length_singleton]
        omega

theorem trim_sublist (cs : List Char) : (trim cs).Sublist cs := by
  have hend : (trimEnd (trimStart cs)).Sublist (trimStart cs) := by
    rw [← List.reverse_sublist, trimEnd, List.reverse_reverse]
    exact List.dropWhile_sublist _
  exact hend.trans (List.dropWhile_sublist _)

end Text

end GuardedRepl
