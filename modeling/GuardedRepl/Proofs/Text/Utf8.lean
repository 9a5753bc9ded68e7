import GuardedRepl.Text.Utf8
import Mathlib.Tactic

/-!
# Encoded text

The bytes of a character are one leading byte and continuation bytes.  The decoder reads them back
as that character whatever comes after them, so it reads an encoded text back as it was.

**Results.**
* `next_encodeChar`, `decodeReplacing_encode`: what has been encoded is read back.
* `exists_cut`, `prefix_of_size_le`: where a limit of bytes falls in a text, and that the text
  before that character is the longest beginning that fits.
-/

namespace GuardedRepl
namespace Text
namespace Utf8

/-! ## The bytes of a character -/

theorem toNat_ofNat {n : Nat} (h : n < 256) : (UInt8.ofNat n).toNat = n :=
  UInt8.toNat_ofNat_of_lt' h

theorem isTail_iff {b : UInt8} : isTail b = true ↔ 0x80 ≤ b.toNat ∧ b.toNat ≤ 0xBF := by
  simp only [isTail, UInt8.le_iff_toNat_le, UInt8.reduceToNat, Bool.and_eq_true,
    decide_eq_true_eq]

/-- The continuation byte that carries the lowest six bits of a number. -/
def tailOf (n : Nat) : UInt8 :=
  UInt8.ofNat (n % 0x40 + 0x80)

theorem toNat_tailOf (n : Nat) : (tailOf n).toNat = n % 0x40 + 0x80 :=
  toNat_ofNat (by omega)

theorem isTail_tailOf (n : Nat) : isTail (tailOf n) = true := by
  have hn := toNat_tailOf n
  exact isTail_iff.mpr (by omega)

theorem payload_tailOf (n : Nat) : payload (tailOf n) = n % 0x40 := by
  rw [payload, toNat_tailOf]
  omega

theorem secondOfThree_of_isTail {a b : UInt8} (hb : isTail b = true)
    (hlow : a.toNat = 0xE0 → 0xA0 ≤ b.toNat) (hhigh : a.toNat = 0xED → b.toNat ≤ 0x9F) :
    secondOfThree a b = true := by
  obtain ⟨hge, hle⟩ := isTail_iff.mp hb
  simp only [secondOfThree, UInt8.le_iff_toNat_le, ← UInt8.toNat_inj, UInt8.reduceToNat]
  split_ifs with he0 hed
  · simp [hlow he0, hle]
  · simp [hhigh hed, hge]
  · exact hb

theorem secondOfFour_of_isTail {a b : UInt8} (hb : isTail b = true)
    (hlow : a.toNat = 0xF0 → 0x90 ≤ b.toNat) (hhigh : a.toNat = 0xF4 → b.toNat ≤ 0x8F) :
    secondOfFour a b = true := by
  obtain ⟨hge, hle⟩ := isTail_iff.mp hb
  simp only [secondOfFour, UInt8.le_iff_toNat_le, ← UInt8.toNat_inj, UInt8.reduceToNat]
  split_ifs with hf0 hf4
  · simp [hlow hf0, hle]
  · simp [hhigh hf4, hge]
  · exact hb

/-- A leading byte, by the number of continuation bytes that it announces. -/
inductive Leads (a : UInt8) : Nat → Prop
  | one : a.toNat < 0x80 → Leads a 0
  | two : 0xC0 ≤ a.toNat → a.toNat < 0xE0 → Leads a 1
  | three : 0xE0 ≤ a.toNat → a.toNat < 0xF0 → Leads a 2
  | four : 0xF0 ≤ a.toNat → a.toNat < 0xF8 → Leads a 3

/-- What the bytes of a character look like, and how they are read. -/
structure Spells (a : UInt8) (bs : List UInt8) (c : Char) : Prop where
  leads : Leads a bs.length
  tails : ∀ b ∈ bs, isTail b = true
  next (rest : List UInt8) : next a (bs ++ rest) = .char c rest

/-- The bytes of a character are read as that character, whatever comes after them. -/
theorem next_encodeChar (c : Char) : ∃ a bs, String.utf8EncodeChar c = a :: bs ∧ Spells a bs c := by
  have hvalid : c.toNat < 0xD800 ∨ 0xDFFF < c.toNat ∧ c.toNat < 0x110000 := c.valid
  have hback := Char.ofNat_toNat c
  rw [String.utf8EncodeChar]
  simp only [show c.val.toNat = c.toNat from rfl]
  generalize c.toNat = v at hvalid hback
  split_ifs with h1 h2 h3
  · have ha := toNat_ofNat (n := v) (by omega)
    refine ⟨_, [], rfl, ⟨.one (by omega), by simp, fun rest => ?_⟩⟩
    simp only [Utf8.next, UInt8.lt_iff_toNat_lt, ha, UInt8.reduceToNat, hback, List.nil_append]
    rw [if_pos (by omega)]
  · have ha := toNat_ofNat (n := v / 64 % 32 + 192) (by omega)
    refine ⟨_, [tailOf v], rfl,
      ⟨.two (by omega) (by omega), by simp [isTail_tailOf], fun rest => ?_⟩⟩
    simp only [Utf8.next, UInt8.lt_iff_toNat_lt, ha, UInt8.reduceToNat, List.cons_append,
      List.nil_append, isTail_tailOf, payload_tailOf]
    rw [if_neg (by omega), if_neg (by omega), if_pos (by omega), if_pos trivial,
      show (v / 64 % 32 + 192) % 32 * 64 + v % 64 = v by omega, hback]
  · have ha := toNat_ofNat (n := v / 4096 % 16 + 224) (by omega)
    have hb := toNat_tailOf (v / 64)
    refine ⟨_, [tailOf (v / 64), tailOf v], rfl,
      ⟨.three (by omega) (by omega), by simp [isTail_tailOf], fun rest => ?_⟩⟩
    simp only [Utf8.next, UInt8.lt_iff_toNat_lt, ha, UInt8.reduceToNat, List.cons_append,
      List.nil_append, isTail_tailOf, payload_tailOf]
    rw [if_neg (by omega), if_neg (by omega), if_neg (by omega), if_pos (by omega),
      if_pos (secondOfThree_of_isTail (isTail_tailOf _) (by omega) (by omega)), if_pos trivial,
      show ((v / 4096 % 16 + 224) % 16 * 64 + v / 64 % 64) * 64 + v % 64 = v by omega, hback]
  · have ha := toNat_ofNat (n := v / 262144 % 8 + 240) (by omega)
    have hb := toNat_tailOf (v / 4096)
    refine ⟨_, [tailOf (v / 4096), tailOf (v / 64), tailOf v], rfl,
      ⟨.four (by omega) (by omega), by simp [isTail_tailOf], fun rest => ?_⟩⟩
    simp only [Utf8.next, UInt8.lt_iff_toNat_lt, ha, UInt8.reduceToNat, List.cons_append,
      List.nil_append, isTail_tailOf, payload_tailOf]
    rw [if_neg (by omega), if_neg (by omega), if_neg (by omega), if_neg (by omega),
      if_pos (by omega), if_pos (secondOfFour_of_isTail (isTail_tailOf _) (by omega) (by omega)),
      if_pos trivial, if_pos trivial,
      show (((v / 262144 % 8 + 240) % 8 * 64 + v / 4096 % 64) * 64 + v / 64 % 64) * 64 + v % 64 = v
        by omega, hback]

/-! ## Texts -/

@[simp] theorem encode_nil : encode [] = [] := rfl

@[simp] theorem encode_cons (c : Char) (cs : List Char) :
    encode (c :: cs) = String.utf8EncodeChar c ++ encode cs := rfl

@[simp] theorem encode_append (cs ds : List Char) : encode (cs ++ ds) = encode cs ++ encode ds :=
  List.flatMap_append

theorem length_encode (cs : List Char) : (encode cs).length = size cs := by
  induction cs with
  | nil => rfl
  | cons c cs ih =>
      simp only [encode_cons, List.length_append, String.length_utf8EncodeChar, ih, size_cons]

/-- An encoded text is read back as it was. -/
theorem decodeReplacing_encode (cs : List Char) : decodeReplacing (encode cs) = cs := by
  have hgo : ∀ (cs done : List Char), decodeReplacing.go done (encode cs) = done.reverse ++ cs := by
    intro cs
    induction cs with
    | nil =>
        intro done
        simp [decodeReplacing.go]
    | cons c cs ih =>
        intro done
        obtain ⟨a, bs, hbytes, hspells⟩ := next_encodeChar c
        rw [encode_cons, hbytes, List.cons_append, decodeReplacing.go]
        split
        · next c' rest hnext =>
            rw [hspells.next] at hnext
            cases hnext
            rw [ih, List.reverse_cons, List.append_assoc, List.singleton_append]
        · next n rest hnext =>
            rw [hspells.next] at hnext
            cases hnext
        · next hnext =>
            rw [hspells.next] at hnext
            cases hnext
  exact hgo cs []

/-! ## Limits -/

/-- A limit that cuts a text off falls on one of its characters. -/
theorem exists_cut {limit : Nat} {cs : List Char} (h : limit < size cs) :
    ∃ p c rest, cs = p ++ c :: rest ∧ size p ≤ limit ∧ limit < size p + c.utf8Size := by
  induction cs generalizing limit with
  | nil => simp at h
  | cons c cs ih =>
      by_cases hc : limit < c.utf8Size
      · exact ⟨[], c, cs, rfl, Nat.zero_le _, by simpa using hc⟩
      · rw [size_cons] at h
        obtain ⟨p, d, rest, rfl, hp, hd⟩ := ih (show limit - c.utf8Size < size cs by omega)
        exact ⟨c :: p, d, rest, rfl, by rw [size_cons]; omega, by rw [size_cons]; omega⟩

/-- The text before the character that a limit falls on is the longest beginning that fits. -/
theorem prefix_of_size_le {limit : Nat} {p q rest : List Char} {c : Char}
    (hc : limit < size p + c.utf8Size) (hq : q <+: p ++ c :: rest) (hfits : size q ≤ limit) :
    q <+: p := by
  rcases List.prefix_or_prefix_of_prefix hq (List.prefix_append p (c :: rest)) with hqp | ⟨r, rfl⟩
  · exact hqp
  · have hr := (List.prefix_append_right_inj p).mp hq
    cases r with
    | nil => simp
    | cons d r =>
        obtain ⟨rfl, -⟩ := List.cons_prefix_cons.mp hr
        simp only [size_append, size_cons] at hfits
        omega

end Utf8
end Text
end GuardedRepl
