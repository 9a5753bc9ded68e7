import GuardedRepl.Text.Utf8
import Mathlib.Tactic

/-!
# Cuts

A text that is cut at a number of bytes keeps whole characters only: the longest beginning that has
no more bytes than that, or the longest end.  A beginning and an end that have fewer bytes than the
text do not overlap.

**Results.**
* `longest_takeBytes`, `longestEnd_takeLastBytes`: a cut is the longest beginning or end that fits.
* `exists_between`: what stands between a beginning and an end.
-/

namespace GuardedRepl
namespace Text
namespace Utf8

/-- This is the longest beginning of a text that has at most `limit` bytes. -/
structure Longest (limit : Nat) (cs front : List Char) : Prop where
  begins : front <+: cs
  fits : size front ≤ limit
  longest : ∀ q, q <+: cs → size q ≤ limit → q <+: front

/-- This is the longest end of a text that has at most `limit` bytes. -/
structure LongestEnd (limit : Nat) (cs back : List Char) : Prop where
  ends : back <:+ cs
  fits : size back ≤ limit
  longest : ∀ q, q <:+ cs → size q ≤ limit → q <:+ back

theorem longest_nil {limit : Nat} {c : Char} (hc : limit < c.utf8Size) (cs : List Char) :
    Longest limit (c :: cs) [] where
  begins := List.nil_prefix
  fits := Nat.zero_le _
  longest := by
    rintro (_ | ⟨d, q⟩) hq hfits
    · exact List.nil_prefix
    · obtain ⟨rfl, -⟩ := List.cons_prefix_cons.mp hq
      rw [size_cons] at hfits
      omega

theorem Longest.cons {limit : Nat} {c : Char} {cs front : List Char}
    (h : Longest (limit - c.utf8Size) cs front) (hc : c.utf8Size ≤ limit) :
    Longest limit (c :: cs) (c :: front) where
  begins := (List.prefix_cons_inj c).mpr h.begins
  fits := by
    have hfits := h.fits
    rw [size_cons]
    omega
  longest := by
    rintro (_ | ⟨d, q⟩) hq hfits
    · exact List.nil_prefix
    · obtain ⟨rfl, htail⟩ := List.cons_prefix_cons.mp hq
      rw [size_cons] at hfits
      exact (List.prefix_cons_inj d).mpr (h.longest q htail (by omega))

theorem longest_takeBytes (limit : Nat) (cs : List Char) :
    Longest limit cs (takeBytes limit cs) := by
  have hgo : ∀ (cs : List Char) (limit : Nat) (taken : List Char), ∃ front,
      takeBytes.go limit taken cs = taken.reverse ++ front ∧ Longest limit cs front := by
    intro cs
    induction cs with
    | nil =>
        intro limit taken
        exact ⟨[], by simp [takeBytes.go], List.nil_prefix, Nat.zero_le _, fun q hq _ => hq⟩
    | cons c cs ih =>
        intro limit taken
        rw [takeBytes.go]
        split_ifs with hc
        · obtain ⟨front, hgo, hfront⟩ := ih (limit - c.utf8Size) (c :: taken)
          exact ⟨c :: front, by rw [hgo]; simp, hfront.cons hc⟩
        · exact ⟨[], by simp, longest_nil (by omega) cs⟩
  obtain ⟨front, hfront, hlongest⟩ := hgo cs limit []
  rw [takeBytes, hfront]
  exact hlongest

theorem Longest.reverse {limit : Nat} {cs front : List Char} (h : Longest limit cs.reverse front) :
    LongestEnd limit cs front.reverse where
  ends := List.reverse_prefix.mp (by rw [List.reverse_reverse]; exact h.begins)
  fits := by rw [size_reverse]; exact h.fits
  longest := fun q hq hfits => by
    have hfront := h.longest q.reverse (List.reverse_prefix.mpr hq) (by rwa [size_reverse])
    exact List.reverse_prefix.mp (by rwa [List.reverse_reverse])

theorem longestEnd_takeLastBytes (limit : Nat) (cs : List Char) :
    LongestEnd limit cs (takeLastBytes limit cs) :=
  (longest_takeBytes limit cs.reverse).reverse

/-- A beginning and an end of a text that have fewer bytes than the text leave something between
them. -/
theorem exists_between {cs front back : List Char} (hfront : front <+: cs) (hback : back <:+ cs)
    (hsize : size front + size back < size cs) : ∃ gap, cs = front ++ gap ++ back := by
  obtain ⟨rest, rfl⟩ := hfront
  rw [size_append] at hsize
  rcases List.suffix_or_suffix_of_suffix hback (List.suffix_append front rest) with h | h
  · obtain ⟨gap, rfl⟩ := h
    exact ⟨gap, (List.append_assoc _ _ _).symm⟩
  · obtain ⟨overlap, rfl⟩ := h
    rw [size_append] at hsize
    omega

end Utf8
end Text
end GuardedRepl
