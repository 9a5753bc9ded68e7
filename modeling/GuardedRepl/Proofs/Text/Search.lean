import GuardedRepl.Proofs.Text.Sizes
import GuardedRepl.Text.Search
import Mathlib.Order.Bounds.Basic

/-!
# Searching texts

A search finds the first place where a text stands inside another one, and it finds one whenever
there is one.  The bytes of a text can be searched instead: a byte that begins a character never
continues one, so the bytes of a text stand nowhere but at the beginning of a character, and the first
place among the bytes is that among the characters.

**Results.**
* `indexOf?_eq_some_iff`, `indexOf?_eq_none_iff`: what is found.
* `indexOf?_append`, `indexOf?_of_append`: what stands behind the place does not matter.
* `encode_prefix_drop_iff`: where the bytes of a text stand.
* `isLeast_bytes`, `encode_infix_iff`: a search among the bytes finds the same place.
-/

namespace GuardedRepl
namespace Text

/-! ## The first place -/

/-- The position `k` is the first one at which `needle` stands. -/
structure FirstAt (needle cs : List Char) (k : Nat) : Prop where
  stands : needle <+: cs.drop k
  le_length : k ≤ cs.length
  first : ∀ j < k, ¬needle <+: cs.drop j

theorem FirstAt.eq {needle cs : List Char} {j k : Nat} (hj : FirstAt needle cs j)
    (hk : FirstAt needle cs k) : j = k := by
  rcases Nat.lt_trichotomy j k with h | h | h
  · exact absurd hj.stands (hk.first j h)
  · exact h
  · exact absurd hk.stands (hj.first k h)

theorem FirstAt.cons {needle cs : List Char} {c : Char} {k : Nat} (h : FirstAt needle cs k)
    (hfront : ¬needle <+: c :: cs) : FirstAt needle (c :: cs) (k + 1) where
  stands := h.stands
  le_length := Nat.succ_le_succ h.le_length
  first := by
    rintro (_ | j) hj
    · exact hfront
    · exact h.first j (Nat.lt_of_succ_lt_succ hj)

/-- The search from position `k` on. -/
theorem indexOf?_go_cases (needle : List Char) (k : Nat) (cs : List Char) :
    (∃ n, indexOf?.go needle k cs = some (k + n) ∧ FirstAt needle cs n) ∨
      (indexOf?.go needle k cs = none ∧ ¬needle <:+: cs) := by
  induction cs generalizing k with
  | nil =>
      rw [indexOf?.go]
      split_ifs with hempty
      · obtain rfl := List.isEmpty_iff.mp hempty
        exact Or.inl ⟨0, rfl, List.prefix_rfl, Nat.le_refl _, fun j hj => absurd hj (Nat.not_lt_zero j)⟩
      · rw [List.infix_nil, ← List.isEmpty_iff]
        exact Or.inr ⟨rfl, hempty⟩
  | cons c cs ih =>
      rw [indexOf?.go]
      simp only [List.isPrefixOf_iff_prefix]
      split_ifs with hfront
      · exact Or.inl ⟨0, rfl, hfront, Nat.zero_le _, fun j hj => absurd hj (Nat.not_lt_zero j)⟩
      · rcases ih (k + 1) with ⟨n, hgo, hfirst⟩ | ⟨hgo, hnone⟩
        · exact Or.inl ⟨n + 1, by rw [hgo, Nat.add_right_comm, Nat.add_assoc], hfirst.cons hfront⟩
        · exact Or.inr ⟨hgo, fun hinfix => (List.infix_cons_iff.mp hinfix).elim hfront hnone⟩

theorem FirstAt.isInfix {needle cs : List Char} {k : Nat} (h : FirstAt needle cs k) :
    needle <:+: cs :=
  h.stands.isInfix.trans (List.drop_suffix k cs).isInfix

/-- The search finds the first place. -/
theorem indexOf?_eq_some_iff {needle cs : List Char} {k : Nat} :
    indexOf? needle cs = some k ↔ FirstAt needle cs k := by
  rw [indexOf?]
  rcases indexOf?_go_cases needle 0 cs with ⟨n, hgo, hfirst⟩ | ⟨hgo, hnone⟩
  · rw [hgo, Nat.zero_add, Option.some.injEq]
    exact ⟨fun h => h ▸ hfirst, fun h => hfirst.eq h⟩
  · simp only [hgo, reduceCtorEq, false_iff]
    exact fun h => hnone h.isInfix

/-- The search finds nothing only where there is nothing. -/
theorem indexOf?_eq_none_iff {needle cs : List Char} :
    indexOf? needle cs = none ↔ ¬needle <:+: cs := by
  rw [indexOf?]
  rcases indexOf?_go_cases needle 0 cs with ⟨n, hgo, hfirst⟩ | ⟨hgo, hnone⟩
  · simp only [hgo, reduceCtorEq, false_iff, not_not]
    exact hfirst.isInfix
  · simp only [hgo, true_iff]
    exact hnone

/-- What stands before the place and behind it. -/
theorem FirstAt.split {needle cs : List Char} {k : Nat} (h : FirstAt needle cs k) :
    ∃ w rest, cs = w ++ needle ++ rest ∧ k = w.length := by
  obtain ⟨rest, hrest⟩ := h.stands
  refine ⟨cs.take k, rest, ?_, ?_⟩
  · rw [List.append_assoc, hrest, List.take_append_drop]
  · rw [List.length_take, Nat.min_eq_left h.le_length]

theorem FirstAt.length_le {needle cs : List Char} {k : Nat} (h : FirstAt needle cs k) :
    k + needle.length ≤ cs.length := by
  have hle := h.stands.length_le
  have hk := h.le_length
  rw [List.length_drop] at hle
  omega

theorem prefix_drop_append_iff {needle cs rest : List Char} {j : Nat}
    (h : j + needle.length ≤ cs.length) :
    needle <+: (cs ++ rest).drop j ↔ needle <+: cs.drop j := by
  rw [List.drop_append_of_le_length (by omega)]
  refine ⟨fun hlong => ?_, fun hshort => hshort.trans (List.prefix_append _ _)⟩
  exact List.prefix_of_prefix_length_le hlong (List.prefix_append _ _)
    (by rw [List.length_drop]; omega)

theorem indexOf?_append {needle cs : List Char} {k : Nat} (h : indexOf? needle cs = some k)
    (rest : List Char) : indexOf? needle (cs ++ rest) = some k := by
  rw [indexOf?_eq_some_iff] at h ⊢
  have hk := h.length_le
  refine ⟨(prefix_drop_append_iff hk).mpr h.stands, ?_, fun j hj hlong => ?_⟩
  · exact h.le_length.trans (List.prefix_append cs rest).length_le
  · exact h.first j hj ((prefix_drop_append_iff (by omega)).mp hlong)

theorem indexOf?_of_append {needle cs rest : List Char} {k : Nat}
    (h : indexOf? needle (cs ++ rest) = some k) (hk : k + needle.length ≤ cs.length) :
    indexOf? needle cs = some k := by
  rw [indexOf?_eq_some_iff] at h ⊢
  refine ⟨(prefix_drop_append_iff hk).mp h.stands, by omega, fun j hj hshort => ?_⟩
  exact h.first j hj ((prefix_drop_append_iff (by omega)).mpr hshort)

/-! ## Searching among bytes -/

open Utf8

theorem isTail_eq_false_of_leads {a : UInt8} {n : Nat} (h : Leads a n) : isTail a = false := by
  rw [Bool.eq_false_iff, ne_eq, isTail_iff]
  cases h <;> omega

/-- The first character can be told by the bytes. -/
theorem encode_cons_append_inj {c d : Char} {cs ds : List Char} {more : List UInt8}
    (h : encode (c :: cs) ++ more = encode (d :: ds)) : c = d ∧ encode cs ++ more = encode ds := by
  obtain ⟨a, as, hc, hac⟩ := next_encodeChar c
  obtain ⟨b, bs, hd, hbd⟩ := next_encodeChar d
  rw [encode_cons, encode_cons, hc, hd, List.append_assoc, List.cons_append, List.cons_append,
    List.cons.injEq] at h
  obtain ⟨rfl, htail⟩ := h
  have hread := hac.next (encode cs ++ more)
  rw [htail, hbd.next, Chunk.char.injEq] at hread
  exact ⟨hread.1.symm, hread.2.symm⟩

theorem encode_prefix_iff {cs ds : List Char} : encode cs <+: encode ds ↔ cs <+: ds := by
  refine ⟨fun h => ?_, fun ⟨rest, hrest⟩ => ⟨encode rest, by rw [← hrest, encode_append]⟩⟩
  induction cs generalizing ds with
  | nil => exact List.nil_prefix
  | cons c cs ih =>
      obtain ⟨more, hmore⟩ := h
      cases ds with
      | nil =>
          have hlength := congrArg List.length hmore
          have hpos := c.utf8Size_pos
          rw [List.length_append, length_encode, size_cons, encode_nil, List.length_nil] at hlength
          omega
      | cons d ds =>
          obtain ⟨rfl, htail⟩ := encode_cons_append_inj hmore
          exact (List.prefix_cons_inj c).mpr (ih ⟨more, htail⟩)

theorem drop_encode (p rest : List Char) : (encode (p ++ rest)).drop (size p) = encode rest := by
  rw [encode_append, ← length_encode, List.drop_left]

/-- Bytes that begin a character stand nowhere but where a character begins. -/
theorem exists_boundary {c : Char} {needle cs : List Char} {n : Nat}
    (h : encode (c :: needle) <+: (encode cs).drop n) :
    ∃ p rest, cs = p ++ rest ∧ size p = n := by
  obtain ⟨a, as, hc, hleads⟩ := next_encodeChar c
  obtain ⟨more, hmore⟩ := h
  rw [encode_cons, hc, List.cons_append, List.cons_append] at hmore
  induction cs generalizing n with
  | nil => simp at hmore
  | cons d cs ih =>
      obtain ⟨b, bs, hd, htails⟩ := next_encodeChar d
      have hsize : d.utf8Size = bs.length + 1 := by
        rw [← String.length_utf8EncodeChar, hd, List.length_cons]
      rw [encode_cons, hd] at hmore
      rcases Nat.lt_or_ge n d.utf8Size with hn | hn
      · cases n with
        | zero => exact ⟨[], d :: cs, rfl, rfl⟩
        | succ n =>
            -- Inside of a character only continuation bytes are found.
            have hlt : n < bs.length := by omega
            rw [List.cons_append, List.drop_succ_cons,
              List.drop_append_of_le_length (Nat.le_of_lt hlt),
              List.drop_eq_getElem_cons hlt] at hmore
            have ha : a = bs[n] := (List.cons.inj hmore).1
            have htail := htails.tails bs[n] (List.getElem_mem hlt)
            rw [← ha, isTail_eq_false_of_leads hleads.leads] at htail
            cases htail
      · have hlength : (b :: bs).length ≤ n := by
          rw [List.length_cons]
          omega
        rw [List.drop_append, List.drop_eq_nil_of_le hlength, List.nil_append] at hmore
        obtain ⟨p, rest, rfl, hp⟩ := ih hmore
        refine ⟨d :: p, rest, rfl, ?_⟩
        rw [size_cons, hp, hsize, List.length_cons]
        omega

/-- The bytes of a text stand where the text does. -/
theorem encode_prefix_drop_iff {needle cs : List Char} (hneedle : needle ≠ []) {n : Nat} :
    encode needle <+: (encode cs).drop n ↔
      ∃ p rest, cs = p ++ rest ∧ size p = n ∧ needle <+: rest := by
  constructor
  · intro h
    obtain ⟨c, needle, rfl⟩ := List.exists_cons_of_ne_nil hneedle
    obtain ⟨p, rest, rfl, rfl⟩ := exists_boundary h
    rw [drop_encode, encode_prefix_iff] at h
    exact ⟨p, rest, rfl, rfl, h⟩
  · rintro ⟨p, rest, rfl, rfl, h⟩
    rw [drop_encode, encode_prefix_iff]
    exact h

/-- Among the bytes the first place is that among the characters. -/
theorem isLeast_bytes {needle cs : List Char} {k : Nat} (h : FirstAt needle cs k) :
    IsLeast {n | encode needle <+: (encode cs).drop n} (size (cs.take k)) := by
  constructor
  · show encode needle <+: (encode cs).drop (size (cs.take k))
    have hdrop := drop_encode (cs.take k) (cs.drop k)
    rw [List.take_append_drop] at hdrop
    rw [hdrop, encode_prefix_iff]
    exact h.stands
  · intro n hn
    by_cases hneedle : needle = []
    · have hk : k = 0 := by
        by_contra hne
        exact h.first 0 (Nat.pos_of_ne_zero hne) (hneedle ▸ List.nil_prefix)
      rw [hk]
      exact Nat.zero_le n
    · obtain ⟨p, rest, rfl, rfl, hstands⟩ := (encode_prefix_drop_iff hneedle).mp hn
      have hk : k ≤ p.length := by
        by_contra hlt
        refine h.first p.length (Nat.lt_of_not_le hlt) ?_
        rw [List.drop_left]
        exact hstands
      rw [List.take_append_of_le_length hk]
      exact size_le_of_sublist (List.take_sublist k p)

/-- The bytes of a text stand somewhere exactly if the text does. -/
theorem encode_infix_iff {needle cs : List Char} : encode needle <:+: encode cs ↔ needle <:+: cs := by
  constructor
  · rintro ⟨front, back, hbytes⟩
    by_cases hneedle : needle = []
    · exact hneedle ▸ List.nil_infix
    · have hdrop : encode needle <+: (encode cs).drop front.length := by
        rw [← hbytes, List.append_assoc, List.drop_left]
        exact List.prefix_append _ _
      obtain ⟨p, rest, rfl, -, hstands⟩ := (encode_prefix_drop_iff hneedle).mp hdrop
      exact hstands.isInfix.trans (List.suffix_append p rest).isInfix
  · rintro ⟨front, back, rfl⟩
    exact ⟨encode front, encode back, by rw [encode_append, encode_append]⟩

end Text
end GuardedRepl
