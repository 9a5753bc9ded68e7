import GuardedRepl.Text.Blank
import GuardedRepl.Text.Search
import Mathlib.Data.List.DropRight
import Mathlib.Data.List.TakeWhile

/-!
# Pieces of texts

What is cut off the ends of a text, or between the separators in it.

**Results.**
* `mem_trim_iff`: trimming takes nothing but white space away.
* `trim_trim`: trimming a second time takes nothing away.
* `cut?_eq_some_iff`: a text is cut at the first separator.
* `splitOn_prefix_iff`: what the first pieces of a text are the pieces of.
-/

namespace GuardedRepl
namespace Text

theorem mem_dropWhile_iff {p : Char → Bool} {c : Char} (hc : p c = false) (cs : List Char) :
    c ∈ cs.dropWhile p ↔ c ∈ cs := by
  induction cs with
  | nil => exact Iff.rfl
  | cons d cs ih =>
      rw [List.dropWhile_cons]
      split
      · rename_i hd
        rw [ih, List.mem_cons, or_iff_right]
        rintro rfl
        rw [hc] at hd
        cases hd
      · exact Iff.rfl

/-- Trimming takes nothing but white space away. -/
theorem mem_trim_iff {c : Char} (hc : isBlank c = false) (cs : List Char) :
    c ∈ trim cs ↔ c ∈ cs := by
  rw [trim, trimEnd, List.mem_reverse, mem_dropWhile_iff hc, List.mem_reverse, trimStart,
    mem_dropWhile_iff hc]

theorem trimEnd_prefix (cs : List Char) : trimEnd cs <+: cs :=
  List.rdropWhile_prefix isBlank cs

theorem trimStart_trim (cs : List Char) : trimStart (trim cs) = trim cs := by
  have hfront : trim cs <+: trimStart cs := trimEnd_prefix _
  rw [trimStart, List.dropWhile_eq_self_iff]
  intro hpos
  rw [hfront.getElem hpos]
  exact List.dropWhile_get_zero_not _ _ _

/-- Trimming a second time takes nothing away. -/
theorem trim_trim (cs : List Char) : trim (trim cs) = trim cs := by
  have htrimEnd (ds : List Char) : trimEnd (trimEnd ds) = trimEnd ds := by
    rw [trimEnd, trimEnd, List.reverse_reverse, List.dropWhile_idempotent]
  rw [trim, trimStart_trim, trim, htrimEnd]

theorem cut?_eq_some_iff {sep : Char} {cs before after : List Char} :
    cut? sep cs = some (before, after) ↔ cs = before ++ sep :: after ∧ sep ∉ before := by
  have hpass (c : Char) : decide (c ≠ sep) = true ↔ c ≠ sep := decide_eq_true_iff
  constructor
  · intro h
    unfold cut? at h
    have hcs := (List.takeWhile_append_dropWhile (p := fun c => decide (c ≠ sep)) (l := cs)).symm
    split at h
    · cases h
    · rename_i c rest hrest
      have hc : c = sep := by
        have hhead := List.head?_dropWhile_not (fun c => decide (c ≠ sep)) cs
        rw [hrest] at hhead
        simpa using hhead
      cases h
      rw [hrest, hc] at hcs
      refine ⟨hcs, fun hmem => ?_⟩
      exact (hpass sep).mp (List.mem_takeWhile_imp (p := fun c => decide (c ≠ sep)) hmem) rfl
  · rintro ⟨rfl, hnot⟩
    have hall : ∀ c ∈ before, decide (c ≠ sep) = true :=
      fun c hc => (hpass c).mpr fun heq => hnot (heq ▸ hc)
    unfold cut?
    rw [List.dropWhile_append_of_pos hall, List.takeWhile_append_of_pos hall,
      List.dropWhile_cons_of_neg (by simp), List.takeWhile_cons_of_neg (by simp), List.append_nil]

/-- The pieces of a text are those of the library, which has the lemmas on them. -/
theorem splitOn_eq (sep : Char) (cs : List Char) : splitOn sep cs = cs.splitOn sep := by
  induction cs with
  | nil => rfl
  | cons c cs ih =>
      obtain ⟨piece, rest, hpieces⟩ := List.exists_cons_of_ne_nil (List.splitOn_ne_nil sep cs)
      rw [List.splitOn_cons_eq_if_modifyHead, hpieces, List.modifyHead_cons]
      rw [hpieces] at ih
      unfold splitOn at ih ⊢
      rw [List.foldr_cons, ih]
      by_cases hc : c = sep
      · rw [if_pos hc, if_pos (beq_iff_eq.mpr hc)]
      · rw [if_neg hc, if_neg (mt beq_iff_eq.mp hc)]

theorem intercalate_append {sep : List Char} {l m : List (List Char)} (hl : l ≠ []) (hm : m ≠ []) :
    sep.intercalate (l ++ m) = sep.intercalate l ++ sep ++ sep.intercalate m := by
  induction l with
  | nil => exact absurd rfl hl
  | cons a l ih =>
      cases l with
      | nil => rw [List.singleton_append, List.intercalate_cons_of_ne_nil hm,
          List.intercalate_singleton]
      | cons b l =>
          rw [List.cons_append, List.intercalate_cons_of_ne_nil (by simp),
            List.intercalate_cons_of_ne_nil (by simp), ih (by simp)]
          simp only [List.append_assoc]

/-- The pieces of one text come first in those of another exactly if it is that text or what stands
before one of the separators there. -/
theorem splitOn_prefix_iff {sep : Char} (front cs : List Char) :
    front.splitOn sep <+: cs.splitOn sep ↔ cs = front ∨ ∃ rest, cs = front ++ sep :: rest := by
  constructor
  · rintro ⟨rest, heq⟩
    have hcs : cs = [sep].intercalate (front.splitOn sep ++ rest) := by
      rw [heq, List.intercalate_splitOn]
    by_cases hrest : rest = []
    · left
      rw [hcs, hrest, List.append_nil, List.intercalate_splitOn]
    · right
      refine ⟨[sep].intercalate rest, ?_⟩
      rw [hcs, intercalate_append (List.splitOn_ne_nil _ _) hrest, List.intercalate_splitOn,
        List.append_assoc, List.singleton_append]
  · rintro (rfl | ⟨rest, rfl⟩)
    · exact List.prefix_rfl
    · rw [List.splitOn_append_cons_self]
      exact List.prefix_append _ _

end Text
end GuardedRepl
