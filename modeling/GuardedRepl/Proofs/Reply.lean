import GuardedRepl.Proofs.Text.Cuts
import GuardedRepl.Proofs.Text.Sizes
import GuardedRepl.Reply
import Mathlib.Data.List.DropRight

/-!
# What a reply keeps

A reply is a text without the line ends at its end.  A text that is too long keeps its beginning and
its end, each as long as fits into half of what a reply may hold; what stood between them is counted
to the byte, and the line with the count is short.

**Results.**
* `chomped_chomp`: only line ends are taken off, and all of them.
* `cut_truncate`: what is left of a long text.
* `size_lt_of_cut`: the size of a reply.
* `truncation_exact`: the replies to results and the listings of diagnostics.
-/

namespace GuardedRepl
namespace Reply

open Text.Utf8 (size Longest LongestEnd)

/-- The line that stands for `n` missing bytes. -/
def marker (n : Nat) : List Char :=
  ("\n... [truncated " ++ toString n ++ " bytes] ...\n").toList

/-- This is a text without the line ends at its end. -/
structure Chomped (raw cs : List Char) : Prop where
  rest : ∃ n, raw = cs ++ List.replicate n '\n'
  last : cs.getLast? ≠ some '\n'

/-- What is left of a text: all of it, or the longest beginning and the longest end that fit into
half of a reply, with the number of bytes between them. -/
inductive Cut (cs : List Char) : List Char → Prop
  | whole : size cs ≤ maxBytes → Cut cs cs
  | middle {front gap back : List Char} : maxBytes < size cs → cs = front ++ gap ++ back →
      Longest (maxBytes / 2) cs front → LongestEnd (maxBytes / 2) cs back →
      Cut cs (front ++ marker (size gap) ++ back)

theorem chomp_eq (raw : List Char) : chomp raw = raw.rdropWhile (· = '\n') := rfl

theorem chomped_chomp (raw : List Char) : Chomped raw (chomp raw) where
  rest := by
    have hlines : ∀ c ∈ raw.rtakeWhile (· = '\n'), c = '\n' := by
      intro c hc
      have hline := List.mem_rtakeWhile_imp hc
      exact of_decide_eq_true hline
    refine ⟨(raw.rtakeWhile (· = '\n')).length, ?_⟩
    rw [← List.eq_replicate_iff.mpr ⟨rfl, hlines⟩, chomp_eq, List.rdropWhile_append_rtakeWhile]
  last := by
    intro hlast
    obtain ⟨front, hfront⟩ := List.getLast?_eq_some_iff.mp hlast
    rw [chomp_eq] at hfront
    have hkept := List.rdropWhile_last_not (· = '\n') raw (by simp [hfront])
    simp [hfront] at hkept

theorem cut_truncate (cs : List Char) : Cut cs (truncate cs) := by
  rw [truncate]
  split_ifs with hwhole
  · exact .whole hwhole
  · have hfront := Text.Utf8.longest_takeBytes (maxBytes / 2) cs
    have hback := Text.Utf8.longestEnd_takeLastBytes (maxBytes / 2) cs
    have hsmall : size (Text.Utf8.takeBytes (maxBytes / 2) cs) +
        size (Text.Utf8.takeLastBytes (maxBytes / 2) cs) < size cs := by
      have hhalves : maxBytes / 2 + maxBytes / 2 = maxBytes := rfl
      have := hfront.fits
      have := hback.fits
      omega
    obtain ⟨gap, hcs⟩ := Text.Utf8.exists_between hfront.begins hback.ends hsmall
    have hmissing : size cs - size (Text.Utf8.takeLastBytes (maxBytes / 2) cs) -
        size (Text.Utf8.takeBytes (maxBytes / 2) cs) = size gap := by
      have hsize := congrArg size hcs
      rw [Text.Utf8.size_append, Text.Utf8.size_append] at hsize
      omega
    simp only [hmissing]
    exact .middle (by omega) hcs hfront hback

theorem size_toString (n : Nat) : size (toString n).toList = (Nat.toDigits 10 n).length := by
  rw [show (toString n).toList = Nat.toDigits 10 n from Nat.toList_repr]
  refine Text.Utf8.size_eq_length fun c hc => ?_
  have hdigit := Char.isDigit_iff_toNat.mp (Nat.isDigit_of_mem_toDigits (by decide) le_rfl hc)
  exact Nat.lt_of_le_of_lt hdigit.2 (by decide)

theorem size_marker (n : Nat) : size (marker n) = (Nat.toDigits 10 n).length + 28 := by
  have hbefore : size "\n... [truncated ".toList = 16 := by decide
  have hbehind : size " bytes] ...\n".toList = 12 := by decide
  rw [marker, String.toList_append, String.toList_append, Text.Utf8.size_append,
    Text.Utf8.size_append, size_toString, hbefore, hbehind]
  omega

/-- What is left of a text whose size is a number of 64 bits. -/
theorem size_lt_of_cut {cs reply : List Char} (h : Cut cs reply) (hsize : size cs < 2 ^ 64) :
    size reply < maxBytes + 64 := by
  cases h with
  | whole hfits => omega
  | @middle front gap back _ hcs hfront hback =>
      have hgap : size gap < 10 ^ 20 := by
        have hparts := congrArg size hcs
        rw [Text.Utf8.size_append, Text.Utf8.size_append] at hparts
        omega
      have hdigits : (Nat.toDigits 10 (size gap)).length ≤ 20 :=
        (Nat.length_toDigits_le_iff (by decide) (by decide)).mpr hgap
      have hhalves : maxBytes / 2 + maxBytes / 2 = maxBytes := rfl
      have hf := hfront.fits
      have hb := hback.fits
      rw [Text.Utf8.size_append, Text.Utf8.size_append, size_marker]
      omega

/-- This is the reply to a text `raw`, which is `cs` without the line ends at its end: what is left of
`cs`, and not much more than a reply may hold (the size of a text is a number of 64 bits). -/
structure Answers (raw cs : List Char) (reply : String) : Prop where
  chomped : Chomped raw cs
  cut : Cut cs reply.toList
  short : size cs < 2 ^ 64 → reply.utf8ByteSize < maxBytes + 64

theorem answers_truncate (raw : List Char) :
    Answers raw (chomp raw) (String.ofList (truncate (chomp raw))) where
  chomped := chomped_chomp raw
  cut := by
    rw [String.toList_ofList]
    exact cut_truncate (chomp raw)
  short := fun hsize => by
    rw [Text.Utf8.utf8ByteSize_ofList]
    exact size_lt_of_cut (cut_truncate (chomp raw)) hsize

/-- **What a reply keeps.**  The reply to a result answers the lines of its events, in their order,
and then its output; the listing of diagnostics answers their lines, each with the number of the
snippet.  A text that fits is kept whole.  Of any other one its longest beginning and its longest
end are kept that fit into half of a reply each; they do not overlap, and the number of bytes between
them is told exactly. -/
theorem truncation_exact :
    (∀ (events : List Event) (output : String), ∃ cs, Answers
      ((events.filterMap eventLine).flatMap (fun line => line.toList ++ ['\n']) ++ output.toList)
      cs (ofResult events output)) ∧
    ∀ (id : Nat) (diagnostics : List Diagnostic), ∃ cs, Answers
      (diagnostics.flatMap fun d => ("#" ++ toString id ++ ": " ++ d.describe).toList ++ ['\n'])
      cs (ofDiagnostics id diagnostics) :=
  ⟨fun _ _ => ⟨_, answers_truncate _⟩, fun _ _ => ⟨_, answers_truncate _⟩⟩

end Reply
end GuardedRepl
