import GuardedRepl.Proofs.Source.Lexeme
import GuardedRepl.Proofs.Text.Sizes
import GuardedRepl.Source.Fragment

/-!
# Sizes of literals and fragments

A literal takes up more bytes than the string that it stands for, and a fragment takes up a part of
its command.

**Results.**
* `string_size_le`: a string among the tokens has no more bytes than the source.
* `fragment_size_le`: a fragment has no more bytes than the command.
-/

namespace GuardedRepl
namespace Source

open Text.Utf8 (size)

/-! ## Literals -/

theorem unescape?_size {e c : Char} (h : unescape? e = some c) : c.utf8Size = 1 := by
  unfold unescape? at h
  split at h <;> cases h <;> rfl

/-- The string that is collected has no more bytes than the characters that are passed. -/
theorem stringBody_size {bytes length n : Nat} {done cs : List Char} {v : String}
    (h : stringBody bytes length done cs = .ok (v, n)) :
    ∃ k, n = length + k ∧ v.utf8ByteSize ≤ size done + size (cs.take k) := by
  fun_induction stringBody bytes length done cs with
  | case1 | case3 | case4 | case6 => cases h
  | case2 bytes length done cs =>
      cases h
      refine ⟨1, rfl, ?_⟩
      rw [Text.Utf8.utf8ByteSize_ofList, Text.Utf8.size_reverse]
      exact Nat.le_add_right _ _
  | case5 bytes length done e cs c hc ih =>
      obtain ⟨k, rfl, hsize⟩ := ih h
      have hone := unescape?_size hc
      have hbackslash : Char.utf8Size '\\' = 1 := rfl
      refine ⟨k + 2, by omega, ?_⟩
      simp only [List.take_succ_cons, Text.Utf8.size_cons] at hsize ⊢
      omega
  | case7 bytes length done c cs _ _ _ _ ih =>
      obtain ⟨k, rfl, hsize⟩ := ih h
      refine ⟨k + 1, by omega, ?_⟩
      simp only [List.take_succ_cons, Text.Utf8.size_cons] at hsize ⊢
      omega

theorem characterBody_size {n : Nat} {cs : List Char} {v : Char}
    (h : characterBody cs = .ok (v, n)) : v.utf8Size ≤ size (cs.take n) := by
  rcases characterBody_cases h with ⟨e, rest, rfl, he, rfl⟩ | ⟨rest, rfl, -, -, rfl⟩
  · have hone := unescape?_size he
    have hquote : Char.utf8Size '\'' = 1 := rfl
    simp only [List.take_succ_cons, Text.Utf8.size_cons]
    omega
  · simp only [List.take_succ_cons, Text.Utf8.size_cons]
    omega

theorem number_ne_str {c : Char} {cs : List Char} {v : String} {n : Nat} :
    number c cs ≠ .ok ⟨some (.str v), n⟩ := by
  unfold number
  simp only
  split <;> simp

theorem ofWord_ne_str (s v : String) : TokenKind.ofWord s ≠ .str v := by
  unfold TokenKind.ofWord
  split <;> exact TokenKind.noConfusion

theorem piece_size {c : Char} {cs : List Char} {v : String} {n : Nat}
    (h : piece c cs = .ok ⟨some (.str v), n⟩) : v.utf8ByteSize ≤ size (c :: cs.take n) := by
  unfold piece at h
  split_ifs at h with hspace hline hblock hdigit hquote hchar hname
  · cases h
  · cases h
  · split at h <;> cases h
  · exact absurd h number_ne_str
  · obtain ⟨⟨w, m⟩, hbody, heq⟩ := map_eq_ok h
    cases heq
    obtain ⟨k, rfl, hsize⟩ := stringBody_size hbody
    rw [Text.Utf8.size_nil, Nat.zero_add] at hsize
    rw [Nat.zero_add]
    exact Nat.le_trans hsize (Nat.le_add_left _ _)
  · obtain ⟨⟨w, m⟩, hbody, heq⟩ := map_eq_ok h
    cases heq
    rw [Char.toString_eq_singleton, String.utf8ByteSize_singleton]
    exact Nat.le_trans (characterBody_size hbody) (Nat.le_add_left _ _)
  · simp only [Except.ok.injEq, Piece.mk.injEq, Option.some.injEq] at h
    exact absurd h.1 (ofWord_ne_str _ _)
  · split at h <;> cases h

theorem Lexed.string_size_le {ls : List Lexeme} (h : Lexed ls) {offset : Nat} {v : String}
    (hv : .str v ∈ (tokensFrom offset ls).map Token.kind) :
    v.utf8ByteSize ≤ size (textOf ls) := by
  induction h generalizing offset with
  | nil => cases hv
  | @cons kind? c w ls hpiece hls ih =>
      rw [tokensFrom_cons, List.map_append, List.mem_append] at hv
      rw [textOf_cons, Text.Utf8.size_append]
      rcases hv with hv | hv
      · cases kind? with
        | none => cases hv
        | some kind =>
            obtain rfl : TokenKind.str v = kind := by simpa [Lexeme.token?] using hv
            have hsize := piece_size hpiece
            rw [List.take_left] at hsize
            exact Nat.le_trans hsize (Nat.le_add_right _ _)
      · exact Nat.le_trans (ih hv) (Nat.le_add_left _ _)

/-- A string among the tokens has no more bytes than the source. -/
theorem string_size_le {source : List Char} {tokens : List Token} {v : String}
    (h : tokenize source = .ok tokens) (hv : .str v ∈ tokens.map Token.kind) :
    v.utf8ByteSize ≤ size source := by
  obtain ⟨ls, hls, rfl, rfl⟩ := exists_lexed h
  rw [List.map_append, List.mem_append] at hv
  rcases hv with hv | hv
  · exact hls.string_size_le hv
  · simp [endToken] at hv

/-! ## Fragments -/

/-- A stretch is a part of the text that the scan has begun at, or it was there before. -/
theorem sublist_of_mem_go {done : List (Nat × List Char)} {s : Scan} {cs : List Char}
    {p : Nat × List Char} (hp : p ∈ stretches.go done s cs) :
    p ∈ done ∨ p.2.Sublist s.stretch := by
  have hcurrent (s : Scan) (n : Nat) : (s.current n).Sublist s.stretch := List.take_sublist _ _
  have hnext {s : Scan} {q : Nat × List Char} {done : List (Nat × List Char)} {m n : Nat}
      (hq : q ∈ (s.start, s.current m) :: done ∨ q.2.Sublist (s.next n).stretch) :
      q ∈ done ∨ q.2.Sublist s.stretch := by
    rcases hq with hq | hq
    · rcases List.mem_cons.mp hq with rfl | hq
      · exact Or.inr (hcurrent s m)
      · exact Or.inl hq
    · exact Or.inr (hq.trans (List.drop_sublist _ _))
  fun_induction stretches.go done s cs
  case case1 done s =>
    rcases List.mem_cons.mp (List.mem_reverse.mp hp) with rfl | hp
    · exact Or.inr (hcurrent s 0)
    · exact Or.inl hp
  case case5 ih | case7 ih => exact hnext (ih hp)
  case case2 ih | case3 ih | case4 ih | case6 ih | case8 ih => exact ih hp

/-- A fragment has no more bytes than its command. -/
theorem fragment_size_le {command : List Char} {f : Fragment} (hf : f ∈ fragments command) :
    size f.text ≤ size command := by
  obtain ⟨⟨start, stretch⟩, hp, hf⟩ := List.mem_filterMap.mp hf
  have hstretch : stretch.Sublist command :=
    (sublist_of_mem_go hp).resolve_left List.not_mem_nil
  unfold Fragment.ofStretch? at hf
  simp only at hf
  split at hf <;> cases hf
  exact Text.Utf8.size_le_of_sublist ((Text.trim_sublist _).trans hstretch)

end Source
end GuardedRepl
