import GuardedRepl.Proofs.Source.Lexeme

/-!
# Trimmed rows

White space at the ends of a text belongs to blanks or to a line comment there, so what is left of a
row of lexemes is again such a row with the same tokens.

**Results.**
* `Lexed.trimStart`, `Lexed.trimEnd`: the row without the white space at one end.
* `Lexed.no_tokens`: a row of comments has no tokens.
-/

namespace GuardedRepl
namespace Source

open Text (isBlank)

theorem toNat_of_isAlphanum {c : Char} (h : c.isAlphanum = true) :
    48 ≤ c.toNat ∧ c.toNat ≤ 122 := by
  change (decide ('A'.val ≤ c.val ∧ c.val ≤ 'Z'.val) || ('a'.val ≤ c.val && c.val ≤ 'z'.val) ||
    ('0'.val ≤ c.val && c.val ≤ '9'.val)) = true at h
  simp only [Bool.or_eq_true, Bool.and_eq_true, decide_eq_true_eq, UInt32.le_iff_toNat_le] at h
  change ((65 ≤ c.toNat ∧ c.toNat ≤ 90) ∨ (97 ≤ c.toNat ∧ c.toNat ≤ 122)) ∨
    (48 ≤ c.toNat ∧ c.toNat ≤ 57) at h
  omega

theorem not_isBlank_of_isNamePart {c : Char} (h : isNamePart c = true) : isBlank c = false := by
  simp only [isNamePart, Bool.or_eq_true, decide_eq_true_eq] at h
  have hrange : 36 ≤ c.toNat ∧ c.toNat ≤ 122 := by
    rcases h with (h | rfl) | rfl
    · obtain ⟨hge, hle⟩ := toNat_of_isAlphanum h
      exact ⟨by omega, hle⟩
    · decide
    · decide
  simp [isBlank, Text.blankRanges, Text.Ranges.covers, show ¬c.toNat < 9 by omega,
    show ¬c.toNat ≤ 13 by omega, show ¬c.toNat ≤ 32 by omega, show c.toNat < 133 by omega]

theorem not_isBlank_of_mem_text {p : Punct} {c : Char} (h : c ∈ p.text.toList) :
    isBlank c = false := by
  have hall : p.text.toList.all (fun d => !isBlank d) = true := by cases p <;> decide
  simpa using List.all_eq_true.mp hall c h

/-- A lexeme that begins with white space is one blank. -/
theorem Reads.eq_blank {c : Char} {w rest : List Char} {kind? : Option TokenKind}
    (h : Reads c w rest kind?) (hc : isBlank c = true) : kind? = none ∧ w = [] := by
  cases h with
  | blank _ => exact ⟨rfl, rfl⟩
  | line | block => exact absurd hc (by decide)
  | word hw _ => exact absurd hc (by simp [not_isBlank_of_isNamePart (hw c (by simp))])
  | literal hquote _ => rcases hquote with rfl | rfl <;> exact absurd hc (by decide)
  | punct hp _ =>
      have hmem : c ∈ c :: w := List.mem_cons_self
      exact absurd hc (by simp [not_isBlank_of_mem_text (hp ▸ hmem)])

/-- A row without the blanks at its beginning. -/
theorem Lexed.trimStart {ls : List Lexeme} (h : Lexed ls) :
    ∃ bs ms, ls = bs ++ ms ∧ textOf bs = (textOf ls).takeWhile isBlank ∧
      textOf ms = Text.trimStart (textOf ls) ∧ Lexed ms ∧ ∀ offset, tokensFrom offset bs = [] := by
  induction h with
  | nil => exact ⟨[], [], rfl, rfl, rfl, .nil, fun _ => rfl⟩
  | @cons kind? c w ls hpiece hls ih =>
      by_cases hc : isBlank c = true
      · obtain ⟨rfl, rfl⟩ := (reads_of_piece hpiece).eq_blank hc
        obtain ⟨bs, ms, rfl, hbs, hms, hlexed, htokens⟩ := ih
        refine ⟨⟨none, [c]⟩ :: bs, ms, rfl, ?_, ?_, hlexed, fun offset => htokens _⟩
        · simp only [textOf_cons, List.cons_append, List.nil_append, List.takeWhile_cons_of_pos hc,
            hbs]
        · simp only [Text.trimStart, textOf_cons, List.cons_append, List.nil_append,
            List.dropWhile_cons_of_pos hc, hms]
      · refine ⟨[], _, rfl, ?_, ?_, .cons hpiece hls, fun _ => rfl⟩
        · simp [hc]
        · simp [Text.trimStart, hc]

theorem lineLength_eq_length_iff {cs : List Char} : lineLength cs = cs.length ↔ '\n' ∉ cs := by
  constructor
  · intro h hmem
    have hall := List.takeWhile_eq_self_iff.mp ((List.takeWhile_prefix _).eq_of_length h)
    simpa using hall _ hmem
  · intro h
    rw [lineLength, List.takeWhile_eq_self_iff.mpr]
    exact fun c hc => decide_eq_true fun heq => h (heq ▸ hc)

theorem lexed_comment {cs : List Char} (h : '\n' ∉ cs) : Lexed [⟨none, '/' :: '/' :: cs⟩] := by
  refine .cons ?_ .nil
  rw [textOf_nil, List.append_nil, piece, if_neg (by decide), if_pos (by simp),
    lineLength_cons_slash, lineLength_eq_length_iff.mpr h]
  rfl

/-- A lexeme that ends with white space is one blank or a line comment. -/
theorem Lexed.trimLast {l : Lexeme} {t : List Char} {b : Char} (h : Lexed [l])
    (htext : l.text = t ++ [b]) (hb : isBlank b = true) :
    ∃ ms, Lexed ms ∧ textOf ms = t ∧ ∀ offset, tokensFrom offset ms = tokensFrom offset [l] := by
  cases h with
  | @cons kind? c w _ hpiece _ =>
      simp only at htext
      -- However the lexeme is taken apart before its last character, this is the white space `b`.
      have hlast {u : List Char} {d : Char} (heq : c :: w = u ++ [d]) : d = b ∧ u = t := by
        obtain ⟨rfl, hd⟩ := List.append_inj' (heq.symm.trans htext) rfl
        exact ⟨List.singleton_inj.mp hd, rfl⟩
      have hmem : b ∈ c :: w := by simp [htext]
      cases reads_of_piece hpiece with
      | blank =>
          obtain rfl : t = [] := by simpa using congrArg List.length htext
          exact ⟨[], .nil, rfl, fun _ => rfl⟩
      | @line v _ hlength =>
          rw [textOf_nil, List.append_nil, lineLength_eq_length_iff] at hlength
          rcases List.eq_nil_or_concat v with rfl | ⟨u, d, rfl⟩
          · obtain ⟨rfl, -⟩ := hlast (u := ['/']) rfl
            exact absurd hb (by decide)
          · obtain ⟨-, rfl⟩ := hlast (u := '/' :: '/' :: u) (d := d) (by simp)
            exact ⟨[⟨none, '/' :: '/' :: u⟩], lexed_comment fun h => hlength (by simp [h]), by simp,
              fun _ => rfl⟩
      | @block v _ _ =>
          obtain ⟨rfl, -⟩ := hlast (u := '/' :: '*' :: v ++ ['*']) (d := '/') (by simp)
          exact absurd hb (by decide)
      | word hw _ => exact absurd hb (by simp [not_isBlank_of_isNamePart (hw b hmem)])
      | @literal _ v _ _ hquote _ =>
          obtain ⟨rfl, -⟩ := hlast (u := c :: v) rfl
          rcases hquote with rfl | rfl <;> exact absurd hb (by decide)
      | punct hp _ => exact absurd hb (by simp [not_isBlank_of_mem_text (hp ▸ hmem)])

theorem Lexed.dropBlank {ls : List Lexeme} {t : List Char} {b : Char} (h : Lexed ls)
    (htext : textOf ls = t ++ [b]) (hb : isBlank b = true) :
    ∃ ms, Lexed ms ∧ textOf ms = t ∧ ∀ offset, tokensFrom offset ms = tokensFrom offset ls := by
  rcases List.eq_nil_or_concat ls with rfl | ⟨init, l, rfl⟩
  · simp at htext
  · rw [List.concat_eq_append] at h htext ⊢
    have hl : Lexed [l] := h.right
    rcases List.eq_nil_or_concat l.text with hnil | ⟨u, d, hu⟩
    · exact absurd (hl.eq_nil (by simp [hnil])) (by simp)
    · rw [List.concat_eq_append] at hu
      have hwhole : textOf init ++ u ++ [d] = t ++ [b] := by simpa [hu] using htext
      obtain ⟨rfl, hd⟩ := List.append_inj' hwhole rfl
      obtain rfl := List.singleton_inj.mp hd
      obtain ⟨ms, hms, rfl, htokens⟩ := hl.trimLast hu hb
      have hlast : textOf [l] = textOf ms ++ [d] := by simp [hu]
      refine ⟨init ++ ms, h.replace hms hlast, textOf_append init ms, fun offset => ?_⟩
      rw [tokensFrom_append, tokensFrom_append, htokens]

theorem trimEnd_concat (t : List Char) (b : Char) :
    Text.trimEnd (t ++ [b]) = if isBlank b then Text.trimEnd t else t ++ [b] := by
  rw [Text.trimEnd, List.reverse_append, List.reverse_singleton, List.singleton_append,
    List.dropWhile_cons]
  split_ifs <;> simp [Text.trimEnd]

/-- A row without the white space at its end. -/
theorem Lexed.trimEnd {ls : List Lexeme} (h : Lexed ls) :
    ∃ ms, Lexed ms ∧ textOf ms = Text.trimEnd (textOf ls) ∧
      ∀ offset, tokensFrom offset ms = tokensFrom offset ls := by
  generalize htext : textOf ls = t
  induction t using List.reverseRecOn generalizing ls with
  | nil => exact ⟨ls, h, htext, fun _ => rfl⟩
  | append_singleton t b ih =>
      rw [trimEnd_concat]
      split_ifs with hb
      · obtain ⟨ms, hms, hmt, htokens⟩ := h.dropBlank htext hb
        obtain ⟨ns, hns, hnt, htokens'⟩ := ih hms hmt
        exact ⟨ns, hns, hnt, fun offset => (htokens' offset).trans (htokens offset)⟩
      · exact ⟨ls, h, htext, fun _ => rfl⟩

/-! ## Comments -/

/-- The row after a comment and the blanks behind it. -/
theorem Lexed.skip {ls : List Lexeme} {c : Char} {cs : List Char} {n : Nat} (h : Lexed ls)
    (htext : textOf ls = c :: cs) (hpiece : piece c cs = .ok ⟨none, n⟩) :
    ∃ ms, Lexed ms ∧ textOf ms = Text.trimStart (cs.drop n) ∧
      ∀ offset, ∃ offset', tokensFrom offset ls = tokensFrom offset' ms := by
  cases h with
  | nil => cases htext
  | @cons kind? d w ms hread hms =>
      rw [textOf_cons, List.cons_append, List.cons_eq_cons] at htext
      obtain ⟨rfl, rfl⟩ := htext
      rw [hpiece] at hread
      cases hread
      obtain ⟨bs, rest, rfl, -, hrest, hlexed, hbs⟩ := hms.trimStart
      rw [List.drop_left]
      refine ⟨rest, hlexed, hrest, fun offset => ?_⟩
      rw [tokensFrom_cons, tokensFrom_append, hbs]
      exact ⟨_, rfl⟩

/-- A row of comments has no tokens. -/
theorem Lexed.no_tokens {ls : List Lexeme} (h : Lexed ls)
    (honly : isOnlyComments (textOf ls) = true) (offset : Nat) : tokensFrom offset ls = [] := by
  generalize htext : textOf ls = t at honly
  induction t using isOnlyComments.induct generalizing ls offset with
  | case1 => rw [h.eq_nil htext, tokensFrom_nil]
  | case2 cs ih =>
      rw [isOnlyComments] at honly
      obtain ⟨ms, hms, hmt, htokens⟩ := h.skip htext (n := lineLength cs + 1)
        (by rw [piece, if_neg (by decide), if_pos (by simp), lineLength_cons_slash])
      obtain ⟨offset', heq⟩ := htokens offset
      rw [heq]
      exact ih hms offset' hmt honly
  | case3 cs n hn ih =>
      rw [isOnlyComments, hn] at honly
      obtain ⟨ms, hms, hmt, htokens⟩ := h.skip htext (n := n + 1) (by
        rw [piece, if_neg (by decide), if_neg (by simp), if_pos (by simp)]
        simp [hn])
      obtain ⟨offset', heq⟩ := htokens offset
      rw [heq]
      exact ih hms offset' hmt honly
  | case4 cs hn =>
      cases h with
      | nil => cases htext
      | @cons kind? d w ms hread hms =>
          rw [textOf_cons, List.cons_append, List.cons_eq_cons] at htext
          rw [htext.1, htext.2, piece, if_neg (by decide), if_neg (by simp),
            if_pos (by simp)] at hread
          simp [hn] at hread
  | case5 t hnil hline hblock =>
      rw [isOnlyComments] at honly
      · cases honly
      all_goals assumption

end Source
end GuardedRepl
