import GuardedRepl.Proofs.Source.Tiling

/-!
# Texts that are not cut

Within a stretch the scan of a command finds no place to cut.  Whether it finds one depends on the
text of the stretch and on little else: white space at the ends of the stretch has no say in it, and
nor has what comes behind the mark that ends the stretch.  So a stretch, read alone and without the
white space at its ends, is not cut either.

**Results.**
* `exists_ending`: the scan comes to a place to cut, or to the end.
* `Clear.trimStart`, `Clear.trimEnd`, `Clear.replace`: the text with less or something else around
  it.
* `Clear.stretches_eq`, `Clear.stretches_closeBrace`: a text that is not cut is one stretch.
-/

namespace GuardedRepl

theorem Text.Ranges.exists_of_covers {rs : Text.Ranges} {n : Nat} (h : rs.covers n = true) :
    ∃ r ∈ rs, r.1 ≤ n ∧ n ≤ r.2 := by
  induction rs with
  | nil => cases h
  | cons r rs ih =>
      rw [Text.Ranges.covers] at h
      split_ifs at h with hlow
      rw [Bool.or_eq_true, decide_eq_true_eq] at h
      rcases h with h | h
      · exact ⟨r, List.mem_cons_self, by omega, h⟩
      · obtain ⟨r', hr', hn⟩ := ih h
        exact ⟨r', List.mem_cons_of_mem _ hr', hn⟩

namespace Source

open Text (isBlank)
open Text.Utf8 (size)

/-! ## Literals and comments -/

theorem le_quotedLength (quote : Char) (length : Nat) (cs : List Char) :
    length ≤ quotedLength quote length cs := by
  fun_induction quotedLength quote length cs <;> omega

theorem lt_quotedLength {quote : Char} {cs : List Char} (length : Nat) (h : cs ≠ []) :
    length < quotedLength quote length cs := by
  fun_cases quotedLength quote length cs with
  | case1 => exact absurd rfl h
  | case2 => omega
  | case3 _ cs => exact lt_of_lt_of_le (by omega) (le_quotedLength quote (length + 2) cs)
  | case4 => omega
  | case5 c cs => exact lt_of_lt_of_le (by omega) (le_quotedLength quote (length + 1) cs)

theorem quotedLength_closing {quote c : Char} (hescape : c ≠ '\\')
    (hstop : c = '\n' ∨ c = quote) (length : Nat) (cs : List Char) :
    quotedLength quote length (c :: cs) = length + 1 := by
  rw [quotedLength]
  · rw [if_pos (by simpa using hstop)]
  · exact fun h _ => hescape h
  · exact fun _ _ h _ => hescape h

theorem quotedLength_le (quote : Char) (length : Nat) (cs : List Char) :
    quotedLength quote length cs ≤ length + cs.length := by
  fun_induction quotedLength quote length cs <;> simp only [List.length_cons, List.length_nil] <;>
    omega

/-- A literal of which only the front is left reaches up to the end. -/
theorem quotedLength_truncate {quote : Char} {length : Nat} {w v : List Char}
    (h : length + w.length ≤ quotedLength quote length (w ++ v)) :
    quotedLength quote length w = length + w.length := by
  fun_induction quotedLength quote length w with
  | case1 => rfl
  | case2 => rfl
  | case3 length e cs ih =>
      rw [List.cons_append, List.cons_append, quotedLength, List.length_cons,
        List.length_cons] at h
      rw [ih (by omega), List.length_cons, List.length_cons]
      omega
  | case4 length c cs hlast hpair hstop =>
      have hstop : c = '\n' ∨ c = quote := by simpa using hstop
      rw [List.cons_append, quotedLength_closing (ne_escape hlast hpair) hstop,
        List.length_cons] at h
      rw [List.length_cons]
      omega
  | case5 length c cs hlast hpair hstop ih =>
      simp only [Bool.or_eq_true, decide_eq_true_eq, not_or] at hstop
      rw [List.cons_append, quotedLength_cons _ _ (ne_escape hlast hpair) hstop.1 hstop.2,
        List.length_cons] at h
      rw [ih (by omega), List.length_cons]
      omega

/-- A literal that does not reach up to the end is closed. -/
theorem isClosed_of_quotedLength {quote : Char} {length : Nat} {w v : List Char}
    (h : quotedLength quote length (w ++ v) = length + w.length) (hv : v ≠ []) :
    isClosed quote w = true := by
  fun_induction isClosed quote w generalizing length with
  | case1 =>
      have hlt : length < quotedLength quote length v := lt_quotedLength length hv
      rw [List.nil_append, List.length_nil] at h
      omega
  | case2 =>
      obtain ⟨e, v, rfl⟩ := List.exists_cons_of_ne_nil hv
      have hle := le_quotedLength quote (length + 2) v
      rw [List.singleton_append, quotedLength, List.length_singleton] at h
      omega
  | case3 e cs ih =>
      rw [List.cons_append, List.cons_append, quotedLength, List.length_cons,
        List.length_cons] at h
      have hrest : quotedLength quote (length + 2) (cs ++ v) = length + 2 + cs.length := by omega
      exact ih hrest
  | case4 => rfl
  | case5 c cs hlast hpair hstop ih =>
      simp only [Bool.or_eq_true, decide_eq_true_eq, not_or] at hstop
      rw [List.cons_append, quotedLength_cons _ _ (ne_escape hlast hpair) hstop.1 hstop.2,
        List.length_cons] at h
      have hrest : quotedLength quote (length + 1) (cs ++ v) = length + 1 + cs.length := by omega
      exact ih hrest

variable {c : Char} {w v v' : List Char} {n : Nat}

theorem inertLength?_slash (cs : List Char) :
    inertLength? '/' ('/' :: cs) = some (lineLength cs + 1) := by
  simp [inertLength?, lineLength_cons_slash]

theorem inertLength?_star (cs : List Char) :
    inertLength? '/' ('*' :: cs) =
      some ((((blockLength? cs).map (· + 1)).getD (cs.length + 1))) := by
  simp [inertLength?]

theorem inertLength?_quote (hc : c = '"' ∨ c = '\'') (cs : List Char) :
    inertLength? c cs = some (quotedLength c 0 cs) := by
  rw [inertLength?, if_pos (by simpa using hc)]

/-- What begins a literal or a comment. -/
theorem inertLength?_cases {cs : List Char} (h : inertLength? c cs = some n) :
    (c = '"' ∨ c = '\'') ∧ n = quotedLength c 0 cs ∨
      ∃ ds, c = '/' ∧ (cs = '/' :: ds ∧ n = lineLength ds + 1 ∨
        cs = '*' :: ds ∧ n = ((blockLength? ds).map (· + 1)).getD (ds.length + 1)) := by
  unfold inertLength? at h
  split_ifs at h with hquote hline hblock
  · exact Or.inl ⟨by simpa using hquote, (Option.some.inj h).symm⟩
  · simp only [Bool.and_eq_true, decide_eq_true_eq] at hline
    obtain ⟨rfl, hhead⟩ := hline
    obtain ⟨ds, rfl⟩ := List.head?_eq_some_iff.mp hhead
    rw [lineLength_cons_slash] at h
    exact Or.inr ⟨ds, rfl, Or.inl ⟨rfl, (Option.some.inj h).symm⟩⟩
  · simp only [Bool.and_eq_true, decide_eq_true_eq] at hblock
    obtain ⟨rfl, hhead⟩ := hblock
    obtain ⟨ds, rfl⟩ := List.head?_eq_some_iff.mp hhead
    exact Or.inr ⟨ds, rfl, Or.inr ⟨rfl, by simpa using (Option.some.inj h).symm⟩⟩

/-- A literal or comment is a part of the text. -/
theorem inertLength?_le {cs : List Char} (h : inertLength? c cs = some n) : n ≤ cs.length := by
  rcases inertLength?_cases h with ⟨-, rfl⟩ | ⟨ds, -, ⟨rfl, rfl⟩ | ⟨rfl, rfl⟩⟩
  · have hle := quotedLength_le c 0 cs
    omega
  · have hle : lineLength ds ≤ ds.length := (List.takeWhile_prefix _).length_le
    rw [List.length_cons]
    omega
  · rcases hclosed : blockLength? ds with _ | m
    · simp
    · obtain ⟨u, rest, rfl, rfl⟩ := blockLength?_eq_some hclosed
      simp only [Option.map_some, Option.getD_some, List.length_cons, List.length_append]
      omega

/-- A literal or comment of which only the front is left reaches up to the end. -/
theorem inertLength?_truncate (h : inertLength? c (w ++ v) = some n) (hn : w.length ≤ n)
    (hw : c = '/' → w ≠ []) : inertLength? c w = some w.length := by
  rcases inertLength?_cases h with ⟨hc, rfl⟩ | ⟨ds, rfl, hds⟩
  · rw [inertLength?_quote hc, quotedLength_truncate (v := v) (by omega), Nat.zero_add]
  · obtain ⟨d, w, rfl⟩ := List.exists_cons_of_ne_nil (hw rfl)
    rw [List.cons_append, List.cons_eq_cons, List.cons_eq_cons] at hds
    rcases hds with ⟨⟨rfl, rfl⟩, rfl⟩ | ⟨⟨rfl, rfl⟩, rfl⟩
    · have hline : '\n' ∉ w := by
        intro hmem
        rw [lineLength_append (List.contains_iff_mem.mpr hmem), List.length_cons] at hn
        have hle : lineLength w ≤ w.length := (List.takeWhile_prefix _).length_le
        exact lineLength_eq_length_iff.mp (by omega) hmem
      rw [inertLength?_slash, lineLength_eq_length_iff.mpr hline, List.length_cons]
    · rw [inertLength?_star, List.length_cons]
      rcases hclosed : blockLength? w with _ | m
      · rfl
      · obtain ⟨u, rest, rfl, rfl⟩ := blockLength?_eq_some hclosed
        rw [blockLength?_append hclosed] at hn
        simp only [Option.map_some, Option.getD_some, List.length_cons, List.length_append] at hn ⊢
        exact congrArg some (by omega)

/-- What comes behind a literal or comment has no say in its length, if it begins with the same
character. -/
theorem inertLength?_replace (h : inertLength? c (w ++ v) = some w.length) (hv : v ≠ [])
    (hv' : v' = [] ∨ v'.head? = v.head?) : inertLength? c (w ++ v') = some w.length := by
  have hw : c = '/' → w ≠ [] := by
    rintro rfl rfl
    rcases inertLength?_cases h with ⟨hc, -⟩ | ⟨ds, -, ⟨-, hn⟩ | ⟨-, hn⟩⟩
    · simp at hc
    · cases hn
    · rcases hclosed : blockLength? ds with _ | m <;> simp [hclosed] at hn
  have hown := inertLength?_truncate h le_rfl hw
  rcases hv' with rfl | hhead
  · rwa [List.append_nil]
  · rcases inertLength?_cases h with ⟨hc, hn⟩ | ⟨ds, rfl, hds⟩
    · have hlength : quotedLength c 0 (w ++ v) = 0 + w.length := by omega
      have hclosed := isClosed_of_quotedLength hlength hv
      rw [inertLength?_quote hc] at hown ⊢
      rw [(quotedLength_append hclosed 0 v').1, hown]
    · obtain ⟨d, w, rfl⟩ := List.exists_cons_of_ne_nil (hw rfl)
      rw [List.cons_append, List.cons_eq_cons, List.cons_eq_cons, List.length_cons] at hds
      rcases hds with ⟨⟨rfl, rfl⟩, hn⟩ | ⟨⟨rfl, rfl⟩, hn⟩
      · obtain ⟨hline, hend⟩ := lineLength_append_iff.mp (Nat.succ.inj hn).symm
        rw [← hhead] at hend
        rw [List.cons_append, inertLength?_slash, lineLength_append_iff.mpr ⟨hline, hend⟩]
        rfl
      · rcases hclosed : blockLength? (w ++ v) with _ | m
        · rw [hclosed] at hn
          have hlength := List.length_pos_iff.mpr hv
          simp only [Option.map_none, Option.getD_none, List.length_append] at hn
          omega
        · rw [hclosed] at hn
          obtain rfl : w.length = m := Nat.succ.inj hn
          have hshort := blockLength?_append (blockLength?_of_append hclosed le_rfl) v'
          rw [List.cons_append, inertLength?_star, hshort]
          rfl

theorem inertLength?_eq_none_of_head (h : inertLength? c v = none)
    (hv' : v' = [] ∨ v'.head? = v.head?) : inertLength? c v' = none := by
  unfold inertLength? at h ⊢
  split_ifs at h with hquote hline hblock
  rw [if_neg hquote]
  rcases hv' with rfl | hhead
  · simp
  · rw [hhead, if_neg hline, if_neg hblock]

/-! ## Words before white space -/

/-- White space is no part of a word. -/
theorem isAlphanumeric_of_isBlank {b : Char} (hb : isBlank b = true) :
    Text.isAlphanumeric b = false := by
  have hall : (Text.blankRanges.all fun r => (List.range' r.1 (r.2 + 1 - r.1)).all fun n =>
      n < 0x80 || !Text.alphanumericRanges.covers n) = true := by decide +kernel
  obtain ⟨r, hr, hlow, hhigh⟩ := Text.Ranges.exists_of_covers hb
  have hcode := List.all_eq_true.mp (List.all_eq_true.mp hall r hr) b.toNat
    (List.mem_range'_1.mpr ⟨hlow, by omega⟩)
  rw [Text.isAlphanumeric]
  split_ifs with hascii
  · by_contra halnum
    rw [Bool.not_eq_false] at halnum
    have hpart : isNamePart b = true := by simp [isNamePart, halnum]
    rw [not_isBlank_of_isNamePart hpart] at hb
    cases hb
  · simpa [hascii] using hcode

theorem trimStart_append_blank {b : Char} (hb : isBlank b = true) (cs : List Char) :
    Text.trimStart (cs ++ [b]) =
      if Text.trimStart cs = [] then [] else Text.trimStart cs ++ [b] := by
  rw [Text.trimStart, List.dropWhile_append, Text.trimStart]
  simp only [List.isEmpty_iff]
  rw [List.dropWhile_cons_of_pos hb, List.dropWhile_nil]

/-- White space behind a text makes no difference to the word at its front. -/
theorem nextWordIs_append_blank {word : String} {b : Char} (hb : isBlank b = true)
    (hword : word.toList.all Char.isAlpha = true) (cs : List Char) :
    nextWordIs word (cs ++ [b]) = nextWordIs word cs := by
  have hpart : (Text.isAlphanumeric b || b = '_' || b = '$') = false := by
    rw [isAlphanumeric_of_isBlank hb, Bool.false_or]
    by_contra hmark
    simp only [Bool.not_eq_false, Bool.or_eq_true, decide_eq_true_eq] at hmark
    rcases hmark with rfl | rfl <;> exact absurd hb (by decide)
  unfold nextWordIs
  simp only [trimStart_append_blank hb]
  split_ifs with hblank
  · rw [hblank]
  · generalize Text.trimStart cs = text
    by_cases hfront : word.toList <+: text
    · obtain ⟨after, rfl⟩ := hfront
      rw [List.append_assoc, List.isPrefixOf_iff_prefix.mpr (List.prefix_append _ _),
        List.isPrefixOf_iff_prefix.mpr (List.prefix_append _ _), List.drop_left, List.drop_left]
      cases after with
      | nil => simpa using hpart
      | cons d after => rfl
    · have hlonger : ¬word.toList <+: text ++ [b] := by
        rw [List.prefix_concat_iff]
        rintro (hwhole | hshort)
        · have hletter : b.isAlpha = true := List.all_eq_true.mp hword b (by rw [hwhole]; simp)
          have hpart : isNamePart b = true :=
            isNamePart_of_isNameStart (by simp [isNameStart, hletter])
          rw [not_isBlank_of_isNamePart hpart] at hb
          cases hb
        · exact hfront hshort
      rw [← List.isPrefixOf_iff_prefix, Bool.not_eq_true] at hfront hlonger
      rw [hfront, hlonger, Bool.false_and, Bool.false_and]

/-! ## The scan of a stretch -/

/-- The scan finds no place to cut in the text, with `rest` behind it.  It comes to the text and
leaves it with so many open brackets; `block` tells whether the stretch begins like a block
statement. -/
inductive Clear (block : Bool) (rest : List Char) : Nat → List Char → Nat → Prop
  | nil {depth : Nat} : Clear block rest depth [] depth
  | inert {depth after : Nat} {c : Char} {w cs : List Char} :
      inertLength? c (w ++ (cs ++ rest)) = some w.length → Clear block rest depth cs after →
      Clear block rest depth (c :: (w ++ cs)) after
  | plain {depth after : Nat} {c : Char} {cs : List Char} :
      inertLength? c (cs ++ rest) = none →
      (c = '\x7d' → depth ≤ 1 → block = true → nextWordIs "else" (cs ++ rest) = true) →
      (c = ';' → depth ≠ 0) → Clear block rest (openAfter depth c) cs after →
      Clear block rest depth (c :: cs) after

section Stretches

variable {block : Bool} {rest rest' cs : List Char} {depth after : Nat} {s : Scan}
  {done : List (Nat × List Char)}

theorem step_plain (h : inertLength? c cs = none)
    (hbrace : c = '\x7d' → s.depth ≤ 1 → startsBlock s.stretch = true →
      nextWordIs "else" cs = true)
    (hsemicolon : c = ';' → s.depth ≠ 0) : s.step c cs = .goOn 0 (openAfter s.depth c) := by
  rw [Scan.step, h]
  simp only [Bool.and_eq_true, decide_eq_true_eq, Bool.not_eq_true']
  rw [if_neg, if_neg]
  · exact fun hcut => hsemicolon hcut.1 hcut.2
  · rintro ⟨⟨⟨hc, hdepth⟩, hblock⟩, helse⟩
    exact Bool.false_ne_true (helse.symm.trans (hbrace hc hdepth hblock))

/-- The scan passes a text in which it finds no place to cut. -/
theorem Clear.go_eq {t : List Char} (h : Clear block rest depth t after)
    (hblock : startsBlock s.stretch = block) (hdepth : s.depth = depth) :
    stretches.go done s (t ++ rest) =
      stretches.go done { s.pass t.length with depth := after } rest := by
  induction h generalizing s with
  | nil => rw [← hdepth]; rfl
  | @inert depth after c w cs hinert _ ih =>
      rw [List.cons_append, List.append_assoc, go_inert hinert, List.drop_left,
        ih (s := s.pass (1 + w.length)) hblock hdepth]
      simp only [Scan.pass, List.length_cons, List.length_append]
      rw [show s.length + (1 + w.length) + cs.length = s.length + (w.length + cs.length + 1) by
        omega]
  | @plain depth after c cs hinert hbrace hsemicolon _ ih =>
      subst hblock hdepth
      rw [List.cons_append, go_cons, step_plain hinert hbrace hsemicolon, Scan.follow,
        List.drop_zero, ih (s := { s.pass (1 + 0) with depth := openAfter s.depth c }) rfl rfl]
      simp only [Scan.pass, List.length_cons]
      rw [show s.length + (1 + 0) + cs.length = s.length + (cs.length + 1) by omega]

/-- The scan comes to the end of a text or to the first place to cut. -/
inductive Ending (block : Bool) (depth : Nat) : List Char → Prop
  | atEnd {t : List Char} {after : Nat} : Clear block [] depth t after → Ending block depth t
  | semicolon {t rest : List Char} : Clear block (';' :: rest) depth t 0 →
      Ending block depth (t ++ ';' :: rest)
  | brace {t rest : List Char} {after : Nat} : Clear block ('\x7d' :: rest) depth t after →
      after ≤ 1 → block = true → nextWordIs "else" rest = false →
      Ending block depth (t ++ '\x7d' :: rest)

/-- A literal or a comment that comes before. -/
theorem Ending.inert {w : List Char} (hinert : inertLength? c (w ++ cs) = some w.length)
    (h : Ending block depth cs) : Ending block depth (c :: (w ++ cs)) := by
  cases h with
  | atEnd hclear => exact .atEnd (.inert (by rwa [List.append_nil]) hclear)
  | @semicolon t rest hclear =>
      rw [← List.append_assoc, ← List.cons_append]
      exact .semicolon (.inert hinert hclear)
  | @brace t rest after hclear hafter hblock helse =>
      rw [← List.append_assoc, ← List.cons_append]
      exact .brace (.inert hinert hclear) hafter hblock helse

/-- A character that comes before and is no place to cut. -/
theorem Ending.plain (hinert : inertLength? c cs = none)
    (hbrace : c = '\x7d' → depth ≤ 1 → block = true → nextWordIs "else" cs = true)
    (hsemicolon : c = ';' → depth ≠ 0) (h : Ending block (openAfter depth c) cs) :
    Ending block depth (c :: cs) := by
  cases h with
  | atEnd hclear =>
      exact .atEnd (.plain (by rwa [List.append_nil]) (by rwa [List.append_nil]) hsemicolon hclear)
  | semicolon hclear =>
      rw [← List.cons_append]
      exact .semicolon (.plain hinert hbrace hsemicolon hclear)
  | brace hclear hafter hblock helse =>
      rw [← List.cons_append]
      exact .brace (.plain hinert hbrace hsemicolon hclear) hafter hblock helse

theorem exists_ending (block : Bool) (depth : Nat) : ∀ cs : List Char, Ending block depth cs
  | [] => .atEnd .nil
  | c :: cs => by
      rcases hinert : inertLength? c cs with _ | n
      · by_cases hsemicolon : c = ';' ∧ depth = 0
        · obtain ⟨rfl, rfl⟩ := hsemicolon
          exact .semicolon (t := []) .nil
        · by_cases hbrace : c = '\x7d' ∧ depth ≤ 1 ∧ block = true ∧ nextWordIs "else" cs = false
          · obtain ⟨rfl, hdepth, hblock, helse⟩ := hbrace
            exact .brace (t := []) .nil hdepth hblock helse
          · refine .plain hinert ?_ ?_ (exists_ending block (openAfter depth c) cs)
            · rintro hc hdepth hblock
              by_contra helse
              exact hbrace ⟨hc, hdepth, hblock, by simpa using helse⟩
            · exact fun hc hdepth => hsemicolon ⟨hc, hdepth⟩
      · have hle := inertLength?_le hinert
        have hlength : (cs.take n).length = n := List.length_take_of_le hle
        have hrest := exists_ending block depth (cs.drop n)
        rw [← List.take_append_drop n cs]
        exact .inert (by rw [List.take_append_drop, hlength, hinert]) hrest
termination_by cs => cs.length
decreasing_by
  all_goals simp only [List.length_drop, List.length_cons]; omega

/-! ## Less around a text -/

theorem ne_of_isBlank {b : Char} (hb : isBlank b = true) (c : Char) (hc : isBlank c = false) :
    b ≠ c := by
  rintro rfl
  rw [hb] at hc
  cases hc

theorem inertLength?_eq_none_of_isBlank {b : Char} (hb : isBlank b = true) (cs : List Char) :
    inertLength? b cs = none := by
  have hne := ne_of_isBlank hb
  simp [inertLength?, hne '"' (by decide), hne '\'' (by decide), hne '/' (by decide)]

theorem openAfter_of_isBlank {b : Char} (hb : isBlank b = true) (depth : Nat) :
    openAfter depth b = depth := by
  have hne := ne_of_isBlank hb
  simp [openAfter, hne '(' (by decide), hne '[' (by decide), hne '\x7b' (by decide),
    hne ')' (by decide), hne ']' (by decide), hne '\x7d' (by decide)]

/-- White space before a text makes no difference. -/
theorem Clear.trimStart {t : List Char} (h : Clear block rest depth t after) :
    Clear block rest depth (Text.trimStart t) after := by
  induction h with
  | nil => exact .nil
  | @inert depth after c w cs hinert hcs _ =>
      have hc : isBlank c = false := by
        by_contra hb
        rw [Bool.not_eq_false] at hb
        rw [inertLength?_eq_none_of_isBlank hb] at hinert
        cases hinert
      rw [Text.trimStart, List.dropWhile_cons_of_neg (by simp [hc])]
      exact .inert hinert hcs
  | @plain depth after c cs hinert hbrace hsemicolon hcs ih =>
      by_cases hc : isBlank c = true
      · rw [Text.trimStart, List.dropWhile_cons_of_pos hc]
        rwa [openAfter_of_isBlank hc] at ih
      · rw [Text.trimStart, List.dropWhile_cons_of_neg hc]
        exact .plain hinert hbrace hsemicolon hcs

/-- What comes behind a text may be left out or replaced, if the word `else` is still seen. -/
theorem Clear.replace {t : List Char} (h : Clear block rest depth t after) (hrest : rest ≠ [])
    (hrest' : rest' = [] ∨ rest'.head? = rest.head?)
    (helse : ∀ cs, nextWordIs "else" (cs ++ rest) = nextWordIs "else" (cs ++ rest')) :
    Clear block rest' depth t after := by
  have hhead (cs : List Char) : cs ++ rest' = [] ∨ (cs ++ rest').head? = (cs ++ rest).head? := by
    cases cs with
    | nil => exact hrest'
    | cons c cs => exact Or.inr rfl
  induction h with
  | nil => exact .nil
  | @inert depth after c w cs hinert _ ih =>
      refine .inert (inertLength?_replace hinert ?_ (hhead cs)) ih
      simp [hrest]
  | @plain depth after c cs hinert hbrace hsemicolon _ ih =>
      refine .plain (inertLength?_eq_none_of_head hinert (hhead cs)) ?_ hsemicolon ih
      rwa [← helse]

/-- White space at the end of a text makes no difference. -/
theorem Clear.dropBlank {t : List Char} {b : Char} (h : Clear block [] depth (t ++ [b]) after)
    (hb : isBlank b = true) : ∃ after', Clear block [] depth t after' := by
  generalize ht : t ++ [b] = text at h
  induction h generalizing t with
  | nil => simp at ht
  | @inert depth after c w cs hinert hcs ih =>
      rcases t with _ | ⟨d, t⟩
      · exact ⟨_, .nil⟩
      · rw [List.cons_append, List.cons_eq_cons] at ht
        obtain ⟨rfl, ht⟩ := ht
        rw [List.append_nil] at hinert
        rcases List.eq_nil_or_concat cs with rfl | ⟨init, e, rfl⟩
        · -- The blank is the end of the literal or comment.
          rw [List.append_nil] at ht hinert
          have hfront : inertLength? d t = some t.length := by
            rw [← ht, List.length_append] at hinert
            refine inertLength?_truncate hinert (Nat.le_add_right _ _) ?_
            rintro rfl rfl
            rcases inertLength?_cases hinert with ⟨hquote, -⟩ | ⟨ds, -, ⟨hds, -⟩ | ⟨hds, -⟩⟩
            · simp at hquote
            · exact absurd hb (by rw [(List.cons_eq_cons.mp hds).1]; decide)
            · exact absurd hb (by rw [(List.cons_eq_cons.mp hds).1]; decide)
          rw [← List.append_nil t]
          exact ⟨depth, .inert (by simpa using hfront) .nil⟩
        · rw [List.concat_eq_append, ← List.append_assoc] at ht
          obtain ⟨rfl, hlast⟩ := List.append_inj' ht rfl
          obtain rfl := List.singleton_inj.mp hlast
          obtain ⟨after', hclear⟩ := ih List.concat_eq_append.symm
          rw [List.concat_eq_append] at hinert
          refine ⟨after', .inert (inertLength?_replace hinert (by simp) ?_) hclear⟩
          cases init <;> simp
  | @plain depth after c cs hinert hbrace hsemicolon _ ih =>
      rcases t with _ | ⟨d, t⟩
      · exact ⟨_, .nil⟩
      · rw [List.cons_append, List.cons_eq_cons] at ht
        obtain ⟨rfl, rfl⟩ := ht
        obtain ⟨after', hclear⟩ := ih rfl
        rw [List.append_nil] at hinert hbrace
        rw [nextWordIs_append_blank hb (by decide)] at hbrace
        refine ⟨after', .plain (inertLength?_eq_none_of_head hinert ?_) ?_ hsemicolon hclear⟩
        · cases t <;> simp
        · rwa [List.append_nil]

theorem Clear.trimEnd {t : List Char} (h : Clear block [] depth t after) :
    ∃ after', Clear block [] depth (Text.trimEnd t) after' := by
  induction t using List.reverseRecOn generalizing after with
  | nil => exact ⟨after, h⟩
  | append_singleton t b ih =>
      rw [trimEnd_concat]
      split_ifs with hb
      · obtain ⟨after', hclear⟩ := h.dropBlank hb
        exact ih hclear
      · exact ⟨after, h⟩

/-! ## Texts of one stretch -/

theorem startsBlock_congr {cs cs' : List Char}
    (hhead : (Text.trimStart cs).head? = some '\x7b' ↔ (Text.trimStart cs').head? = some '\x7b')
    (hword : ∀ word : String, word.toList.all Char.isAlpha = true →
      nextWordIs word cs = nextWordIs word cs') : startsBlock cs = startsBlock cs' := by
  rw [startsBlock, startsBlock, hword "if" (by decide), hword "while" (by decide),
    hword "for" (by decide), decide_eq_decide.mpr hhead]

theorem trimStart_trimStart (cs : List Char) :
    Text.trimStart (Text.trimStart cs) = Text.trimStart cs :=
  List.dropWhile_idempotent isBlank cs

theorem startsBlock_trimStart (cs : List Char) :
    startsBlock (Text.trimStart cs) = startsBlock cs := by
  refine startsBlock_congr (by rw [trimStart_trimStart]) fun word _ => ?_
  unfold nextWordIs
  rw [trimStart_trimStart]

theorem startsBlock_semicolon (cs rest : List Char) :
    startsBlock (cs ++ ';' :: rest) = startsBlock cs := by
  have hblank : isBlank ';' = false := by decide
  refine startsBlock_congr ?_ fun word hword => ?_
  · rw [trimStart_append hblank]
    cases Text.trimStart cs <;> simp
  · have hletters : ';' ∉ word.toList := fun hmem =>
      absurd (List.all_eq_true.mp hword _ hmem) (by decide)
    exact nextWordIs_append hblank hletters (by decide) cs rest

theorem startsBlock_append_blank {b : Char} (hb : isBlank b = true) (cs : List Char) :
    startsBlock (cs ++ [b]) = startsBlock cs := by
  refine startsBlock_congr ?_ fun word hword => ?_
  · rw [trimStart_append_blank hb]
    split_ifs with hnil
    · rw [hnil]
    · obtain ⟨c, text, htext⟩ := List.exists_cons_of_ne_nil hnil
      rw [htext]
      rfl
  · exact nextWordIs_append_blank hb hword cs

theorem startsBlock_trimEnd (cs : List Char) : startsBlock (Text.trimEnd cs) = startsBlock cs := by
  induction cs using List.reverseRecOn with
  | nil => rfl
  | append_singleton cs b ih =>
      rw [trimEnd_concat]
      split_ifs with hb
      · rw [ih, startsBlock_append_blank hb]
      · rfl

/-- A text without a place to cut is one stretch. -/
theorem Clear.stretches_eq {t : List Char} (h : Clear (startsBlock t) [] 0 t after) :
    stretches t = [(0, t)] := by
  have hgo : stretches.go [] ⟨0, t, 0, 0⟩ (t ++ []) = _ := h.go_eq rfl rfl
  rw [List.append_nil] at hgo
  rw [stretches, hgo, stretches.go]
  simp [Scan.pass, Scan.current]

/-- The brace at the end of a block statement is the only place to cut in it. -/
theorem Clear.stretches_closeBrace {t : List Char} (h : Clear true ['\x7d'] 0 t after)
    (hafter : after ≤ 1) (hblock : startsBlock (t ++ ['\x7d']) = true) :
    stretches (t ++ ['\x7d']) = [(0, t ++ ['\x7d']), (size (t ++ ['\x7d']), [])] := by
  have hgo : stretches.go [] ⟨0, t ++ ['\x7d'], 0, 0⟩ (t ++ ['\x7d']) = _ := h.go_eq hblock rfl
  have helse : nextWordIs "else" [] = false := by decide
  have htake : (t ++ ['\x7d']).take (t.length + 1) = t ++ ['\x7d'] :=
    List.take_of_length_le (by simp)
  rw [stretches, hgo, go_closeBrace, if_pos (by simp [Scan.pass, hafter, hblock, helse]),
    stretches.go]
  simp [Scan.pass, Scan.current, Scan.next, htake]

end Stretches

end Source
end GuardedRepl
