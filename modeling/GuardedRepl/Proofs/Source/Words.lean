import GuardedRepl.Proofs.Source.Trimming

/-!
# The word at the front

The splitter looks for a word at the front of a text with its own eyes: it compares characters and
knows the letters of Unicode.  The lexer reads the longest word of ASCII letters.  In a text that
can be cut into tokens both see the same: the word is there exactly if the first lexeme behind the
blanks is its token.

**Results.**
* `written_of_piece`: which tokens a piece can be, with the longest word.
* `Lexed.nextWordIs_eq`, `Lexed.startsBlock_eq`: what the splitter sees is the first item of a row.
-/

namespace GuardedRepl
namespace Source

open Text (isBlank)

/-! ## Items -/

/-- What the splitter can see of a lexeme that is no blank: the kind of a token, or a comment if
there is none. -/
abbrev Item := Option TokenKind

/-- The item of a lexeme, unless it is a blank. -/
def Lexeme.item? (l : Lexeme) : Option Item :=
  match l.kind? with
  | some kind => some (some kind)
  | none => if l.text.head? = some '/' then some none else none

/-- The items of a row. -/
def itemsOf (ls : List Lexeme) : List Item :=
  ls.filterMap Lexeme.item?

@[simp] theorem itemsOf_nil : itemsOf [] = [] := rfl

@[simp] theorem itemsOf_append (ls ms : List Lexeme) :
    itemsOf (ls ++ ms) = itemsOf ls ++ itemsOf ms :=
  List.filterMap_append

theorem itemsOf_cons (l : Lexeme) (ls : List Lexeme) :
    itemsOf (l :: ls) = l.item?.toList ++ itemsOf ls := by
  rw [itemsOf, List.filterMap_cons]
  cases l.item? <;> rfl

theorem itemsOf_token (kind : TokenKind) (w : List Char) (ls : List Lexeme) :
    itemsOf (⟨some kind, w⟩ :: ls) = some kind :: itemsOf ls := rfl

theorem itemsOf_comment (w : List Char) (ls : List Lexeme) :
    itemsOf (⟨none, '/' :: w⟩ :: ls) = none :: itemsOf ls := rfl

theorem itemsOf_blank {c : Char} (hc : c ≠ '/') (w : List Char) (ls : List Lexeme) :
    itemsOf (⟨none, c :: w⟩ :: ls) = itemsOf ls := by
  simp [itemsOf, Lexeme.item?, hc]

/-- The items begin with the token of a reserved word. -/
def beginsWith (k : Keyword) (xs : List Item) : Bool :=
  xs.head? = some (some (.keyword k))

/-- The items begin like a statement that ends with a brace. -/
def opensBlock (xs : List Item) : Bool :=
  xs.head? = some (some (.punct .openBrace)) || beginsWith .ifWord xs || beginsWith .whileWord xs ||
    beginsWith .forWord xs

/-! ## Which tokens there are -/

/-- What a token is and how it is written. -/
inductive Written : TokenKind → Char → List Char → List Char → Prop
  | number {n c w rest} : c.isDigit = true → Written (.int n) c w rest
  | literal {s c w rest} : c = '"' ∨ c = '\'' → Written (.str s) c w rest
  | word {c w rest} : isNameStart c = true → (w ++ rest).takeWhile isNamePart = w →
      Written (.ofWord (String.ofList (c :: w))) c w rest
  | punct {p c w rest} : p.text.toList = c :: w → Written (.punct p) c w rest

theorem written_of_piece {c : Char} {w rest : List Char} {kind : TokenKind}
    (h : piece c (w ++ rest) = .ok ⟨some kind, w.length⟩) : Written kind c w rest := by
  unfold piece at h
  split_ifs at h with hspace hline hblock hdigit hquote hchar hname
  · cases h
  · cases h
  · split at h <;> cases h
  · unfold number at h
    simp only at h
    split_ifs at h
    all_goals
      simp only [Except.ok.injEq, Piece.mk.injEq, Option.some.injEq] at h
      rw [← h.1]
      exact .number hdigit
  · obtain ⟨⟨v, n⟩, -, hpiece⟩ := map_eq_ok h
    cases hpiece
    exact .literal (Or.inl hquote)
  · obtain ⟨⟨v, n⟩, -, hpiece⟩ := map_eq_ok h
    cases hpiece
    exact .literal (Or.inr hchar)
  · generalize htail : (w ++ rest).takeWhile isNamePart = tail at h
    simp only [Except.ok.injEq, Piece.mk.injEq, Option.some.injEq] at h
    obtain ⟨rfl, hlength⟩ := h
    have hw : tail = w := by
      have hprefix : tail <+: w ++ rest := htail ▸ List.takeWhile_prefix _
      exact List.IsPrefix.eq_of_length
        (List.prefix_of_prefix_length_le hprefix (List.prefix_append w rest) hlength.le) hlength
    subst hw
    exact .word hname htail
  · split at h
    · next p hp =>
        simp only [Except.ok.injEq, Piece.mk.injEq, Option.some.injEq] at h
        obtain ⟨rfl, hlength⟩ := h
        obtain ⟨v, rest', hv, htext⟩ := longest?_cons_eq_some hp
        have hlong : w.length = v.length := by
          rw [← hlength, ← String.length_toList, htext, List.length_cons, Nat.add_sub_cancel]
        obtain ⟨rfl, -⟩ := List.append_inj hv hlong
        exact .punct htext
    · cases h

theorem ofWord_eq_keyword {s : String} {k : Keyword} :
    TokenKind.ofWord s = .keyword k ↔ s = k.text := by
  unfold TokenKind.ofWord
  constructor
  · intro h
    split at h <;> cases h
    rename_i hfind
    simpa using Eq.symm (by simpa using List.find?_some hfind)
  · rintro rfl
    cases k <;> rfl

theorem ofWord_ne_punct (s : String) (p : Punct) : TokenKind.ofWord s ≠ .punct p := by
  unfold TokenKind.ofWord
  split <;> exact TokenKind.noConfusion

/-! ## Characters of words -/

theorem isNamePart_text (k : Keyword) : ∀ c ∈ k.text.toList, isNamePart c = true := by
  have hall : k.text.toList.all isNamePart = true := by cases k <;> decide
  exact List.all_eq_true.mp hall

theorem isNameStart_text (k : Keyword) : ∃ c w, k.text.toList = c :: w ∧ isNameStart c = true := by
  cases k <;> exact ⟨_, _, rfl, by decide⟩

theorem not_isNameStart_of_mem_text {p : Punct} {c : Char} (h : c ∈ p.text.toList) :
    isNameStart c = false := by
  have hall : p.text.toList.all (fun d => !isNameStart d) = true := by cases p <;> decide
  simpa using List.all_eq_true.mp hall c h

theorem not_isNameStart_of_isDigit {c : Char} (h : c.isDigit = true) : isNameStart c = false := by
  change (decide ('0'.val ≤ c.val) && decide (c.val ≤ '9'.val)) = true at h
  simp only [Bool.and_eq_true, decide_eq_true_eq, UInt32.le_iff_toNat_le] at h
  change 48 ≤ c.toNat ∧ c.toNat ≤ 57 at h
  by_contra hname
  rw [Bool.not_eq_false, isNameStart, Bool.or_eq_true, Bool.or_eq_true, decide_eq_true_eq,
    decide_eq_true_eq] at hname
  rcases hname with (hname | rfl) | rfl
  · change (decide ('A'.val ≤ c.val ∧ c.val ≤ 'Z'.val) ||
      ('a'.val ≤ c.val && c.val ≤ 'z'.val)) = true at hname
    simp only [Bool.or_eq_true, Bool.and_eq_true, decide_eq_true_eq,
      UInt32.le_iff_toNat_le] at hname
    change (65 ≤ c.toNat ∧ c.toNat ≤ 90) ∨ (97 ≤ c.toNat ∧ c.toNat ≤ 122) at hname
    omega
  · revert h
    decide
  · revert h
    decide

theorem toNat_lt_of_isNamePart {c : Char} (h : isNamePart c = true) : c.toNat < 0x80 := by
  simp only [isNamePart, Bool.or_eq_true, decide_eq_true_eq] at h
  rcases h with (h | rfl) | rfl
  · exact Nat.lt_of_le_of_lt (toNat_of_isAlphanum h).2 (by decide)
  · decide
  · decide

theorem isBlank_of_isSpace {c : Char} (h : isSpace c = true) : isBlank c = true := by
  simp only [isSpace, Bool.or_eq_true, decide_eq_true_eq] at h
  rcases h with (((rfl | rfl) | rfl) | rfl) | rfl <;> decide

/-- A lexeme begins with an ASCII character. -/
theorem Reads.head_ascii {c : Char} {w rest : List Char} {kind? : Option TokenKind}
    (h : Reads c w rest kind?) : c.toNat < 0x80 := by
  cases h with
  | blank hspace =>
      simp only [isSpace, Bool.or_eq_true, decide_eq_true_eq] at hspace
      rcases hspace with (((rfl | rfl) | rfl) | rfl) | rfl <;> decide
  | line | block => decide
  | word hw _ => exact toNat_lt_of_isNamePart (hw c List.mem_cons_self)
  | literal hquote _ => rcases hquote with rfl | rfl <;> decide
  | @punct c w rest p hp _ =>
      have hall : p.text.toList.all (fun d => decide (d.toNat < 0x80)) = true := by
        cases p <;> decide
      exact of_decide_eq_true (List.all_eq_true.mp hall c (hp ▸ List.mem_cons_self))

/-- Where a row goes on, the splitter and the lexer agree about what belongs to a word. -/
theorem Lexed.follows_iff {ls : List Lexeme} (h : Lexed ls) :
    ((textOf ls).head?.any fun c => Text.isAlphanumeric c || c = '_' || c = '$') =
      (textOf ls).head?.any isNamePart := by
  cases h with
  | nil => rfl
  | @cons kind? c w ls hpiece _ =>
      have hc := (reads_of_piece hpiece).head_ascii
      simp [Text.isAlphanumeric, hc, isNamePart]

/-! ## The front of a row -/

/-- What stands at the front of a row that begins with no blank. -/
theorem nextWordIs_cons {c : Char} (hc : isBlank c = false) (word : String) (cs : List Char) :
    nextWordIs word (c :: cs) = (word.toList.isPrefixOf (c :: cs) &&
      !((c :: cs).drop word.toList.length).head?.any fun d =>
        Text.isAlphanumeric d || d = '_' || d = '$') := by
  rw [nextWordIs, Text.trimStart, List.dropWhile_cons_of_neg (by simp [hc])]

theorem nextWordIs_blank {c : Char} (hc : isBlank c = true) (word : String) (cs : List Char) :
    nextWordIs word (c :: cs) = nextWordIs word cs := by
  rw [nextWordIs, nextWordIs, Text.trimStart, Text.trimStart, List.dropWhile_cons_of_pos hc]

/-- A lexeme with another first character is not the word. -/
theorem nextWordIs_of_not_isNameStart {c : Char} (hblank : isBlank c = false)
    (hname : isNameStart c = false) (k : Keyword) (cs : List Char) :
    nextWordIs k.text (c :: cs) = false := by
  obtain ⟨d, w, htext, hd⟩ := isNameStart_text k
  rw [nextWordIs_cons hblank, htext]
  have hne : (d == c) = false := by
    rw [beq_eq_false_iff_ne]
    rintro rfl
    rw [hname] at hd
    cases hd
  simp [List.isPrefixOf, hne]

/-- Both scanners find the same end of a word. -/
theorem nextWordIs_word {c : Char} {w : List Char} {ls : List Lexeme} (hls : Lexed ls)
    (hname : isNameStart c = true) (hw : (w ++ textOf ls).takeWhile isNamePart = w)
    (k : Keyword) :
    nextWordIs k.text (c :: (w ++ textOf ls)) = decide (c :: w = k.text.toList) := by
  have hpart := isNamePart_of_isNameStart hname
  have hlong : (c :: (w ++ textOf ls)).takeWhile isNamePart = c :: w := by
    rw [List.takeWhile_cons_of_pos hpart, hw]
  rw [nextWordIs_cons (not_isBlank_of_isNamePart hpart)]
  by_cases heq : c :: w = k.text.toList
  · have hnot : (textOf ls).head?.any isNamePart = false := by
      cases hrest : textOf ls with
      | nil => rfl
      | cons d rest =>
          rw [hrest, List.takeWhile_append_of_pos (by
            rw [← hw]
            exact fun _ => List.mem_takeWhile_imp)] at hw
          rw [List.append_right_eq_self] at hw
          by_contra hd
          rw [Bool.not_eq_false] at hd
          rw [List.takeWhile_cons_of_pos (by simpa using hd)] at hw
          cases hw
    rw [← List.cons_append, ← heq, List.drop_left, hls.follows_iff, hnot]
    simp [heq]
  · rw [decide_eq_false heq, Bool.and_eq_false_iff]
    by_cases hprefix : k.text.toList <+: c :: (w ++ textOf ls)
    · right
      obtain ⟨rest, hrest⟩ := hprefix
      -- The lexer's word is longer than the reserved word, so a part of a name follows.
      rw [← hrest, List.drop_left]
      rw [← hrest, List.takeWhile_append_of_pos (isNamePart_text k)] at hlong
      cases rest with
      | nil => exact absurd (by simpa using hlong.symm) heq
      | cons d rest =>
          by_cases hd : isNamePart d = true
          · have hascii := toNat_lt_of_isNamePart hd
            simp only [isNamePart] at hd
            simp [Text.isAlphanumeric, hascii, hd]
          · rw [List.takeWhile_cons_of_neg hd, List.append_nil] at hlong
            exact absurd hlong.symm heq
    · left
      rw [← Bool.not_eq_true, List.isPrefixOf_iff_prefix]
      exact hprefix

/-- A reserved word stands at the front of a text exactly if its token is the first item. -/
theorem Lexed.nextWordIs_eq {ls : List Lexeme} (h : Lexed ls) (k : Keyword) :
    nextWordIs k.text (textOf ls) = beginsWith k (itemsOf ls) := by
  induction h with
  | nil =>
      obtain ⟨c, w, htext, -⟩ := isNameStart_text k
      simp [nextWordIs, Text.trimStart, htext, beginsWith]
  | @cons kind? c w ls hpiece hls ih =>
      rw [textOf_cons, List.cons_append]
      by_cases hblank : isBlank c = true
      · obtain ⟨rfl, rfl⟩ := (reads_of_piece hpiece).eq_blank hblank
        have hslash : c ≠ '/' := by
          rintro rfl
          exact absurd hblank (by decide)
        rw [nextWordIs_blank hblank, itemsOf_blank hslash]
        exact ih
      · rw [Bool.not_eq_true] at hblank
        cases kind? with
        | none =>
            cases reads_of_piece hpiece with
            | blank hspace => exact absurd (isBlank_of_isSpace hspace) (by simp [hblank])
            | line | block =>
                rw [nextWordIs_of_not_isNameStart hblank (by decide), itemsOf_comment]
                simp [beginsWith]
        | some kind =>
            rw [itemsOf_token]
            cases written_of_piece hpiece with
            | number hdigit =>
                rw [nextWordIs_of_not_isNameStart hblank (not_isNameStart_of_isDigit hdigit)]
                simp [beginsWith]
            | literal hquote =>
                rw [nextWordIs_of_not_isNameStart hblank
                  (by rcases hquote with rfl | rfl <;> decide)]
                simp [beginsWith]
            | word hname hw =>
                rw [nextWordIs_word hls hname hw]
                simp only [beginsWith, List.head?_cons, Option.some.injEq, ofWord_eq_keyword]
                rw [decide_eq_decide, ← String.toList_inj, String.toList_ofList]
            | punct hp =>
                rw [nextWordIs_of_not_isNameStart hblank
                  (not_isNameStart_of_mem_text (hp ▸ List.mem_cons_self))]
                simp [beginsWith]

/-- A brace stands at the front of a text exactly if it is the first item. -/
theorem Lexed.openBrace_iff {ls : List Lexeme} (h : Lexed ls) :
    (Text.trimStart (textOf ls)).head? = some '\x7b' ↔
      (itemsOf ls).head? = some (some (.punct .openBrace)) := by
  induction h with
  | nil => simp [Text.trimStart]
  | @cons kind? c w ls hpiece hls ih =>
      rw [textOf_cons, List.cons_append, Text.trimStart]
      by_cases hblank : isBlank c = true
      · obtain ⟨rfl, rfl⟩ := (reads_of_piece hpiece).eq_blank hblank
        have hslash : c ≠ '/' := by
          rintro rfl
          exact absurd hblank (by decide)
        rw [List.dropWhile_cons_of_pos hblank, itemsOf_blank hslash]
        exact ih
      · rw [List.dropWhile_cons_of_neg hblank, List.head?_cons, Option.some_inj]
        cases kind? with
        | none =>
            cases reads_of_piece hpiece with
            | blank hspace => exact absurd (isBlank_of_isSpace hspace) hblank
            | line | block => simp [itemsOf_comment]
        | some kind =>
            rw [itemsOf_token]
            cases written_of_piece hpiece with
            | number hdigit =>
                have hne : c ≠ '\x7b' := by
                  rintro rfl
                  exact absurd hdigit (by decide)
                simp [hne]
            | literal hquote => rcases hquote with rfl | rfl <;> simp
            | word hname _ =>
                have hne : c ≠ '\x7b' := by
                  rintro rfl
                  exact absurd hname (by decide)
                simp only [hne, false_iff, List.head?_cons, Option.some_inj]
                exact ofWord_ne_punct _ _
            | @punct p _ _ _ hp =>
                simp only [List.head?_cons, Option.some_inj, TokenKind.punct.injEq]
                have hhead : p.text.toList.head? = some c := by rw [hp, List.head?_cons]
                cases p <;> simp [Punct.text] at hhead <;> simp [← hhead]

/-- A text begins like a block statement exactly if its first item does. -/
theorem Lexed.startsBlock_eq {ls : List Lexeme} (h : Lexed ls) :
    startsBlock (textOf ls) = opensBlock (itemsOf ls) := by
  have hbrace : decide ((Text.trimStart (textOf ls)).head? = some '\x7b') =
      decide ((itemsOf ls).head? = some (some (.punct .openBrace))) :=
    decide_eq_decide.mpr h.openBrace_iff
  unfold startsBlock opensBlock
  rw [hbrace, ← h.nextWordIs_eq, ← h.nextWordIs_eq, ← h.nextWordIs_eq]
  rfl

end Source
end GuardedRepl
