import GuardedRepl.Proofs.Source.Division

/-!
# Comments as white space

A comment says nothing to the lexer, and one space in its place separates the same tokens.  The
splitter passes over a comment as well, but where it looks for a word it looks at the text, so a
comment can hide the word from it.

**Results.**
* `piece_append_blank`: a lexeme is read in the same way if a blank follows.
* `division_none`: an item that is a comment changes the division only if it hides a word.
* `comment_as_space`: a comment that hides no word can be replaced by one space.
* `exists_hiding_comment`: a comment that hides a word and cannot be replaced.
-/

namespace GuardedRepl
namespace Source

open Text (isBlank)
open Text.Utf8 (size)

/-! ## Reading more -/

theorem takeWhile_append_blank {p : Char → Bool} {b : Char} (hb : p b = false)
    (cs rest : List Char) : (cs ++ b :: rest).takeWhile p = cs.takeWhile p := by
  rw [List.takeWhile_append]
  split_ifs with hall
  · rw [List.takeWhile_cons_of_neg (by simp [hb]), List.append_nil,
      (List.takeWhile_prefix p).eq_of_length hall]
  · rfl

theorem number_append_blank (c : Char) (cs rest : List Char) :
    number c (cs ++ ' ' :: rest) = number c cs := by
  have htail := takeWhile_append_blank (p := isNumberPart) (b := ' ') (by decide) cs rest
  have hlength : (cs.takeWhile isNumberPart).length ≤ cs.length :=
    (List.takeWhile_prefix _).length_le
  unfold number
  simp only [htail, List.drop_append_of_le_length hlength]
  cases cs.drop (cs.takeWhile isNumberPart).length <;> rfl

theorem stringBody_append {bytes length n : Nat} {done cs : List Char} {v : String}
    (h : stringBody bytes length done cs = .ok (v, n)) (rest : List Char) :
    stringBody bytes length done (cs ++ rest) = .ok (v, n) := by
  fun_induction stringBody bytes length done cs with
  | case1 | case3 | case4 | case6 => cases h
  | case2 bytes length done cs => simpa [stringBody] using h
  | case5 bytes length done e cs c hc ih =>
      rw [List.cons_append, List.cons_append, stringBody, hc]
      exact ih h
  | case7 bytes length done c cs hquote hline hlast hpair ih =>
      rw [List.cons_append, stringBody_cons _ _ _ _ (ne_escape hlast hpair) hline hquote]
      exact ih h

theorem characterBody_append {n : Nat} {cs : List Char} {v : Char}
    (h : characterBody cs = .ok (v, n)) (rest : List Char) :
    characterBody (cs ++ rest) = .ok (v, n) := by
  rcases characterBody_cases h with ⟨e, r, rfl, he, rfl⟩ | ⟨r, rfl, hescape, hquote, rfl⟩
  · exact characterBody_pair (r ++ rest) he
  · exact characterBody_single (r ++ rest) hescape hquote

theorem blockLength?_append {cs : List Char} {n : Nat} (h : blockLength? cs = some n)
    (rest : List Char) : blockLength? (cs ++ rest) = some n := by
  obtain ⟨k, hk, rfl⟩ := Option.map_eq_some_iff.mp h
  exact Option.map_eq_some_iff.mpr ⟨k, Text.indexOf?_append hk rest, rfl⟩

theorem longest?_append_blank (cs rest : List Char) :
    Punct.longest? (cs ++ ' ' :: rest) = Punct.longest? cs := by
  unfold Punct.longest?
  congr 1
  funext p
  rw [Bool.eq_iff_iff, List.isPrefixOf_iff_prefix, List.isPrefixOf_iff_prefix]
  refine ⟨fun h => ?_, fun h => h.trans (List.prefix_append cs _)⟩
  rcases Nat.le_total p.text.toList.length cs.length with hle | hle
  · exact List.prefix_of_prefix_length_le h (List.prefix_append cs _) hle
  · have hcs := List.prefix_of_prefix_length_le (List.prefix_append cs (' ' :: rest)) h hle
    obtain ⟨more, hmore⟩ := hcs
    cases more with
    | nil => simp [← hmore]
    | cons d more =>
        rw [← hmore, List.prefix_append_right_inj, List.cons_prefix_cons] at h
        have hblank := not_isBlank_of_mem_text (p := p) (c := d) (by simp [← hmore])
        rw [h.1] at hblank
        exact absurd hblank (by decide)

/-- The lexeme at the front is the same with a blank at the end of the text, unless that gets into
a line comment. -/
theorem piece_append_blank {c : Char} {cs : List Char} {p : Piece} (h : piece c cs = .ok p)
    (hline : c = '/' → cs.head? = some '/' → '\n' ∈ cs) (rest : List Char) :
    piece c (cs ++ ' ' :: rest) = .ok p := by
  have hhead {d : Char} (hd : d ≠ ' ') : (decide (c = '/') && decide
      ((cs ++ ' ' :: rest).head? = some d)) = (decide (c = '/') && decide (cs.head? = some d)) := by
    cases cs <;> simp [hd.symm]
  rw [piece, hhead (by decide), hhead (by decide)]
  rw [piece] at h
  split_ifs at h ⊢ with hspace hcomment hblock hdigit hquote hchar hname
  · exact h
  · simp only [Bool.and_eq_true, decide_eq_true_eq] at hcomment
    obtain ⟨d, hd, hmem⟩ : ∃ d ∈ cs, ¬decide (d ≠ '\n') = true :=
      ⟨'\n', hline hcomment.1 hcomment.2, by decide⟩
    have hshort : ¬(cs.takeWhile (· ≠ '\n')).length = cs.length := fun hlength =>
      hmem (List.takeWhile_eq_self_iff.mp ((List.takeWhile_prefix _).eq_of_length hlength) d hd)
    rw [lineLength, List.takeWhile_append, if_neg hshort]
    exact h
  · simp only [Bool.and_eq_true, decide_eq_true_eq] at hblock
    obtain ⟨ds, rfl⟩ := List.head?_eq_some_iff.mp hblock.2
    rw [List.drop_one, List.tail_cons] at h
    rw [List.cons_append, List.drop_one, List.tail_cons]
    rcases hlength : blockLength? ds with _ | n
    · rw [hlength] at h
      cases h
    · rw [hlength] at h
      rw [blockLength?_append hlength]
      exact h
  · rw [number_append_blank, h]
  · obtain ⟨⟨v, n⟩, hbody, rfl⟩ := map_eq_ok h
    rw [stringBody_append hbody]
    rfl
  · obtain ⟨⟨v, n⟩, hbody, rfl⟩ := map_eq_ok h
    rw [characterBody_append hbody]
    rfl
  · rw [takeWhile_append_blank (by decide), h]
  · rw [← List.cons_append, longest?_append_blank, h]

/-- One space in the place of a comment separates the same lexemes. -/
theorem Lexed.space {ls ms : List Lexeme} {w : List Char}
    (h : Lexed (ls ++ ⟨none, '/' :: w⟩ :: ms)) : Lexed (ls ++ ⟨none, [' ']⟩ :: ms) := by
  induction ls with
  | nil =>
      cases h with
      | cons _ hms => exact .cons (w := []) rfl hms
  | cons l ls ih =>
      rw [List.cons_append] at h ⊢
      cases h with
      | @cons kind? c v _ hpiece hls =>
          refine .cons ?_ (ih hls)
          rw [textOf_append, textOf_cons, List.cons_append, ← List.append_assoc] at hpiece
          rw [textOf_append, textOf_cons, List.singleton_append, ← List.append_assoc]
          refine piece_append_blank (piece_of_append hpiece (by simp)) (fun hc hslash => ?_) _
          -- The comment begins outside this lexeme, so this one is no comment that goes on.
          subst hc
          rw [piece, if_neg (by decide), if_pos (by rw [List.head?_append, hslash]; rfl)] at hpiece
          by_contra hline
          have hlength : lineLength (v ++ textOf ls ++ '/' :: (w ++ textOf ms)) = v.length :=
            congrArg Piece.more (Except.ok.inj hpiece)
          have hall (d : Char) (hd : d ∈ v ++ textOf ls) : decide (d ≠ '\n') = true :=
            decide_eq_true fun heq => hline (heq ▸ hd)
          rw [lineLength, List.takeWhile_append_of_pos hall] at hlength
          simp at hlength

/-! ## Division without a comment -/

theorem beginsWith_append {k : Keyword} {xs : List Item} (hxs : xs ≠ []) (ys : List Item) :
    beginsWith k (xs ++ ys) = beginsWith k xs := by
  rw [beginsWith, beginsWith, List.head?_append_of_ne_nil xs hxs]

theorem opensBlock_append {xs : List Item} (hxs : xs ≠ []) (ys : List Item) :
    opensBlock (xs ++ ys) = opensBlock xs := by
  simp only [opensBlock, beginsWith, List.head?_append_of_ne_nil xs hxs]

/-- Parts that begin blocks in the same cases and have the same tokens are divided in the same
way. -/
theorem division_congr {part part' xs : List Item} (hkinds : kindsOf part = kindsOf part')
    (hopens : ∀ zs, zs <+: xs → opensBlock (part ++ zs) = opensBlock (part' ++ zs)) (depth : Nat) :
    (division depth part xs).map kindsOf = (division depth part' xs).map kindsOf := by
  induction xs generalizing depth part part' with
  | nil => simp [division, hkinds]
  | cons x xs ih =>
      have hends : endsPart depth part x xs = endsPart depth part' x xs := by
        have hnil := hopens [] List.nil_prefix
        rw [List.append_nil, List.append_nil] at hnil
        rw [endsPart, endsPart, hnil]
      have hrest := @ih (part ++ [x]) (part' ++ [x]) (by simp [hkinds])
        (fun zs hzs => by
          simpa using hopens (x :: zs) (List.cons_prefix_cons.mpr ⟨rfl, hzs⟩)) (depthAfter depth x)
      rw [division, division, hends]
      split_ifs
      · simp [hkinds]
      · simp [hkinds]
      · exact hrest

theorem endsPart_none (depth : Nat) (part : List Item) (x : Item) (xs ys : List Item) :
    endsPart depth part x (xs ++ none :: ys) = endsPart depth part x xs := by
  cases xs <;> rfl

/-- An item that is a comment changes the division only if it hides a word. -/
theorem division_none {depth : Nat} {part xs ys : List Item}
    (hshown : (division depth part xs).getLast? = some [] → opensBlock ys = false ∧
      (xs.getLast? = some (some (.punct .closeBrace)) → beginsWith .elseWord ys = false)) :
    (division depth part (xs ++ none :: ys)).map kindsOf =
      (division depth part (xs ++ ys)).map kindsOf := by
  induction xs generalizing depth part with
  | nil =>
      rw [List.nil_append, List.nil_append, division_step _ (by simp) (by simp)]
      refine division_congr (by simp) (fun zs hzs => ?_) depth
      cases part with
      | nil =>
          have hopens := (hshown rfl).1
          cases zs with
          | nil => rfl
          | cons z zs =>
              obtain ⟨more, rfl⟩ := hzs
              rw [opensBlock_append (List.cons_ne_nil z zs)] at hopens
              rw [List.nil_append, List.nil_append, hopens]
              rfl
      | cons => rfl
  | cons x xs ih =>
      have hlast (h : xs.getLast? = some (some (.punct .closeBrace))) :
          (x :: xs).getLast? = some (some (.punct .closeBrace)) := by
        rw [List.getLast?_cons, h]
        rfl
      -- What follows is looked at only behind a brace, and there no word is hidden.
      have hends : endsPart depth part x (xs ++ ys) = endsPart depth part x xs := by
        by_cases hxs : xs = []
        · subst hxs
          by_cases h : endsPart depth part x [] = true
          · have hbrace : x = some (.punct .closeBrace) := by simp_all [endsPart]
            have helse := (hshown (by rw [division, if_pos h]; rfl)).2 (by simp [hbrace])
            rw [List.nil_append, h, endsPart, helse]
            exact h
          · rw [Bool.not_eq_true] at h
            have hnone : beginsWith .elseWord [] = false := rfl
            rw [endsPart, hnone, Bool.not_false, Bool.and_true] at h
            rw [List.nil_append, endsPart, endsPart, h, Bool.false_and, Bool.false_and]
        · rw [endsPart, endsPart, beginsWith_append hxs]
      rw [division] at hshown
      rw [List.cons_append, List.cons_append, division, division, endsPart_none, hends]
      split_ifs at hshown ⊢
      · rw [List.map_cons, List.map_cons, ih fun h => ?_]
        rw [List.getLast?_cons, h] at hshown
        exact (hshown rfl).imp_right fun helse h => helse (hlast h)
      · rw [List.map_cons, List.map_cons, ih fun h => ?_]
        rw [List.getLast?_cons, h] at hshown
        exact (hshown rfl).imp_right fun helse h => helse (hlast h)
      · exact ih fun h => (hshown h).imp_right fun helse h => helse (hlast h)

/-! ## The fragments without a comment -/

/-- The lexer comes to a comment where `before` ends, and it reads on where `after` begins. -/
def CommentBetween (before comment after : List Char) : Prop :=
  ∃ ls w ms, Lexed (ls ++ ⟨none, '/' :: w⟩ :: ms) ∧
    before = textOf ls ∧ comment = '/' :: w ∧ after = textOf ms

/-- A comment between the texts hides a word from the splitter.  It stands at the front of a
fragment, and behind it a statement begins that ends with a brace, or a brace ends the fragment
before it, and an `else` comes next. -/
def hidesWord (before after : List Char) : Bool :=
  ((stretches before).getLast?.any fun p => p.2.all isBlank) &&
    (startsBlock after ||
      decide ((Text.trimEnd before).getLast? = some '\x7d') && nextWordIs "else" after)

/-- A lexeme that is no item is one blank. -/
theorem Lexed.blank {l : Lexeme} (h : Lexed [l]) (hitem : l.item? = none) :
    ∃ b, l.text = [b] ∧ isBlank b = true := by
  cases h with
  | @cons kind? c w _ hpiece _ =>
      cases kind? with
      | some kind => cases hitem
      | none =>
          cases reads_of_piece hpiece with
          | blank hspace => exact ⟨c, rfl, isBlank_of_isSpace hspace⟩
          | line | block => cases hitem

theorem Lexed.all_blank {ls : List Lexeme} (h : Lexed ls) (hitems : itemsOf ls = []) :
    (textOf ls).all isBlank = true := by
  induction ls with
  | nil => rfl
  | cons l ls ih =>
      rw [itemsOf_cons, List.append_eq_nil_iff, Option.toList_eq_nil_iff] at hitems
      rw [← List.singleton_append] at h
      obtain ⟨b, hb, hblank⟩ := h.left.blank hitems.1
      rw [textOf_cons, hb, List.singleton_append, List.all_cons, hblank, ih h.right hitems.2]
      rfl

/-- The last item of a row is written at the end of its text, white space aside. -/
theorem Lexed.ends_closeBrace {ls : List Lexeme} (h : Lexed ls)
    (hlast : (itemsOf ls).getLast? = some (some (.punct .closeBrace))) :
    (Text.trimEnd (textOf ls)).getLast? = some '\x7d' := by
  induction ls using List.reverseRecOn with
  | nil => cases hlast
  | append_singleton ls l ih =>
      rw [itemsOf_append, itemsOf_cons, itemsOf_nil, List.append_nil] at hlast
      rw [textOf_append, textOf_cons, textOf_nil, List.append_nil]
      cases hitem : l.item? with
      | none =>
          obtain ⟨b, hb, hblank⟩ := h.right.blank hitem
          rw [hitem, Option.toList_none, List.append_nil] at hlast
          rw [hb, trimEnd_concat, if_pos hblank]
          exact ih h.left hlast
      | some x =>
          rw [hitem, Option.toList_some, List.getLast?_concat, Option.some_inj] at hlast
          subst hlast
          have hl := h.right
          cases hl with
          | @cons kind? c w _ hpiece _ =>
              cases kind? with
              | none => simp [Lexeme.item?] at hitem
              | some kind =>
                  cases hitem
                  obtain ⟨rfl, rfl⟩ : '\x7d' = c ∧ [] = w := by
                    simpa [Punct.text] using (punct_of_piece hpiece).1
                  rw [trimEnd_concat, if_neg (by decide), List.getLast?_concat]

/-- A comment that hides no word changes no tokens and no fragments. -/
theorem division_of_hidesWord {ls ms : List Lexeme} {w : List Char}
    (h : Lexed (ls ++ ⟨none, '/' :: w⟩ :: ms))
    (hline : ∀ l ∈ ls ++ ⟨none, '/' :: w⟩ :: ms, l.OneLine)
    (hshown : hidesWord (textOf ls) (textOf ms) = false) :
    (division 0 [] (itemsOf (ls ++ ⟨none, '/' :: w⟩ :: ms))).map kindsOf =
      (division 0 [] (itemsOf (ls ++ ms))).map kindsOf := by
  have hms : Lexed ms := by
    rw [List.append_cons] at h
    exact h.right
  rw [itemsOf_append, itemsOf_append, itemsOf_comment]
  refine division_none fun hfront => ?_
  obtain ⟨rows, hrows, hitems, hstretches⟩ := rows_stretches h.left fun l hl =>
    hline l (List.mem_append_left _ hl)
  -- The last stretch of the text before the comment is the front of the comment's fragment.
  rw [← hitems, List.getLast?_map, Option.map_eq_some_iff] at hfront
  obtain ⟨row, hrow, hnone⟩ := hfront
  have hstretch : ((stretches (textOf ls)).getLast?.any fun p => p.2.all isBlank) = true := by
    have hlast := congrArg List.getLast? hstretches
    rw [List.getLast?_map, List.getLast?_map, hrow, Option.map_some,
      Option.map_eq_some_iff] at hlast
    obtain ⟨p, hp, htext⟩ := hlast
    rw [hp, Option.any_some, htext]
    exact (hrows row (List.mem_of_getLast? hrow)).all_blank hnone
  rw [hidesWord, hstretch, Bool.true_and, Bool.or_eq_false_iff, hms.startsBlock_eq] at hshown
  refine ⟨hshown.1, fun hbrace => ?_⟩
  have helse := hshown.2
  rw [decide_eq_true (h.left.ends_closeBrace hbrace), Bool.true_and] at helse
  rw [← hms.nextWordIs_eq]
  exact helse

/-- One space in the place of a comment leaves the fragments as they are, each read as the kinds of
its tokens, unless the comment hides a word.  No token may go over a line end. -/
theorem comment_as_space {before comment after : List Char} {tokens : List Token}
    (htokens : tokenize (before ++ comment ++ after) = .ok tokens)
    (hline : ∀ t ∈ tokens, t.OneLine (before ++ comment ++ after))
    (hcomment : CommentBetween before comment after) (hshown : hidesWord before after = false) :
    ∃ parts : List (List TokenKind),
      (fragments (before ++ comment ++ after)).map (fun f => kindsIn f.text) = parts.map .ok ∧
        (fragments (before ++ ' ' :: after)).map (fun f => kindsIn f.text) = parts.map .ok := by
  obtain ⟨ls, w, ms, h, rfl, rfl, rfl⟩ := hcomment
  have htext : textOf ls ++ '/' :: w ++ textOf ms = textOf (ls ++ ⟨none, '/' :: w⟩ :: ms) := by
    simp
  have hspace : textOf ls ++ ' ' :: textOf ms = textOf (ls ++ ⟨none, [' ']⟩ :: ms) := by simp
  rw [htext] at htokens hline
  rw [h.tokenize_eq, Except.ok.injEq] at htokens
  subst htokens
  have hrow := oneLine_of_tokens fun t ht => hline t (List.mem_append_left _ ht)
  have hrow' : ∀ l ∈ ls ++ ⟨none, [' ']⟩ :: ms, l.OneLine := by
    simp only [List.forall_mem_append, List.forall_mem_cons] at hrow ⊢
    exact ⟨hrow.1, fun hsome => absurd hsome (by simp), hrow.2.2⟩
  rw [htext, hspace]
  refine ⟨_, fragments_kinds h hrow, ?_⟩
  rw [fragments_kinds h.space hrow', division_of_hidesWord h hrow hshown, itemsOf_append,
    itemsOf_append, itemsOf_blank (by decide)]

theorem comment_as_space_brace :
    ∃ before comment after : List Char,
      CommentBetween before comment after ∧ (fragments (before ++ comment ++ after)).length = 2 ∧
        hidesWord before after = false ∧ ∃ parts : List (List TokenKind),
          (fragments (before ++ comment ++ after)).map (fun f => kindsIn f.text) = parts.map .ok ∧
            (fragments (before ++ ' ' :: after)).map (fun f => kindsIn f.text) =
              parts.map .ok := by
  let before := "\x7b ".toList
  let comment := '/' :: "* \x7d; */".toList
  let after := "a; \x7d b".toList
  have hread : (tokenize after).isOk = true := by decide +kernel
  have hcount : (fragments (before ++ comment ++ after)).length = 2 := by decide +kernel
  have hshown : hidesWord before after = false := by decide +kernel
  have hnoline : '\n' ∉ before ++ comment ++ after := by decide
  rcases htokens : tokenize after with f | tokens
  · rw [htokens] at hread
    cases hread
  · obtain ⟨ms, hms, hafter, -⟩ := exists_lexed htokens
    have hcomment : Lexed (⟨none, comment⟩ :: ms) := .cons (by rw [← hafter]; rfl) hms
    have hblank : Lexed (⟨none, [' ']⟩ :: ⟨none, comment⟩ :: ms) := .cons (w := []) rfl hcomment
    have hrow : Lexed ([⟨some (.punct .openBrace), ['\x7b']⟩, ⟨none, [' ']⟩] ++
        ⟨none, comment⟩ :: ms) := .cons (w := []) rfl hblank
    have hbetween : CommentBetween before comment after := ⟨_, _, ms, hrow, rfl, rfl, hafter⟩
    have hsource : before ++ comment ++ after = textOf ([⟨some (.punct .openBrace), ['\x7b']⟩,
        ⟨none, [' ']⟩] ++ ⟨none, comment⟩ :: ms) := by
      rw [hafter]
      rfl
    exact ⟨before, comment, after, hbetween, hcount, hshown,
      comment_as_space (hsource ▸ hrow.tokenize_eq) (fun t _ b text a heq _ _ hmem =>
        hnoline (by simp [heq, hmem])) hbetween hshown⟩

/-- The splitter does not see the word behind the comment, so it does not cut behind the brace. -/
theorem exists_hiding_comment :
    ∃ before comment after : List Char, (tokenize (before ++ comment ++ after)).isOk = true ∧
      CommentBetween before comment after ∧
      (fragments (before ++ comment ++ after)).map (fun f => kindsIn f.text) ≠
        (fragments (before ++ ' ' :: after)).map (fun f => kindsIn f.text) := by
  let comment := '/' :: "* a */".toList
  let after := " if (true) \x7b 1; \x7d 2".toList
  have hread : (tokenize after).isOk = true := by decide +kernel
  have hwhole : (tokenize (comment ++ after)).isOk = true := by decide +kernel
  have hone : (fragments (comment ++ after)).length = 1 := by decide +kernel
  have htwo : (fragments (' ' :: after)).length = 2 := by decide +kernel
  rcases htokens : tokenize after with f | tokens
  · rw [htokens] at hread
    cases hread
  · obtain ⟨ms, hms, hafter, -⟩ := exists_lexed htokens
    have hrow : Lexed (⟨none, comment⟩ :: ms) := .cons (by rw [← hafter]; rfl) hms
    refine ⟨[], comment, after, hwhole, ⟨[], _, ms, hrow, rfl, rfl, hafter⟩, fun heq => ?_⟩
    have hlength := congrArg List.length heq
    rw [List.length_map, List.length_map, List.nil_append, List.nil_append, hone, htwo] at hlength
    cases hlength

end Source
end GuardedRepl
