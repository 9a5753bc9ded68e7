import GuardedRepl.Proofs.Source.Fragments
import GuardedRepl.Proofs.Source.Words

/-!
# Division by items

Where a command is cut can be told from its tokens and comments, without their texts.  The scan of
the characters and the division of the items go on step by step with the same number of open
brackets, so the fragments of a command, each read as its tokens, are the parts that have any.

**Results.**
* `rows_stretches`: the stretches of a command are rows whose items are the parts of the division.
* `fragments_kinds`: the tokens of the fragments.
-/

namespace GuardedRepl
namespace Source

open Text.Utf8 (size)

/-! ## The division of items -/

/-- The number of open brackets behind an item. -/
def depthAfter (depth : Nat) : Item → Nat
  | some (.punct .openParen) | some (.punct .openBracket) | some (.punct .openBrace) => depth + 1
  | some (.punct .closeParen) | some (.punct .closeBracket) | some (.punct .closeBrace) => depth - 1
  | _ => depth

@[simp] theorem depthAfter_none (depth : Nat) : depthAfter depth none = depth := by
  simp [depthAfter]

/-- A closing brace that ends a part, with the items `part` before it. -/
def endsPart (depth : Nat) (part : List Item) (x : Item) (xs : List Item) : Bool :=
  decide (x = some (.punct .closeBrace)) && decide (depth ≤ 1) && opensBlock part &&
    !beginsWith .elseWord xs

/-- A semicolon between two parts. -/
def separates (depth : Nat) (x : Item) : Bool :=
  decide (x = some (.punct .semicolon)) && decide (depth = 0)

/-- The parts of a list of items, if `part` has been passed of the first one and that many brackets
are open. -/
def division (depth : Nat) (part : List Item) : List Item → List (List Item)
  | [] => [part]
  | x :: xs =>
    if endsPart depth part x xs then (part ++ [x]) :: division 0 [] xs
    else if separates depth x then part :: division 0 [] xs
    else division (depthAfter depth x) (part ++ [x]) xs

/-- The kinds of the tokens among items. -/
def kindsOf (xs : List Item) : List TokenKind :=
  xs.filterMap id

@[simp] theorem kindsOf_nil : kindsOf [] = [] := rfl

@[simp] theorem kindsOf_append (xs ys : List Item) :
    kindsOf (xs ++ ys) = kindsOf xs ++ kindsOf ys :=
  List.filterMap_append

@[simp] theorem kindsOf_some (k : TokenKind) (xs : List Item) :
    kindsOf (some k :: xs) = k :: kindsOf xs := rfl

@[simp] theorem kindsOf_none (xs : List Item) : kindsOf (none :: xs) = kindsOf xs := rfl

theorem tokensFrom_kinds (offset : Nat) (ls : List Lexeme) :
    (tokensFrom offset ls).map Token.kind = kindsOf (itemsOf ls) := by
  induction ls generalizing offset with
  | nil => rfl
  | cons l ls ih =>
      rw [tokensFrom_cons, List.map_append, ih, itemsOf_cons, kindsOf_append]
      congr 1
      obtain ⟨kind?, text⟩ := l
      cases kind? with
      | none =>
          simp only [Lexeme.token?, Lexeme.item?, Option.map_none, Option.toList_none]
          split <;> rfl
      | some kind => rfl

/-! ## The scan and the division -/

section Steps

variable {done : List (Nat × List Char)} {s : Scan}

theorem go_plainWord {c : Char} {w rest : List Char} (h : (c :: w).all isPlain = true) :
    stretches.go done s (c :: (w ++ rest)) = stretches.go done (s.pass (w.length + 1)) rest :=
  go_word (List.all_eq_true.mp h) rest

/-- The scan counts brackets as the division does. -/
theorem go_punct {c : Char} {w rest : List Char} {p : Punct} (hp : p.text.toList = c :: w)
    (hslash : c = '/' → ∀ d ∈ (w ++ rest).head?, d ≠ '/' ∧ d ≠ '*') (hbrace : p ≠ .closeBrace)
    (hsemicolon : p ≠ .semicolon) :
    stretches.go done s (c :: (w ++ rest)) =
      stretches.go done { s.pass (w.length + 1) with depth := depthAfter s.depth (some (.punct p)) }
        rest := by
  cases p <;> simp [Punct.text] at hp <;> obtain ⟨rfl, rfl⟩ := hp
  case closeBrace => exact absurd rfl hbrace
  case semicolon => exact absurd rfl hsemicolon
  case openParen | openBracket | openBrace => exact go_open (by decide) rest
  case closeParen | closeBracket => exact go_close (by decide) rest
  case div => exact go_slash (hslash rfl)
  case divAssign => exact (go_slash (hslash rfl)).trans (go_plain rfl rest)
  all_goals exact go_plainWord rfl

/-- What is no operator leaves the brackets alone. -/
theorem go_lexeme {c : Char} {w rest : List Char} {kind? : Option TokenKind}
    (h : Reads c w rest kind?) (hline : kind?.isSome → '\n' ∉ c :: w)
    (hpunct : ∀ p, kind? ≠ some (.punct p)) :
    stretches.go done s (c :: (w ++ rest)) = stretches.go done (s.pass (w.length + 1)) rest := by
  have hinert {v : List Char} (hn : inertLength? c (v ++ rest) = some v.length) :
      stretches.go done s (c :: (v ++ rest)) = stretches.go done (s.pass (v.length + 1)) rest := by
    rw [go_inert hn, List.drop_left, Nat.add_comm]
  cases h with
  | blank hspace => exact go_plain (isPlain_of_isSpace hspace) rest
  | line hlength => exact hinert (by simp [inertLength?, lineLength_cons_slash, hlength])
  | block hlength => exact hinert (by simp [inertLength?, hlength])
  | word hw _ => exact go_word (fun d hd => isPlain_of_isNamePart (hw d hd)) rest
  | @literal _ w _ _ hquote hlength =>
      have hw : '\n' ∉ w := by
        have := hline rfl
        simp only [List.mem_cons, List.mem_append, not_or] at this
        exact this.2.1
      refine hinert ?_
      rw [inertLength?, if_pos (by simpa using hquote)]
      simp [hlength hw]
  | punct => exact absurd rfl (hpunct _)

end Steps

/-- How an operator is written, and that no comment begins with it. -/
theorem punct_of_piece {c : Char} {w rest : List Char} {p : Punct}
    (h : piece c (w ++ rest) = .ok ⟨some (.punct p), w.length⟩) :
    p.text.toList = c :: w ∧ (c = '/' → ∀ d ∈ (w ++ rest).head?, d ≠ '/' ∧ d ≠ '*') := by
  have htext : p.text.toList = c :: w := by
    generalize hkind : TokenKind.punct p = kind at h
    cases written_of_piece h with
    | number | literal => cases hkind
    | word => exact absurd hkind.symm (ofWord_ne_punct _ _)
    | punct hp =>
        cases hkind
        exact hp
  refine ⟨htext, ?_⟩
  cases reads_of_piece h with
  | word hw _ =>
      rintro rfl
      exact absurd (hw '/' List.mem_cons_self) (by decide)
  | punct _ hslash => exact hslash

theorem item_ne_punct {l : Lexeme} {x : Item} (hitem : l.item? = some x)
    (hpunct : ∀ p, l.kind? ≠ some (.punct p)) : ∀ p, x ≠ some (.punct p) := by
  obtain ⟨kind?, text⟩ := l
  cases kind? with
  | none =>
      simp only [Lexeme.item?] at hitem
      split at hitem <;> cases hitem
      simp
  | some kind =>
      cases hitem
      exact hpunct

theorem depthAfter_of_not_punct {x : Item} (hx : ∀ p, x ≠ some (.punct p)) (depth : Nat) :
    depthAfter depth x = depth := by
  unfold depthAfter
  split <;> first | rfl | exact absurd rfl (hx _)

theorem division_step {depth : Nat} {part : List Item} {x : Item} (xs : List Item)
    (hbrace : x ≠ some (.punct .closeBrace)) (hsemicolon : x ≠ some (.punct .semicolon)) :
    division depth part (x :: xs) = division (depthAfter depth x) (part ++ [x]) xs := by
  rw [division, if_neg (by simp [endsPart, hbrace]), if_neg (by simp [separates, hsemicolon])]

/-- A closing brace alone begins no block statement. -/
theorem opensBlock_closeBrace (part xs : List Item) :
    opensBlock (part ++ some (.punct .closeBrace) :: xs) = opensBlock part := by
  cases part <;> simp [opensBlock, beginsWith]

/-- The scan, which has passed `ls` of its current stretch, makes rows of the lexemes `ms`, and
their items are the parts of the division. -/
def MakesRows (s : Scan) (ls ms : List Lexeme) : Prop :=
  ∃ rows : List (List Lexeme), (∀ r ∈ rows, Lexed r) ∧
    rows.map itemsOf = division s.depth (itemsOf ls) (itemsOf ms) ∧
    ∀ done, (stretches.go done s (textOf ms)).map Prod.snd =
      done.reverse.map Prod.snd ++ rows.map textOf

section Rows

variable {s t : Scan} {ls ms : List Lexeme} {l : Lexeme}

/-- The current stretch goes on. -/
theorem MakesRows.passed (h : MakesRows t (ls ++ [l]) ms)
    (hgo : ∀ done, stretches.go done s (l.text ++ textOf ms) = stretches.go done t (textOf ms))
    (hdivision : division s.depth (itemsOf ls) (itemsOf (l :: ms)) =
      division t.depth (itemsOf (ls ++ [l])) (itemsOf ms)) : MakesRows s ls (l :: ms) := by
  obtain ⟨rows, hrows, hitems, hstretches⟩ := h
  refine ⟨rows, hrows, hitems.trans hdivision.symm, fun done => ?_⟩
  rw [textOf_cons, hgo]
  exact hstretches done

/-- A row is cut off, and a new stretch begins. -/
theorem MakesRows.cut {row : List Lexeme} (h : MakesRows t [] ms) (hrow : Lexed row)
    (hgo : ∀ done, stretches.go done s (l.text ++ textOf ms) =
      stretches.go ((s.start, textOf row) :: done) t (textOf ms))
    (hdivision : division s.depth (itemsOf ls) (itemsOf (l :: ms)) =
      itemsOf row :: division t.depth [] (itemsOf ms)) : MakesRows s ls (l :: ms) := by
  obtain ⟨rows, hrows, hitems, hstretches⟩ := h
  refine ⟨row :: rows, List.forall_mem_cons.mpr ⟨hrow, hrows⟩, ?_, fun done => ?_⟩
  · rw [hdivision, List.map_cons, hitems, itemsOf_nil]
  · rw [textOf_cons, hgo, hstretches]
    simp

end Rows

theorem makesRows {ls ms : List Lexeme} {s : Scan} (hlexed : Lexed (ls ++ ms))
    (hline : ∀ l ∈ ms, l.OneLine) (hs : s.At ls ms) : MakesRows s ls ms := by
  -- The induction is on the lexemes that are left; the scan carries its place in the row.
  induction ms generalizing s ls with
  | nil =>
      refine ⟨[ls], by simpa using hlexed, by simp [division], fun done => ?_⟩
      rw [textOf_nil, stretches.go, hs.current]
      simp
  | cons l ms ih =>
      rw [List.forall_mem_cons] at hline
      have hstretch : startsBlock s.stretch = opensBlock (itemsOf (ls ++ l :: ms)) := by
        rw [hs.stretch, ← textOf_append, hlexed.startsBlock_eq]
      have hls := hlexed.left
      have hrest := hlexed.right
      rw [List.append_cons] at hlexed
      cases hrest with
      | @cons kind? c w _ hpiece hms =>
          by_cases hpunct : ∃ p, kind? = some (.punct p)
          · obtain ⟨p, rfl⟩ := hpunct
            obtain ⟨hp, hslash⟩ := punct_of_piece hpiece
            rw [itemsOf_append, itemsOf_token] at hstretch
            by_cases hbrace : p = .closeBrace
            · subst hbrace
              obtain ⟨rfl, rfl⟩ : '\x7d' = c ∧ [] = w := by simpa [Punct.text] using hp
              have hcond : (decide (s.depth ≤ 1) && startsBlock s.stretch &&
                  !nextWordIs "else" (textOf ms)) = endsPart s.depth (itemsOf ls)
                    (some (.punct .closeBrace)) (itemsOf ms) := by
                rw [hstretch, opensBlock_closeBrace, endsPart, ← hms.nextWordIs_eq]
                simp [Keyword.text]
              by_cases hends : endsPart s.depth (itemsOf ls) (some (.punct .closeBrace))
                  (itemsOf ms) = true
              · refine (@ih [] _ hms hline.2 hs.next).cut hlexed.left (fun done => ?_) ?_
                · rw [← hs.current_cons]
                  exact (go_closeBrace (textOf ms)).trans (if_pos (hcond.trans hends))
                · rw [itemsOf_token, division, if_pos hends, itemsOf_append]
                  rfl
              · refine (ih hlexed hline.2 (hs.pass (s.depth - 1))).passed (fun done => ?_) ?_
                · exact (go_closeBrace (textOf ms)).trans (if_neg (by rwa [hcond]))
                · rw [itemsOf_token, division, if_neg hends, if_neg (by simp [separates]),
                    itemsOf_append]
                  rfl
            · by_cases hsemicolon : p = .semicolon
              · subst hsemicolon
                obtain ⟨rfl, rfl⟩ : ';' = c ∧ [] = w := by simpa [Punct.text] using hp
                by_cases hdepth : s.depth = 0
                · refine (@ih [] _ hms hline.2 hs.next).cut hls (fun done => ?_) ?_
                  · rw [← hs.current]
                    exact (go_semicolon (textOf ms)).trans (if_pos hdepth)
                  · rw [itemsOf_token, division, if_neg (by simp [endsPart]),
                      if_pos (by simp [separates, hdepth])]
                    rfl
                · refine (ih hlexed hline.2 (hs.pass s.depth)).passed (fun done => ?_) ?_
                  · exact (go_semicolon (textOf ms)).trans (if_neg hdepth)
                  · rw [itemsOf_token, division, if_neg (by simp [endsPart]),
                      if_neg (by simp [separates, hdepth]), itemsOf_append]
                    rfl
              · refine (ih hlexed hline.2 (hs.pass _)).passed
                  (fun done => go_punct hp hslash hbrace hsemicolon) ?_
                rw [itemsOf_append, itemsOf_token,
                  division_step _ (by simpa using hbrace) (by simpa using hsemicolon)]
                rfl
          · rw [not_exists] at hpunct
            refine (ih hlexed hline.2 (hs.pass s.depth)).passed
              (fun done => go_lexeme (reads_of_piece hpiece) hline.1 hpunct) ?_
            rw [itemsOf_append, itemsOf_cons, itemsOf_cons _ [], itemsOf_nil, List.append_nil]
            cases hitem : Lexeme.item? ⟨kind?, c :: w⟩ with
            | none => simp
            | some x =>
                have hx : ∀ p, x ≠ some (.punct p) := item_ne_punct hitem hpunct
                rw [Option.toList_some, List.singleton_append, division_step _ (hx _) (hx _),
                  depthAfter_of_not_punct hx]

/-- The stretches of a command are rows, and their items are the parts of its division. -/
theorem rows_stretches {ls : List Lexeme} (hls : Lexed ls) (hline : ∀ l ∈ ls, l.OneLine) :
    ∃ rows : List (List Lexeme), (∀ r ∈ rows, Lexed r) ∧
      rows.map itemsOf = division 0 [] (itemsOf ls) ∧
      (stretches (textOf ls)).map Prod.snd = rows.map textOf := by
  have hstart : Scan.At ⟨0, textOf ls, 0, 0⟩ [] ls := ⟨rfl, rfl⟩
  obtain ⟨rows, hrows, hitems, hstretches⟩ := @makesRows [] ls _ hls hline hstart
  exact ⟨rows, hrows, hitems, hstretches []⟩

/-! ## The tokens of the fragments -/

/-- A text read as the kinds of its tokens, without the one for the end. -/
def kindsIn (text : List Char) : Except Fault (List TokenKind) :=
  (tokenize text).map fun tokens => (body tokens).map Token.kind

theorem Lexed.kindsIn_eq {ls : List Lexeme} (h : Lexed ls) :
    kindsIn (textOf ls) = .ok (kindsOf (itemsOf ls)) := by
  rw [kindsIn, h.tokenize_eq]
  refine congrArg Except.ok ?_
  rw [← tokensFrom_kinds 0]
  exact congrArg (List.map Token.kind) (h.body_eq 0 _)

theorem isOnlyComments_line (cs : List Char) :
    isOnlyComments ('/' :: '/' :: cs) =
      isOnlyComments (Text.trimStart (cs.drop (lineLength cs))) := by
  rw [isOnlyComments]

/-- A row without tokens holds nothing but comments. -/
theorem Lexed.isOnlyComments {ls : List Lexeme} (h : Lexed ls) (hnone : kindsOf (itemsOf ls) = []) :
    Source.isOnlyComments (Text.trimStart (textOf ls)) = true := by
  induction h with
  | nil => simp [Text.trimStart, Source.isOnlyComments]
  | @cons kind? c w ls hpiece hls ih =>
      cases kind? with
      | some kind => cases hnone
      | none =>
          have hrest : kindsOf (itemsOf ls) = [] := by
            rw [itemsOf_cons, kindsOf_append] at hnone
            exact (List.append_eq_nil_iff.mp hnone).2
          rw [textOf_cons, List.cons_append]
          cases reads_of_piece hpiece with
          | blank hspace =>
              rw [Text.trimStart, List.dropWhile_cons_of_pos (isBlank_of_isSpace hspace)]
              exact ih hrest
          | @line w _ hlength =>
              rw [Text.trimStart, List.dropWhile_cons_of_neg (by decide), List.cons_append,
                isOnlyComments_line, hlength, List.drop_left]
              exact ih hrest
          | @block w _ hlength =>
              rw [Text.trimStart, List.dropWhile_cons_of_neg (by decide)]
              have hdrop : (w ++ '*' :: '/' :: textOf ls).drop (w.length + 2) = textOf ls := by
                rw [← List.drop_drop, List.drop_left]
                rfl
              simpa [Source.isOnlyComments, hlength, hdrop] using ih hrest

/-- The text of the fragment that a stretch makes. -/
theorem ofStretch?_text (start : Nat) (stretch : List Char) :
    (Fragment.ofStretch? start stretch).map Fragment.text =
      if (Text.trim stretch).isEmpty || isOnlyComments (Text.trim stretch) then none
      else some (Text.trim stretch) := by
  unfold Fragment.ofStretch?
  simp only
  split <;> rfl

/-- A stretch makes a fragment if it has tokens, and the fragment has the same ones. -/
theorem Lexed.fragment_kinds {ls : List Lexeme} (h : Lexed ls) (start : Nat) :
    (Fragment.ofStretch? start (textOf ls)).map (fun f => kindsIn f.text) =
      if kindsOf (itemsOf ls) = [] then none else some (.ok (kindsOf (itemsOf ls))) := by
  obtain ⟨bs, ms, rfl, -, hms, hlexed, hno⟩ := h.trimStart
  obtain ⟨ns, hns, htext, htokens⟩ := hlexed.trimEnd
  have htrim : Text.trim (textOf (bs ++ ms)) = textOf ns := by rw [Text.trim, ← hms, htext]
  have hkinds : kindsOf (itemsOf (bs ++ ms)) = kindsOf (itemsOf ns) := by
    rw [← tokensFrom_kinds 0 (bs ++ ms), ← tokensFrom_kinds (0 + Text.Utf8.size (textOf bs)) ns,
      tokensFrom_append, hno, List.nil_append, htokens]
  have hmap : (Fragment.ofStretch? start (textOf (bs ++ ms))).map (fun f => kindsIn f.text) =
      ((Fragment.ofStretch? start (textOf (bs ++ ms))).map Fragment.text).map kindsIn := by
    rw [Option.map_map]
    rfl
  rw [hmap, ofStretch?_text, htrim, hkinds]
  by_cases hnone : kindsOf (itemsOf ns) = []
  · have honly : Source.isOnlyComments (textOf ns) = true := by
      rw [← htrim, ← Text.trimStart_trim, htrim]
      exact hns.isOnlyComments hnone
    rw [if_pos hnone, if_pos (by simp [honly])]
    rfl
  · rw [if_neg hnone, if_neg, Option.map_some, hns.kindsIn_eq]
    rw [Bool.or_eq_true, List.isEmpty_iff]
    rintro (hnil | honly)
    · rw [hns.eq_nil hnil] at hnone
      exact hnone rfl
    · have hempty := hns.no_tokens honly 0
      rw [← tokensFrom_kinds 0, hempty] at hnone
      exact hnone rfl

/-- The tokens of the fragments are the parts of the division that have any. -/
theorem fragments_kinds {ls : List Lexeme} (hls : Lexed ls) (hline : ∀ l ∈ ls, l.OneLine) :
    (fragments (textOf ls)).map (fun f => kindsIn f.text) =
      (((division 0 [] (itemsOf ls)).map kindsOf).filter (· ≠ [])).map .ok := by
  obtain ⟨rows, hrows, hitems, hstretches⟩ := rows_stretches hls hline
  rw [fragments, ← hitems]
  generalize stretches (textOf ls) = ps at hstretches
  clear hitems
  induction rows generalizing ps with
  | nil =>
      rw [List.map_nil, List.map_eq_nil_iff] at hstretches
      subst hstretches
      rfl
  | cons row rows ih =>
      rw [List.forall_mem_cons] at hrows
      rw [List.map_cons, List.map_eq_cons_iff] at hstretches
      obtain ⟨⟨start, stretch⟩, ps, rfl, rfl, hps⟩ := hstretches
      have hrow := hrows.1.fragment_kinds start
      have hrest := ih hrows.2 ps hps
      rw [List.filterMap_cons, List.map_cons, List.map_cons, List.filter_cons]
      by_cases hnone : kindsOf (itemsOf row) = []
      · rw [if_pos hnone, Option.map_eq_none_iff] at hrow
        simp only [hrow, hnone, ne_eq, not_true_eq_false, decide_false, hrest]
        rfl
      · rw [if_neg hnone, Option.map_eq_some_iff] at hrow
        obtain ⟨f, hf, hkinds⟩ := hrow
        simp only [hf, List.map_cons, hkinds, hrest, ne_eq, hnone, not_false_eq_true, decide_true,
          if_true]

end Source
end GuardedRepl
