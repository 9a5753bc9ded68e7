import GuardedRepl.Proofs.Source.Uncut

/-!
# The decomposition of a command

The stretches of a command make it up, but for the semicolons between them.  A stretch that makes no
fragment holds nothing but white space and comments, so the fragments are laid out in the command
and nothing is lost that could be a part of a snippet.  No fragment can be cut any further.

**Results.**
* `parted_stretches`: the scan finds no place to cut within a stretch.
* `Clear.scraps`: what is left of a stretch that makes no fragment.
* `Parted.laid`, `Parted.alone`: the fragments of the stretches.
* `fragments_decompose`: every command is decomposed into its fragments.
-/

namespace GuardedRepl
namespace Source

open Text (isBlank)
open Text.Utf8 (size)

/-! ## Stretches -/

/-- The stretches of a text that begins at byte `offset`, within which there is no place to cut. -/
inductive Parted : Nat → List Char → List (Nat × List Char) → Prop
  | last {offset after : Nat} {t : List Char} : Clear (startsBlock t) [] 0 t after →
      Parted offset t [(offset, t)]
  | semicolon {offset : Nat} {t rest : List Char} {ps : List (Nat × List Char)} :
      Clear (startsBlock t) (';' :: rest) 0 t 0 → Parted (offset + size (t ++ [';'])) rest ps →
      Parted offset (t ++ ';' :: rest) ((offset, t) :: ps)
  | brace {offset after : Nat} {t rest : List Char} {ps : List (Nat × List Char)} :
      Clear true ('\x7d' :: rest) 0 t after → after ≤ 1 → startsBlock t = true →
      Parted (offset + size (t ++ ['\x7d'])) rest ps →
      Parted offset (t ++ '\x7d' :: rest) ((offset, t ++ ['\x7d']) :: ps)

theorem current_passed (offset depth : Nat) (t rest : List Char) :
    Scan.current ⟨offset, t ++ rest, t.length, depth⟩ 0 = t := by
  simp [Scan.current]

theorem current_mark (offset depth : Nat) (t rest : List Char) (c : Char) :
    Scan.current ⟨offset, t ++ c :: rest, t.length, depth⟩ 1 = t ++ [c] := by
  rw [Scan.current, List.append_cons]
  exact List.take_left' (by simp)

theorem next_mark (offset depth : Nat) (t rest : List Char) (c : Char) :
    Scan.next ⟨offset, t ++ c :: rest, t.length, depth⟩ 1 =
      ⟨offset + size (t ++ [c]), rest, 0, 0⟩ := by
  have hdrop : (t ++ c :: rest).drop (t.length + 1) = rest := by
    rw [List.append_cons]
    exact List.drop_left' (by simp)
  rw [Scan.next, current_mark, hdrop]

/-- The scan passes the front of a stretch in which it finds no place to cut. -/
theorem Clear.go_front {block : Bool} {t rest : List Char} {after : Nat}
    (h : Clear block rest 0 t after) (hblock : startsBlock (t ++ rest) = block) (offset : Nat)
    (done : List (Nat × List Char)) :
    stretches.go done ⟨offset, t ++ rest, 0, 0⟩ (t ++ rest) =
      stretches.go done ⟨offset, t ++ rest, t.length, after⟩ rest := by
  have hpass : ({ Scan.pass ⟨offset, t ++ rest, 0, 0⟩ t.length with depth := after } : Scan) =
      ⟨offset, t ++ rest, t.length, after⟩ := by
    simp [Scan.pass]
  rw [← hpass]
  exact h.go_eq hblock rfl

theorem parted_go (offset : Nat) (cs : List Char) :
    ∃ ps, Parted offset cs ps ∧
      ∀ done, stretches.go done ⟨offset, cs, 0, 0⟩ cs = done.reverse ++ ps := by
  have hending := exists_ending (startsBlock cs) 0 cs
  generalize hblock : startsBlock cs = block at hending
  cases hending with
  | @atEnd _ after hclear =>
      refine ⟨_, .last (hblock ▸ hclear), fun done => ?_⟩
      have hgo := hclear.go_front (by rwa [List.append_nil]) offset done
      have hcurrent := current_passed offset after cs []
      rw [List.append_nil] at hgo hcurrent
      rw [hgo, stretches.go, hcurrent, List.reverse_cons]
  | @semicolon t rest hclear =>
      obtain ⟨ps, hps, hrest⟩ := parted_go (offset + size (t ++ [';'])) rest
      rw [← hblock, startsBlock_semicolon] at hclear
      refine ⟨_, .semicolon hclear hps, fun done => ?_⟩
      rw [hclear.go_front (startsBlock_semicolon t rest) offset done, go_semicolon, if_pos rfl,
        current_passed, next_mark, hrest, List.reverse_cons, List.append_assoc]
      rfl
  | @brace t rest after hclear hafter hstarts helse =>
      obtain ⟨ps, hps, hrest⟩ := parted_go (offset + size (t ++ ['\x7d'])) rest
      subst hstarts
      have hstarts : startsBlock t = true := (startsBlock_append t rest).symm.trans hblock
      refine ⟨_, .brace hclear hafter hstarts hps, fun done => ?_⟩
      rw [hclear.go_front hblock offset done, go_closeBrace,
        if_pos (by simp [hafter, hblock, helse]), current_mark, next_mark, hrest,
        List.reverse_cons, List.append_assoc]
      rfl
termination_by cs.length
decreasing_by
  all_goals simp only [List.length_append, List.length_cons]; omega

/-- The stretches of a command part it where the scan finds a place to cut. -/
theorem parted_stretches (command : List Char) : Parted 0 command (stretches command) := by
  obtain ⟨ps, hps, hgo⟩ := parted_go 0 command
  rw [stretches, hgo]
  exact hps

/-! ## What makes no fragment -/

/-- A block comment without an end reaches up to the end of the source. -/
def OpenComment (rest w : List Char) : Prop :=
  rest = [] ∧ ∃ v, w = '/' :: '*' :: v ∧ Unclosed v

/-- What may stand between fragments: white space, semicolons, and comments, of which the last one
may be unclosed. -/
abbrev Scraps : List Char → List Char → Prop :=
  Gap (fun c => isBlank c || c = ';') fun rest w => Comment rest w ∨ OpenComment rest w

theorem isOnlyComments_of_ne_slash {c : Char} (hc : c ≠ '/') (cs : List Char) :
    isOnlyComments (c :: cs) = false := by
  rw [isOnlyComments]
  · exact List.cons_ne_nil c cs
  · exact fun _ h => hc (List.cons.inj h).1
  · exact fun _ h => hc (List.cons.inj h).1

theorem isOnlyComments_cons {c : Char} {cs : List Char} (h : isOnlyComments (c :: cs) = true) :
    c = '/' ∧ ∃ ds, cs = '/' :: ds ∨ cs = '*' :: ds := by
  rw [isOnlyComments.eq_def] at h
  split at h
  · next hnil => cases hnil
  · next ds heq =>
      obtain ⟨rfl, rfl⟩ := List.cons_eq_cons.mp heq
      exact ⟨rfl, ds, Or.inl rfl⟩
  · next ds heq =>
      obtain ⟨rfl, rfl⟩ := List.cons_eq_cons.mp heq
      exact ⟨rfl, ds, Or.inr rfl⟩
  · cases h

theorem isOnlyComments_block (cs : List Char) :
    isOnlyComments ('/' :: '*' :: cs) =
      (blockLength? cs).elim true fun n => isOnlyComments (Text.trimStart (cs.drop n)) := by
  rw [isOnlyComments]
  cases blockLength? cs <;> rfl

section Stretches

variable {block : Bool} {t rest : List Char} {depth after : Nat}

/-- A text without a place to cut that holds nothing but comments. -/
theorem Clear.scraps (h : Clear block rest depth t after)
    (honly : isOnlyComments (Text.trimStart t) = true) : Scraps rest t := by
  induction h with
  | nil => exact .nil
  | @inert depth after c w cs hinert _ ih =>
      rcases inertLength?_cases hinert with ⟨hc, -⟩ | ⟨ds, rfl, ⟨hds, hn⟩ | ⟨hds, hn⟩⟩
      · have hblank : isBlank c = false := by rcases hc with rfl | rfl <;> decide
        have hslash : c ≠ '/' := by rcases hc with rfl | rfl <;> decide
        rw [Text.trimStart, List.dropWhile_cons_of_neg (by simp [hblank]),
          isOnlyComments_of_ne_slash hslash] at honly
        cases honly
      · obtain ⟨d, w, rfl⟩ := List.exists_cons_of_ne_nil
          (List.ne_nil_of_length_pos (by omega : 0 < w.length))
        obtain ⟨rfl, rfl⟩ := List.cons_eq_cons.mp hds
        obtain ⟨hw, hend⟩ := lineLength_append_iff.mp (Nat.succ.inj hn).symm
        have hcs : ∀ c ∈ cs.head?, c = '\n' := by
          rintro c hc
          exact hend c (by rw [List.head?_append, Option.mem_def.mp hc]; rfl)
        rw [Text.trimStart, List.dropWhile_cons_of_neg (by decide), List.cons_append,
          isOnlyComments_line, lineLength_append_iff.mpr ⟨hw, hcs⟩, List.drop_left] at honly
        exact .comment (Or.inl (.line hw hend)) (ih honly)
      · obtain ⟨d, w, rfl⟩ : ∃ d v, w = d :: v := by
          refine List.exists_cons_of_ne_nil ?_
          rintro rfl
          rcases hclosed : blockLength? ds with _ | m <;> simp [hclosed] at hn
        rw [List.cons_append, List.cons_eq_cons] at hds
        obtain ⟨rfl, rfl⟩ := hds
        rw [Text.trimStart, List.dropWhile_cons_of_neg (by decide), List.cons_append,
          isOnlyComments_block] at honly
        rcases hclosed : blockLength? (w ++ (cs ++ rest)) with _ | m
        · rw [hclosed] at hn
          simp only [List.length_cons, List.length_append, Option.map_none, Option.getD_none] at hn
          obtain rfl : cs = [] := List.length_eq_zero_iff.mp (by omega)
          obtain rfl : rest = [] := List.length_eq_zero_iff.mp (by omega)
          have hopen : OpenComment [] ('/' :: '*' :: w) :=
            ⟨rfl, w, rfl, unclosed_of_blockLength?_eq_none (by simpa using hclosed)⟩
          rw [List.append_nil]
          exact gap_of_comment (Or.inr hopen)
        · rw [hclosed] at hn
          obtain rfl : w.length = m := Nat.succ.inj hn
          rw [blockLength?_append (blockLength?_of_append hclosed le_rfl) cs, Option.elim_some,
            List.drop_left] at honly
          obtain ⟨v, rfl, hblock⟩ := closed_of_blockLength? hclosed
          exact .comment (Or.inl (.block hblock)) (ih honly)
  | @plain depth after c cs hinert _ _ _ ih =>
      by_cases hc : isBlank c = true
      · rw [Text.trimStart, List.dropWhile_cons_of_pos hc] at honly
        exact .loose (by simp [hc]) (ih honly)
      · rw [Text.trimStart, List.dropWhile_cons_of_neg hc] at honly
        -- A comment would not have been passed as a plain character.
        obtain ⟨rfl, ds, rfl | rfl⟩ := isOnlyComments_cons honly
        · rw [List.cons_append, inertLength?_slash] at hinert
          cases hinert
        · rw [List.cons_append, inertLength?_star] at hinert
          cases hinert

end Stretches

/-- What does not begin a comment is more than comments. -/
theorem isOnlyComments_eq_false {c : Char} {cs : List Char} (hline : cs.head? ≠ some '/')
    (hblock : cs.head? ≠ some '*') : isOnlyComments (c :: cs) = false := by
  by_contra honly
  rw [Bool.not_eq_false] at honly
  obtain ⟨-, ds, rfl | rfl⟩ := isOnlyComments_cons honly
  · exact hline rfl
  · exact hblock rfl

/-- White space does not end a comment. -/
theorem blockLength?_append_blank {b : Char} {cs : List Char} (hb : isBlank b = true)
    (h : blockLength? cs = none) : blockLength? (cs ++ [b]) = none := by
  rcases hclosed : blockLength? (cs ++ [b]) with _ | m
  · rfl
  · obtain ⟨v, more, hv, rfl⟩ := blockLength?_eq_some hclosed
    rcases List.eq_nil_or_concat more with rfl | ⟨init, d, rfl⟩
    · have hend : cs ++ [b] = (v ++ ['*']) ++ ['/'] := by rw [hv, ← List.append_cons]
      obtain ⟨-, hlast⟩ := List.append_inj' hend rfl
      exact absurd (List.singleton_inj.mp hlast) (ne_of_isBlank hb '/' (by decide))
    · have hlength := congrArg List.length hv
      simp only [List.concat_eq_append, List.length_append, List.length_cons] at hlength
      rw [blockLength?_of_append hclosed (by omega)] at h
      cases h

/-- White space behind comments makes no difference. -/
theorem isOnlyComments_append_blank {b : Char} (hb : isBlank b = true) (t : List Char) :
    isOnlyComments (Text.trimStart (t ++ [b])) = isOnlyComments (Text.trimStart t) := by
  rw [trimStart_append_blank hb]
  split_ifs with hnil
  · rw [hnil]
  · generalize Text.trimStart t = x at hnil
    induction x using isOnlyComments.induct with
    | case1 => exact absurd rfl hnil
    | case2 cs ih =>
        rw [List.cons_append, List.cons_append, isOnlyComments_line, isOnlyComments_line]
        by_cases hline : '\n' ∈ cs
        · have hle : lineLength cs ≤ cs.length := (List.takeWhile_prefix _).length_le
          rw [lineLength_append (List.contains_iff_mem.mpr hline),
            List.drop_append_of_le_length hle, trimStart_append_blank hb]
          split_ifs with hrest
          · rw [hrest]
          · exact ih hrest
        · have hbehind (n : Nat) : Text.trimStart ([b].drop n) = [] := by
            cases n <;> simp [Text.trimStart, hb]
          rw [lineLength_append_of_not_mem hline, List.drop_append,
            List.drop_eq_nil_of_le (Nat.le_add_right _ _), List.nil_append, hbehind,
            lineLength_eq_length_iff.mpr hline, List.drop_length]
          rfl
    | case3 cs n hn ih =>
        obtain ⟨v, more, rfl, rfl⟩ := blockLength?_eq_some hn
        rw [List.cons_append, List.cons_append, isOnlyComments_block, isOnlyComments_block,
          blockLength?_append hn, hn, Option.elim_some, Option.elim_some,
          List.drop_append_of_le_length (by simp), trimStart_append_blank hb]
        split_ifs with hrest
        · rw [hrest]
        · exact ih hrest
    | case4 cs hn =>
        rw [List.cons_append, List.cons_append, isOnlyComments_block, isOnlyComments_block,
          blockLength?_append_blank hb hn, hn]
        rfl
    | case5 x _ hline hblock =>
        obtain ⟨c, cs, rfl⟩ := List.exists_cons_of_ne_nil hnil
        by_cases hc : c = '/'
        · subst hc
          cases cs with
          | nil =>
              rw [isOnlyComments_eq_false (by simp) (by simp)]
              exact isOnlyComments_eq_false (by simpa using ne_of_isBlank hb '/' (by decide))
                (by simpa using ne_of_isBlank hb '*' (by decide))
          | cons d cs =>
              have hd : d ≠ '/' ∧ d ≠ '*' :=
                ⟨fun h => hline cs (by rw [h]), fun h => hblock cs (by rw [h])⟩
              rw [isOnlyComments_eq_false (by simp [hd.1]) (by simp [hd.2])]
              exact isOnlyComments_eq_false (by simp [hd.1]) (by simp [hd.2])
        · rw [List.cons_append, isOnlyComments_of_ne_slash hc, isOnlyComments_of_ne_slash hc]

theorem isOnlyComments_trim (t : List Char) :
    isOnlyComments (Text.trim t) = isOnlyComments (Text.trimStart t) := by
  have htrimEnd (x : List Char) :
      isOnlyComments (Text.trimStart (Text.trimEnd x)) = isOnlyComments (Text.trimStart x) := by
    induction x using List.reverseRecOn with
    | nil => rfl
    | append_singleton x b ih =>
        rw [trimEnd_concat]
        split_ifs with hb
        · rw [ih, isOnlyComments_append_blank hb]
        · rfl
  have htrim := htrimEnd (Text.trimStart t)
  rwa [← Text.trim, Text.trimStart_trim, trimStart_trimStart] at htrim

/-- A block statement is more than comments. -/
theorem isOnlyComments_of_startsBlock {t : List Char} (h : startsBlock t = true) :
    isOnlyComments (Text.trimStart t) = false := by
  have hhead {c : Char} {cs : List Char} (hc : c ≠ '/') (hfront : c :: cs <+: Text.trimStart t) :
      isOnlyComments (Text.trimStart t) = false := by
    obtain ⟨rest, hrest⟩ := hfront
    rw [← hrest, List.cons_append, isOnlyComments_of_ne_slash hc]
  have hword {word : String} (hnext : nextWordIs word t = true) :
      word.toList <+: Text.trimStart t := by
    rw [nextWordIs, Bool.and_eq_true] at hnext
    exact List.isPrefixOf_iff_prefix.mp hnext.1
  rw [startsBlock, Bool.or_eq_true, Bool.or_eq_true, Bool.or_eq_true, decide_eq_true_eq] at h
  rcases h with ((hbrace | hif) | hwhile) | hfor
  · obtain ⟨rest, hrest⟩ := List.head?_eq_some_iff.mp hbrace
    rw [hrest, isOnlyComments_of_ne_slash (by decide)]
  · exact hhead (by decide) (hword hif)
  · exact hhead (by decide) (hword hwhile)
  · exact hhead (by decide) (hword hfor)

/-! ## Fragments -/

theorem ofStretch?_eq_some {start : Nat} {t : List Char} {f : Fragment}
    (h : Fragment.ofStretch? start t = some f) :
    f = ⟨start + size (t.takeWhile isBlank), Text.trim t⟩ ∧ Text.trim t ≠ [] ∧
      isOnlyComments (Text.trim t) = false := by
  unfold Fragment.ofStretch? at h
  simp only at h
  split_ifs at h with hnone
  rw [Bool.or_eq_true, not_or, List.isEmpty_iff, Bool.not_eq_true] at hnone
  exact ⟨(Option.some.inj h).symm, hnone⟩

theorem isOnlyComments_of_ofStretch?_eq_none {start : Nat} {t : List Char}
    (h : Fragment.ofStretch? start t = none) : isOnlyComments (Text.trim t) = true := by
  unfold Fragment.ofStretch? at h
  simp only at h
  split_ifs at h with hnone
  rcases Bool.or_eq_true_iff.mp hnone with hnil | honly
  · rw [List.isEmpty_iff.mp hnil, isOnlyComments]
  · exact honly

/-- What is behind the white space and the text of a stretch is white space. -/
theorem exists_trim (t : List Char) :
    ∃ after, t = t.takeWhile isBlank ++ (Text.trim t ++ after) ∧
      ∀ c ∈ after, isBlank c = true := by
  refine ⟨((Text.trimStart t).reverse.takeWhile isBlank).reverse, ?_, fun c hc => ?_⟩
  · rw [Text.trim, Text.trimEnd, ← List.reverse_append, List.takeWhile_append_dropWhile,
      List.reverse_reverse, Text.trimStart, List.takeWhile_append_dropWhile]
  · exact List.mem_takeWhile_imp (List.mem_reverse.mp hc)

/-- A stretch makes one fragment, or it is a part of the gap before the next one. -/
theorem laid_stretch {offset : Nat} {t tail rest : List Char} {fs : List Fragment}
    (hfs : Laid Scraps (offset + size (t ++ tail)) rest fs) (htail : Scraps rest tail)
    (ht : isOnlyComments (Text.trimStart t) = true → Scraps (tail ++ rest) t) :
    Laid Scraps offset (t ++ (tail ++ rest)) ((Fragment.ofStretch? offset t).toList ++ fs) := by
  rw [Text.Utf8.size_append, ← Nat.add_assoc] at hfs
  have hbehind := hfs.behind htail
  rcases hsome : Fragment.ofStretch? offset t with _ | f
  · refine hbehind.behind (ht ?_)
    rw [← isOnlyComments_trim, isOnlyComments_of_ofStretch?_eq_none hsome]
  · obtain ⟨rfl, -⟩ := ofStretch?_eq_some hsome
    obtain ⟨after, hafter, hblank⟩ := exists_trim t
    have hwhole : t ++ (tail ++ rest) =
        t.takeWhile isBlank ++ (Text.trim t ++ (after ++ (tail ++ rest))) := by
      conv_lhs => rw [hafter]
      simp only [List.append_assoc]
    have hsize : size t = size (t.takeWhile isBlank) + size (Text.trim t) + size after := by
      conv_lhs => rw [hafter]
      simp only [Text.Utf8.size_append, Nat.add_assoc]
    have hgap (v u : List Char) (hu : ∀ c ∈ u, isBlank c = true) : Scraps v u :=
      gap_of_forall fun c hc => by simp [hu c hc]
    rw [hsize, ← Nat.add_assoc, ← Nat.add_assoc] at hbehind
    rw [hwhole]
    exact .piece (f := ⟨offset + size (t.takeWhile isBlank), Text.trim t⟩)
      (hgap _ _ fun c hc => List.mem_takeWhile_imp hc) rfl (hbehind.behind (hgap _ _ hblank))

theorem Parted.laid {offset : Nat} {cs : List Char} {ps : List (Nat × List Char)}
    (h : Parted offset cs ps) : Laid Scraps offset cs (fragmentsOf ps) := by
  induction h with
  | @last offset after t hclear =>
      have hend : Laid Scraps (offset + size (t ++ [])) [] [] := .last .nil
      have hlaid := laid_stretch hend .nil fun honly => hclear.scraps honly
      rw [List.append_nil, List.append_nil] at hlaid
      rw [fragmentsOf_cons]
      exact hlaid
  | @semicolon offset t rest ps hclear _ ih =>
      rw [fragmentsOf_cons]
      exact laid_stretch ih (.loose (by decide) .nil) fun honly => hclear.scraps honly
  | @brace offset after t rest ps hclear hafter hblock _ ih =>
      have hstarts : startsBlock (t ++ ['\x7d']) = true := (startsBlock_append t []).trans hblock
      have hlaid := laid_stretch (t := t ++ ['\x7d']) (by rwa [List.append_nil]) .nil
        fun honly => by
          rw [isOnlyComments_of_startsBlock hstarts] at honly
          cases honly
      rw [List.nil_append, ← List.append_cons] at hlaid
      rw [fragmentsOf_cons]
      exact hlaid

/-! ## No further cut -/

theorem takeWhile_trim (t : List Char) : (Text.trim t).takeWhile isBlank = [] := by
  have hsplit := List.takeWhile_append_dropWhile (p := isBlank) (l := Text.trim t)
  rw [← Text.trimStart, Text.trimStart_trim] at hsplit
  exact List.append_left_eq_self.mp hsplit

/-- A text that is one stretch is one fragment. -/
theorem fragments_trim {t : List Char} {ps : List (Nat × List Char)}
    (hstretches : stretches (Text.trim t) = (0, Text.trim t) :: ps) (hps : fragmentsOf ps = [])
    (hne : Text.trim t ≠ []) (honly : isOnlyComments (Text.trim t) = false) :
    fragments (Text.trim t) = [⟨0, Text.trim t⟩] := by
  change fragmentsOf (stretches (Text.trim t)) = _
  rw [hstretches, fragmentsOf_cons, hps, List.append_nil, Fragment.ofStretch?, Text.trim_trim,
    if_neg (by simp [hne, honly]), takeWhile_trim]
  rfl

/-- A fragment is not cut any further. -/
theorem Parted.alone {offset : Nat} {cs : List Char} {ps : List (Nat × List Char)}
    (h : Parted offset cs ps) : ∀ f ∈ fragmentsOf ps, fragments f.text = [⟨0, f.text⟩] := by
  have hclear {t : List Char} {after start : Nat} (h : Clear (startsBlock t) [] 0 t after) :
      ∀ f ∈ (Fragment.ofStretch? start t).toList, fragments f.text = [⟨0, f.text⟩] := by
    rintro f hf
    obtain ⟨rfl, hne, honly⟩ := ofStretch?_eq_some (Option.mem_toList.mp hf)
    obtain ⟨after', hclear⟩ := h.trimStart.trimEnd
    have hown : Clear (startsBlock (Text.trim t)) [] 0 (Text.trim t) after' := by
      rw [Text.trim, startsBlock_trimEnd, startsBlock_trimStart]
      exact hclear
    exact fragments_trim hown.stretches_eq rfl hne honly
  induction h with
  | @last offset after t h =>
      rw [fragmentsOf_cons, fragmentsOf, List.filterMap_nil, List.append_nil]
      exact hclear h
  | @semicolon offset t rest ps h _ ih =>
      have hown : Clear (startsBlock t) [] 0 t 0 := by
        refine h.replace (List.cons_ne_nil _ _) (Or.inl rfl) fun cs => ?_
        rw [List.append_nil]
        exact nextWordIs_append (by decide) (by decide) (by decide) cs rest
      rw [fragmentsOf_cons, List.forall_mem_append]
      exact ⟨hclear hown, ih⟩
  | @brace offset after t rest ps h hafter hblock _ ih =>
      rw [fragmentsOf_cons, List.forall_mem_append]
      refine ⟨?_, ih⟩
      rintro f hf
      obtain ⟨rfl, hne, honly⟩ := ofStretch?_eq_some (Option.mem_toList.mp hf)
      have htrim : Text.trim (t ++ ['\x7d']) = Text.trimStart t ++ ['\x7d'] := by
        rw [Text.trim, trimStart_append (by decide), trimEnd_concat, if_neg (by decide)]
      have hown : Clear true ['\x7d'] 0 (Text.trimStart t) after := by
        refine h.trimStart.replace (List.cons_ne_nil _ _) (Or.inr rfl) fun cs => ?_
        rw [nextWordIs_append (by decide) (by decide) (by decide) cs rest,
          nextWordIs_append (by decide) (by decide) (by decide) cs []]
      have hstarts : startsBlock (Text.trimStart t ++ ['\x7d']) = true := by
        rw [startsBlock_append, startsBlock_trimStart, hblock]
      refine fragments_trim (?_ : _ = _ :: [(size (Text.trim (t ++ ['\x7d'])), [])]) rfl hne honly
      rw [htrim]
      exact hown.stretches_closeBrace hafter hstarts

/-! ## The decomposition -/

theorem Fragment.StandsIn.inside {f : Fragment} {source : List Char} (h : f.StandsIn 0 source) :
    Span.Inside source ⟨f.start, f.stop⟩ := by
  obtain ⟨before, after, rfl, hstart⟩ := h
  rw [Nat.zero_add] at hstart
  rw [Fragment.stop, hstart, List.append_assoc]
  exact .of_append before f.text after

theorem exists_not_isBlank_of_trim {t : List Char} (h : Text.trim t ≠ []) :
    ∃ c ∈ Text.trim t, isBlank c = false := by
  by_contra hblank
  simp only [not_exists, not_and, Bool.not_eq_false] at hblank
  have hnil : Text.trimStart (Text.trim t) = [] := List.dropWhile_eq_nil_iff.mpr hblank
  rw [Text.trimStart_trim] at hnil
  exact h hnil

/-- **The fragments of a command.**  They are pieces of it, cut where characters end, one behind
another, and none is blank or has white space at an end.  Before, between and behind them there is
nothing but white space, semicolons and comments, of which the last one may be unclosed.  A fragment
is not cut any further. -/
theorem fragments_decompose (command : List Char) :
    Laid Scraps 0 command (fragments command) ∧
      (∀ f ∈ fragments command, f.StandsIn 0 command ∧
        Span.Inside command ⟨f.start, f.stop⟩ ∧ (∃ c ∈ f.text, isBlank c = false) ∧
        Text.trim f.text = f.text ∧ fragments f.text = [⟨0, f.text⟩]) ∧
      (fragments command).Pairwise fun f g => f.stop ≤ g.start := by
  have hparted := parted_stretches command
  have hlaid : Laid Scraps 0 command (fragments command) := hparted.laid
  refine ⟨hlaid, fun f hf => ?_, hlaid.pairwise⟩
  have hstands := hlaid.standsIn f hf
  obtain ⟨⟨start, t⟩, -, hstretch⟩ := List.mem_filterMap.mp hf
  obtain ⟨rfl, hne, -⟩ := ofStretch?_eq_some hstretch
  exact ⟨hstands, hstands.inside, exists_not_isBlank_of_trim hne, Text.trim_trim t,
    hparted.alone _ hf⟩

example : fragments " ;a//b;\n;\"c;/*d".toList = [⟨2, "a//b;".toList⟩, ⟨9, "\"c;/*d".toList⟩] := by
  cbv

end Source
end GuardedRepl
