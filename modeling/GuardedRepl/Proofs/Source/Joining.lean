import GuardedRepl.Proofs.Source.Comments

/-!
# Joining commands

Where the scan of a command stands outside brackets, literals and comments at the end, a semicolon
and another command can follow: the command that they make up has the fragments of both.

**Results.**
* `go_cons`: what the scan does at a character.
* `step_extend`: what comes behind the text does not change it.
* `stretches_join`, `fragments_join`: the stretches and the fragments of joined commands.
-/

namespace GuardedRepl
namespace Source

open Text (isBlank)
open Text.Utf8 (size)

/-! ## The end of a scan -/

/-- Whether a literal is closed, given what comes behind its opening quote. -/
def isClosed (quote : Char) : List Char → Bool
  | [] => false
  | ['\\'] => false
  | '\\' :: _ :: cs => isClosed quote cs
  | c :: cs => if c = '\n' || c = quote then true else isClosed quote cs

/-- Whether the literal or comment that begins with `c` comes to its end. -/
def isFinished (c : Char) (cs : List Char) : Bool :=
  if c = '"' || c = '\'' then isClosed c cs
  else if cs.head? = some '/' then cs.contains '\n'
  else (blockLength? (cs.drop 1)).isSome

/-- The number of open brackets behind a character.  A bracket that closes none is passed over. -/
def openAfter (depth : Nat) (c : Char) : Nat :=
  if c = '(' || c = '[' || c = '\x7b' then depth + 1
  else if c = ')' || c = ']' || c = '\x7d' then depth - 1
  else depth

/-- The number of open brackets at the end of a text, if this lies outside literals and comments. -/
def openAtEnd? (depth : Nat) : List Char → Option Nat
  | [] => some depth
  | c :: cs =>
    match inertLength? c cs with
    | some n => if isFinished c cs then openAtEnd? depth (cs.drop n) else none
    | none => openAtEnd? (openAfter depth c) cs
termination_by cs => cs.length
decreasing_by
  all_goals simp only [List.length_drop, List.length_cons]; omega

/-- The scan of a command ends outside literals and comments, and every bracket is closed. -/
def IsNeutral (command : List Char) : Prop :=
  openAtEnd? 0 command = some 0

instance (command : List Char) : Decidable (IsNeutral command) :=
  inferInstanceAs (Decidable (_ = _))

/-! ## Literals and comments -/

theorem quotedLength_append {quote : Char} {cs : List Char} (h : isClosed quote cs = true)
    (length : Nat) (rest : List Char) :
    quotedLength quote length (cs ++ rest) = quotedLength quote length cs ∧
      quotedLength quote length cs ≤ length + cs.length := by
  fun_induction isClosed quote cs generalizing length with
  | case1 | case2 => cases h
  | case3 _ cs ih =>
      obtain ⟨heq, hle⟩ := ih h (length + 2)
      simp only [List.cons_append, quotedLength, List.length_cons]
      exact ⟨heq, by omega⟩
  | case4 c cs hlast hpair hstop =>
      have hescape := ne_escape hlast hpair
      have hquoted (ds : List Char) : quotedLength quote length (c :: ds) = length + 1 := by
        rw [quotedLength]
        · rw [if_pos (by simpa using hstop)]
        · exact fun h _ => hescape h
        · exact fun _ _ h _ => hescape h
      rw [List.cons_append, hquoted, hquoted, List.length_cons]
      exact ⟨rfl, by omega⟩
  | case5 c cs hlast hpair hstop ih =>
      have hescape := ne_escape hlast hpair
      simp only [Bool.or_eq_true, decide_eq_true_eq, not_or] at hstop
      obtain ⟨heq, hle⟩ := ih h (length + 1)
      rw [List.cons_append, quotedLength_cons _ _ hescape hstop.1 hstop.2,
        quotedLength_cons _ _ hescape hstop.1 hstop.2, List.length_cons]
      exact ⟨heq, by omega⟩

theorem lineLength_append {cs : List Char} (h : cs.contains '\n' = true) (rest : List Char) :
    lineLength (cs ++ rest) = lineLength cs := by
  have hshort : (cs.takeWhile (· ≠ '\n')).length ≠ cs.length := by
    intro hlength
    have hall := (List.takeWhile_prefix (· ≠ '\n')).eq_of_length hlength
    have hmem : '\n' ∈ cs.takeWhile (· ≠ '\n') := hall.symm ▸ List.contains_iff_mem.mp h
    simpa using List.mem_takeWhile_imp hmem
  rw [lineLength, lineLength, List.takeWhile_append, if_neg hshort]

/-- A literal or comment that comes to its end does not reach into what follows. -/
theorem inertLength?_append {c : Char} {cs : List Char} {n : Nat}
    (hn : inertLength? c cs = some n) (hfinished : isFinished c cs = true) (rest : List Char) :
    inertLength? c (cs ++ rest) = some n ∧ n ≤ cs.length := by
  have hbegins {d : Char} (hd : (decide (c = '/') && decide (cs.head? = some d)) = true) :
      (decide (c = '/') && decide ((cs ++ rest).head? = some d)) = true := by
    simp only [Bool.and_eq_true, decide_eq_true_eq] at hd ⊢
    exact ⟨hd.1, by rw [List.head?_append, hd.2]; rfl⟩
  have hdiffers {d e : Char} (hd : (decide (c = '/') && decide (cs.head? = some d)) = true)
      (hde : d ≠ e) : ¬(decide (c = '/') && decide ((cs ++ rest).head? = some e)) = true := by
    have hd := hbegins hd
    simp only [Bool.and_eq_true, decide_eq_true_eq] at hd ⊢
    exact fun he => hde (Option.some.inj (hd.2.symm.trans he.2))
  unfold inertLength? at hn
  unfold isFinished at hfinished
  split_ifs at hn hfinished with hquote hline hhead hblock hhead
  · cases hn
    obtain ⟨heq, hle⟩ := quotedLength_append hfinished 0 rest
    rw [inertLength?, if_pos hquote, heq]
    exact ⟨rfl, by omega⟩
  · cases hn
    rw [inertLength?, if_neg hquote, if_pos (hbegins hline), lineLength_append hfinished]
    exact ⟨rfl, (List.takeWhile_prefix _).length_le⟩
  · simp only [Bool.and_eq_true, decide_eq_true_eq] at hline
    exact absurd hline.2 hhead
  · simp only [Bool.and_eq_true, decide_eq_true_eq] at hblock
    rw [hhead] at hblock
    exact absurd hblock.2 (by decide)
  · obtain ⟨m, hm⟩ := Option.isSome_iff_exists.mp hfinished
    obtain ⟨ds, rfl⟩ : ∃ ds, cs = '*' :: ds := by
      simp only [Bool.and_eq_true, decide_eq_true_eq] at hblock
      exact List.head?_eq_some_iff.mp hblock.2
    rw [List.drop_one, List.tail_cons] at hm hn
    rw [hm] at hn
    cases hn
    obtain ⟨w, after, rfl, rfl⟩ := blockLength?_eq_some hm
    rw [inertLength?, if_neg hquote, if_neg (hdiffers hblock (by decide)), if_pos (hbegins hblock),
      List.cons_append, List.drop_one, List.tail_cons, blockLength?_append hm]
    refine ⟨rfl, ?_⟩
    simp only [Option.map_some, Option.getD_some, List.length_cons, List.length_append]
    omega

/-- A character that begins no literal and no comment begins none before a semicolon either. -/
theorem inertLength?_semicolon {c : Char} {cs : List Char} (h : inertLength? c cs = none)
    (rest : List Char) : inertLength? c (cs ++ ';' :: rest) = none := by
  have hbegins {d : Char} (hd : d ≠ ';')
      (hnot : ¬(decide (c = '/') && decide (cs.head? = some d)) = true) :
      ¬(decide (c = '/') && decide ((cs ++ ';' :: rest).head? = some d)) = true := by
    cases cs with
    | nil => simp [hd.symm]
    | cons e ds => exact hnot
  unfold inertLength? at h ⊢
  split_ifs at h with hquote hline hblock
  rw [if_neg hquote, if_neg (hbegins (by decide) hline), if_neg (hbegins (by decide) hblock)]

/-! ## Looking ahead and back -/

/-- White space at the front does not reach over a mark. -/
theorem trimStart_append {c : Char} (hblank : isBlank c = false) (cs rest : List Char) :
    Text.trimStart (cs ++ c :: rest) = Text.trimStart cs ++ c :: rest := by
  rw [Text.trimStart, Text.trimStart, List.dropWhile_append]
  split
  · next hempty =>
      rw [List.dropWhile_cons_of_neg (by simp [hblank]), List.isEmpty_iff.mp hempty]
      rfl
  · rfl

/-- A mark that belongs to no word ends the text in which the word is looked for. -/
theorem nextWordIs_append {word : String} {c : Char} (hblank : isBlank c = false)
    (hword : c ∉ word.toList)
    (hpart : (Text.isAlphanumeric c || c = '_' || c = '$') = false) (cs rest : List Char) :
    nextWordIs word (cs ++ c :: rest) = nextWordIs word cs := by
  unfold nextWordIs
  simp only [trimStart_append hblank]
  generalize Text.trimStart cs = text
  by_cases hfront : word.toList <+: text
  · obtain ⟨after, rfl⟩ := hfront
    rw [List.append_assoc, List.isPrefixOf_iff_prefix.mpr (List.prefix_append _ _),
      List.isPrefixOf_iff_prefix.mpr (List.prefix_append _ _), List.drop_left, List.drop_left]
    cases after with
    | nil => simpa using hpart
    | cons d after => rfl
  · have hlonger : ¬word.toList <+: text ++ c :: rest := by
      intro hword'
      rcases Nat.le_total word.toList.length text.length with hle | hle
      · exact hfront (List.prefix_of_prefix_length_le hword' (List.prefix_append text _) hle)
      · obtain ⟨more, hmore⟩ :=
          List.prefix_of_prefix_length_le (List.prefix_append text (c :: rest)) hword' hle
        cases more with
        | nil => exact hfront ⟨[], by rw [← hmore, List.append_nil, List.append_nil]⟩
        | cons d more =>
            rw [← hmore, List.prefix_append_right_inj, List.cons_prefix_cons] at hword'
            exact hword (by rw [← hmore, hword'.1]; simp)
    rw [← List.isPrefixOf_iff_prefix, Bool.not_eq_true] at hfront hlonger
    rw [hfront, hlonger, Bool.false_and, Bool.false_and]

/-- Whether a statement is a block is seen before the brace that closes it. -/
theorem startsBlock_append (cs rest : List Char) :
    startsBlock (cs ++ '\x7d' :: rest) = startsBlock cs := by
  have hblank : isBlank '\x7d' = false := by decide
  have hpart : (Text.isAlphanumeric '\x7d' || '\x7d' = '_' || '\x7d' = '$') = false := by decide
  have hhead : ((Text.trimStart cs ++ '\x7d' :: rest).head? = some '\x7b') =
      ((Text.trimStart cs).head? = some '\x7b') := by
    cases Text.trimStart cs <;> simp
  unfold startsBlock
  rw [trimStart_append hblank, nextWordIs_append hblank (by decide) hpart,
    nextWordIs_append hblank (by decide) hpart, nextWordIs_append hblank (by decide) hpart]
  simp only [hhead]

/-! ## One step -/

/-- What the scan does at a character: it goes on behind it and `n` more with so many open brackets,
or it cuts after `m` more characters of the stretch. -/
inductive Step where
  | goOn (n depth : Nat)
  | cut (m : Nat)

/-- The step of the scan at the character `c`, with `cs` behind it. -/
def Scan.step (s : Scan) (c : Char) (cs : List Char) : Step :=
  if let some n := inertLength? c cs then .goOn n s.depth
  else if c = '\x7d' && s.depth ≤ 1 && startsBlock s.stretch && !nextWordIs "else" cs then .cut 1
  else if c = ';' && s.depth = 0 then .cut 0
  else .goOn 0 (openAfter s.depth c)

/-- The scan goes on from its step. -/
def Scan.follow (done : List (Nat × List Char)) (s : Scan) (cs : List Char) :
    Step → List (Nat × List Char)
  | .goOn n depth => stretches.go done { s.pass (1 + n) with depth } (cs.drop n)
  | .cut m => stretches.go ((s.start, s.current m) :: done) (s.next 1) cs

theorem go_cons (done : List (Nat × List Char)) (s : Scan) (c : Char) (cs : List Char) :
    stretches.go done s (c :: cs) = s.follow done cs (s.step c cs) := by
  rw [stretches.go, Scan.step]
  cases inertLength? c cs with
  | some n => rfl
  | none =>
      simp only [openAfter]
      split_ifs <;> first | rfl | simp_all

/-- At a literal or comment the scan goes on behind it. -/
theorem step_inert {s : Scan} {c : Char} {cs : List Char} {n : Nat}
    (h : inertLength? c cs = some n) : s.step c cs = .goOn n s.depth := by
  rw [Scan.step, h]

/-- The scan takes other characters one by one, and counts the brackets on its way. -/
theorem step_cases (s : Scan) {c : Char} {cs : List Char} (h : inertLength? c cs = none) :
    s.step c cs = .goOn 0 (openAfter s.depth c) ∨
      ∃ m ≤ 1, s.step c cs = .cut m ∧ openAfter s.depth c = 0 := by
  rw [Scan.step, h]
  simp only
  split_ifs with hbrace hsemicolon
  · simp only [Bool.and_eq_true, decide_eq_true_eq] at hbrace
    obtain ⟨⟨⟨rfl, hdepth⟩, -⟩, -⟩ := hbrace
    exact Or.inr ⟨1, Nat.le_refl 1, rfl, Nat.sub_eq_zero_of_le hdepth⟩
  · simp only [Bool.and_eq_true, decide_eq_true_eq] at hsemicolon
    obtain ⟨rfl, hdepth⟩ := hsemicolon
    exact Or.inr ⟨0, Nat.zero_le 1, rfl, hdepth⟩
  · exact Or.inl rfl

/-! ## More text behind -/

namespace Scan

/-- The text `cs` comes next in the scan. -/
def Faces (s : Scan) (cs : List Char) : Prop :=
  ∃ passed, s.stretch = passed ++ cs ∧ s.length = passed.length

/-- The same scan of a text that goes on with `more`. -/
def extend (s : Scan) (more : List Char) : Scan :=
  { s with stretch := s.stretch ++ more }

/-- The byte behind the text. -/
def stop (s : Scan) : Nat :=
  s.start + size s.stretch

variable {s : Scan} {c : Char} {cs w : List Char}

theorem Faces.pass (h : s.Faces (w ++ cs)) (depth : Nat) :
    Faces { s.pass w.length with depth } cs := by
  obtain ⟨passed, hstretch, hlength⟩ := h
  exact ⟨passed ++ w, hstretch.trans (List.append_assoc passed w cs).symm,
    by simp only [Scan.pass, hlength, List.length_append]⟩

theorem Faces.length_le (h : s.Faces cs) : s.length + cs.length = s.stretch.length := by
  obtain ⟨passed, hstretch, hlength⟩ := h
  rw [hstretch, hlength, List.length_append]

theorem Faces.next (h : s.Faces (c :: cs)) : (s.next 1).Faces cs := by
  obtain ⟨passed, hstretch, hlength⟩ := h.pass (w := [c]) s.depth
  refine ⟨[], ?_, rfl⟩
  simp only [Scan.pass, List.length_singleton] at hstretch hlength
  rw [Scan.next, hlength, hstretch, List.drop_left]
  rfl

theorem current_extend {n : Nat} (h : s.length + n ≤ s.stretch.length) (more : List Char) :
    (s.extend more).current n = s.current n :=
  List.take_append_of_le_length h

theorem next_extend {n : Nat} (h : s.length + n ≤ s.stretch.length) (more : List Char) :
    (s.extend more).next n = (s.next n).extend more := by
  unfold Scan.next
  rw [current_extend h, Scan.extend, List.drop_append_of_le_length h]
  rfl

/-- Behind a semicolon at the end of the text the scan begins anew. -/
theorem Faces.next_semicolon (h : s.Faces []) (more : List Char) :
    (s.extend (';' :: more)).next 1 = ⟨s.stop + 1, more, 0, 0⟩ := by
  have hpassed : s.length + 1 = (s.stretch ++ [';']).length := by
    rw [List.length_append, ← h.length_le]
    rfl
  have hsplit : s.stretch ++ ';' :: more = (s.stretch ++ [';']) ++ more := List.append_cons ..
  have hsize : size [';'] = 1 := rfl
  simp only [Scan.next, current, extend, hpassed, hsplit, List.take_left, List.drop_left,
    Text.Utf8.size_append, hsize, stop, Nat.add_assoc]

theorem stop_next (n : Nat) : (s.next n).stop = s.stop := by
  simp only [stop, Scan.next, Scan.current, Nat.add_assoc, ← Text.Utf8.size_append,
    List.take_append_drop]

end Scan

/-- What comes behind a text after a semicolon has no say in the steps before. -/
theorem step_extend {s : Scan} {c : Char} {cs : List Char} (hs : s.Faces (c :: cs))
    (h : inertLength? c cs = none) (more : List Char) :
    (s.extend (';' :: more)).step c (cs ++ ';' :: more) = s.step c cs := by
  have helse : nextWordIs "else" (cs ++ ';' :: more) = nextWordIs "else" cs :=
    nextWordIs_append (by decide) (by decide) (by decide) cs more
  have hblock (hc : c = '\x7d') :
      startsBlock (s.stretch ++ ';' :: more) = startsBlock s.stretch := by
    obtain ⟨passed, hstretch, -⟩ := hs
    rw [hstretch, hc, List.append_assoc, List.cons_append, startsBlock_append,
      startsBlock_append]
  rw [Scan.step, Scan.step, h, inertLength?_semicolon h, helse, Scan.extend]
  by_cases hc : c = '\x7d'
  · rw [hblock hc]
  · simp only [hc, decide_false, Bool.false_and]

/-- The scan of two commands with a semicolon between them begins the second one anew. -/
theorem go_join {s : Scan} {cs : List Char} {depth : Nat} (hdepth : s.depth = depth)
    (hs : s.Faces cs) (hneutral : openAtEnd? depth cs = some 0) (done : List (Nat × List Char))
    (more : List Char) :
    stretches.go done (s.extend (';' :: more)) (cs ++ ';' :: more) =
      stretches.go (stretches.go done s cs).reverse ⟨s.stop + 1, more, 0, 0⟩ more := by
  have hlength := hs.length_le
  fun_induction openAtEnd? depth cs generalizing s done
  case case1 depth =>
    cases hneutral
    have hcurrent : (s.extend (';' :: more)).current 0 = s.current 0 :=
      Scan.current_extend hlength.le _
    rw [List.nil_append, go_semicolon, if_pos (show (s.extend _).depth = 0 from hdepth), hcurrent,
      hs.next_semicolon, stretches.go, List.reverse_reverse]
    rfl
  case case2 depth c cs n hn hfinished ih =>
    obtain ⟨hlonger, hle⟩ := inertLength?_append hn hfinished (';' :: more)
    have hfaces : Scan.Faces { s.pass (1 + n) with depth := s.depth } (cs.drop n) := by
      rw [← List.take_append_drop n cs, ← List.cons_append] at hs
      have hpass := hs.pass s.depth
      rwa [List.length_cons, List.length_take, Nat.min_eq_left hle, Nat.add_comm] at hpass
    rw [List.cons_append, go_cons, go_cons, step_inert hlonger, step_inert hn, Scan.follow,
      List.drop_append_of_le_length hle]
    exact ih (s := { s.pass (1 + n) with depth := s.depth }) hdepth hfaces hneutral done
      hfaces.length_le
  case case3 => cases hneutral
  case case4 depth c cs hn ih =>
    rw [List.cons_append, go_cons, go_cons, step_extend hs hn]
    rcases step_cases s hn with hstep | ⟨m, hm, hstep, hzero⟩ <;> rw [hstep]
    · have hfaces := hs.pass (w := [c]) (openAfter s.depth c)
      exact ih (congrArg (openAfter · c) hdepth) hfaces hneutral done hfaces.length_le
    · rw [List.length_cons] at hlength
      rw [Scan.follow, Scan.current_extend (by omega), Scan.next_extend (by omega),
        ← Scan.stop_next 1]
      exact ih (hzero.symm.trans (congrArg (openAfter · c) hdepth)) hs.next hneutral _
        hs.next.length_le

/-- The same stretch in a text that stands `offset` bytes further on. -/
def shiftStretch (offset : Nat) (p : Nat × List Char) : Nat × List Char :=
  (offset + p.1, p.2)

/-- Where a scan begins makes no difference to the stretches, and the ones before it stay. -/
theorem go_shift (offset : Nat) (early done : List (Nat × List Char)) (s : Scan) :
    ∀ cs, stretches.go (done.map (shiftStretch offset) ++ early)
        { s with start := offset + s.start } cs =
      early.reverse ++ (stretches.go done s cs).map (shiftStretch offset)
  | [] => by
      rw [stretches.go, stretches.go, List.map_reverse, List.map_cons, ← List.reverse_append]
      rfl
  | c :: cs => by
      have hstep : Scan.step { s with start := offset + s.start } c cs = s.step c cs := rfl
      rw [go_cons, go_cons, hstep]
      cases s.step c cs with
      | goOn n depth =>
          exact go_shift offset early done { s.pass (1 + n) with depth } (cs.drop n)
      | cut m =>
          have hshift := go_shift offset early ((s.start, s.current m) :: done) (s.next 1) cs
          rw [Scan.next, ← Nat.add_assoc] at hshift
          exact hshift
termination_by cs => cs.length
decreasing_by
  all_goals simp only [List.length_drop, List.length_cons]; omega

/-- The stretches of two commands with a semicolon between them. -/
theorem stretches_join {a : List Char} (ha : IsNeutral a) (b : List Char) :
    stretches (a ++ ';' :: b) =
      stretches a ++ (stretches b).map (shiftStretch (size a + 1)) := by
  have hstart : Scan.Faces ⟨0, a, 0, 0⟩ a := ⟨[], rfl, rfl⟩
  have hjoin := go_join rfl hstart ha [] b
  have hshift := go_shift (size a + 1) (stretches a).reverse [] ⟨0, b, 0, 0⟩ b
  rw [List.reverse_reverse] at hshift
  refine hjoin.trans (Eq.trans ?_ hshift)
  rw [Scan.stop, Nat.zero_add]
  rfl

/-- The same fragment in a command that stands `offset` bytes further on. -/
def Fragment.shift (offset : Nat) (f : Fragment) : Fragment :=
  { f with start := offset + f.start }

theorem ofStretch?_shift (offset start : Nat) (stretch : List Char) :
    Fragment.ofStretch? (offset + start) stretch =
      (Fragment.ofStretch? start stretch).map (Fragment.shift offset) := by
  simp only [Fragment.ofStretch?]
  split
  · rfl
  · rw [Nat.add_assoc]
    rfl

/-- The fragments of two commands with a semicolon between them, if the first one is neutral. -/
theorem fragments_join {a : List Char} (ha : IsNeutral a) (b : List Char) :
    fragments (a ++ ';' :: b) =
      fragments a ++ (fragments b).map (Fragment.shift (size a + 1)) := by
  unfold fragments
  rw [stretches_join ha, List.filterMap_append, List.filterMap_map, List.map_filterMap]
  congr 1
  refine congrArg (List.filterMap · _) (funext fun p => ?_)
  exact ofStretch?_shift (size a + 1) p.1 p.2

example : IsNeutral "if (a) \x7b b(';'); \x7d // c\n".toList := by cbv

example : openAtEnd? 0 "a // b".toList = none := by cbv

/-- The texts of the fragments are just those of both commands. -/
theorem texts_join {a : List Char} (ha : IsNeutral a) (b : List Char) :
    (fragments (a ++ ';' :: b)).map Fragment.text =
      (fragments a).map Fragment.text ++ (fragments b).map Fragment.text := by
  rw [fragments_join ha, List.map_append, List.map_map]
  rfl

end Source
end GuardedRepl
