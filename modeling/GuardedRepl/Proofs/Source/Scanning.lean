import GuardedRepl.Proofs.Source.Lexeme

/-!
# The scan of a command

The scan that cuts a command into stretches passes its lexemes one by one.  It passes a whole lexeme
at a time, and it cuts after a closing brace or around a semicolon only.  The one exception is a
character literal that goes over a line end, which the scan takes for the end of the literal.

**Results.**
* `advance_of_reads`: what the scan does at one lexeme.
* `divides_stretches`: the stretches divide the row of lexemes.
-/

namespace GuardedRepl
namespace Source

open Text.Utf8 (size)

/-! ## Characters -/

/-- The characters that have a say in where a fragment ends. -/
def marks : List Char :=
  ['"', '\'', '/', '(', '[', '\x7b', ')', ']', '\x7d', ';']

/-- A character that takes the scan just one step further. -/
def isPlain (c : Char) : Bool :=
  !marks.contains c

theorem isPlain_of_isSpace {c : Char} (h : isSpace c = true) : isPlain c = true := by
  simp only [isSpace, Bool.or_eq_true, decide_eq_true_eq] at h
  rcases h with (((rfl | rfl) | rfl) | rfl) | rfl <;> rfl

theorem isPlain_of_isNamePart {c : Char} (h : isNamePart c = true) : isPlain c = true := by
  have hmarks : marks.all (fun d => !isNamePart d) = true := rfl
  rw [isPlain, Bool.not_eq_true', ← Bool.not_eq_true, List.contains_iff_mem]
  intro hc
  simpa [h] using List.all_eq_true.mp hmarks c hc

variable {done : List (Nat × List Char)} {s : Scan}

theorem go_plain {c : Char} (hc : isPlain c = true) (cs : List Char) :
    stretches.go done s (c :: cs) = stretches.go done (s.pass 1) cs := by
  simp only [isPlain, marks, Bool.not_eq_true', ← Bool.not_eq_true, List.contains_iff_mem,
    List.mem_cons, List.not_mem_nil, or_false, not_or] at hc
  rw [stretches.go, inertLength?]
  simp [hc]

theorem go_slash {cs : List Char} (h : ∀ d ∈ cs.head?, d ≠ '/' ∧ d ≠ '*') :
    stretches.go done s ('/' :: cs) = stretches.go done (s.pass 1) cs := by
  have hslash : cs.head? ≠ some '/' := fun hd => (h _ hd).1 rfl
  have hstar : cs.head? ≠ some '*' := fun hd => (h _ hd).2 rfl
  rw [stretches.go, inertLength?]
  simp [hslash, hstar]

theorem go_word {w : List Char} (hw : ∀ c ∈ w, isPlain c = true) (rest : List Char) :
    stretches.go done s (w ++ rest) = stretches.go done (s.pass w.length) rest := by
  induction w generalizing s with
  | nil => rfl
  | cons c w ih =>
      rw [List.forall_mem_cons] at hw
      rw [List.cons_append, go_plain hw.1, ih hw.2, Scan.pass, Scan.pass, Scan.pass,
        List.length_cons, Nat.add_assoc, Nat.add_comm 1]

theorem go_inert {c : Char} {cs : List Char} {n : Nat} (h : inertLength? c cs = some n) :
    stretches.go done s (c :: cs) = stretches.go done (s.pass (1 + n)) (cs.drop n) := by
  rw [stretches.go, h]

theorem go_open {c : Char} (hc : c = '(' ∨ c = '[' ∨ c = '\x7b') (cs : List Char) :
    stretches.go done s (c :: cs) =
      stretches.go done { s.pass 1 with depth := s.depth + 1 } cs := by
  rw [stretches.go, inertLength?]
  rcases hc with rfl | rfl | rfl <;> simp

theorem go_close {c : Char} (hc : c = ')' ∨ c = ']') (cs : List Char) :
    stretches.go done s (c :: cs) =
      stretches.go done { s.pass 1 with depth := s.depth - 1 } cs := by
  rw [stretches.go, inertLength?]
  rcases hc with rfl | rfl <;> simp

theorem go_closeBrace (cs : List Char) :
    stretches.go done s ('\x7d' :: cs) =
      if s.depth ≤ 1 && startsBlock s.stretch && !nextWordIs "else" cs then
        stretches.go ((s.start, s.current 1) :: done) (s.next 1) cs
      else stretches.go done { s.pass 1 with depth := s.depth - 1 } cs := by
  rw [stretches.go, inertLength?]
  simp

theorem go_semicolon (cs : List Char) :
    stretches.go done s (';' :: cs) =
      if s.depth = 0 then stretches.go ((s.start, s.current 0) :: done) (s.next 1) cs
      else stretches.go done (s.pass 1) cs := by
  rw [stretches.go, inertLength?]
  simp

/-! ## One lexeme -/

/-- What the scan does at a lexeme `c :: w` with `rest` after it. -/
inductive Advance (s : Scan) (c : Char) (w rest : List Char) : Option TokenKind → Prop
  | passed {kind?} (depth : Nat)
      (h : ∀ done, stretches.go done s (c :: (w ++ rest)) =
        stretches.go done { s.pass (w.length + 1) with depth } rest) : Advance s c w rest kind?
  | closed (hc : c = '\x7d') (hw : w = [])
      (h : ∀ done, stretches.go done s (c :: (w ++ rest)) =
        stretches.go ((s.start, s.current 1) :: done) (s.next 1) rest) :
      Advance s c w rest (some (.punct .closeBrace))
  | separated (hc : c = ';') (hw : w = [])
      (h : ∀ done, stretches.go done s (c :: (w ++ rest)) =
        stretches.go ((s.start, s.current 0) :: done) (s.next 1) rest) :
      Advance s c w rest (some (.punct .semicolon))

theorem advance_word {c : Char} {w rest : List Char} {kind? : Option TokenKind}
    (h : ∀ d ∈ c :: w, isPlain d = true) : Advance s c w rest kind? :=
  .passed s.depth fun _ => go_word h rest

theorem advance_inert {c : Char} {w rest : List Char} {kind? : Option TokenKind}
    (h : inertLength? c (w ++ rest) = some w.length) : Advance s c w rest kind? :=
  .passed s.depth fun _ => by rw [go_inert h, List.drop_left, Nat.add_comm]; rfl

theorem advance_punct {c : Char} {w rest : List Char} {p : Punct} (hp : p.text.toList = c :: w)
    (hslash : c = '/' → ∀ d ∈ (w ++ rest).head?, d ≠ '/' ∧ d ≠ '*') :
    Advance s c w rest (some (.punct p)) := by
  -- The operator decides its characters, and most of them only take the scan further.
  cases p <;> simp [Punct.text] at hp <;> obtain ⟨rfl, rfl⟩ := hp
  case openParen | openBracket | openBrace =>
    exact .passed (s.depth + 1) fun _ => go_open (by decide) rest
  case closeParen | closeBracket => exact .passed (s.depth - 1) fun _ => go_close (by decide) rest
  case closeBrace =>
    by_cases hcut : (s.depth ≤ 1 && startsBlock s.stretch && !nextWordIs "else" rest) = true
    · exact .closed rfl rfl fun _ => (go_closeBrace rest).trans (if_pos hcut)
    · exact .passed (s.depth - 1) fun _ => (go_closeBrace rest).trans (if_neg hcut)
  case semicolon =>
    by_cases hdepth : s.depth = 0
    · exact .separated rfl rfl fun _ => (go_semicolon rest).trans (if_pos hdepth)
    · exact .passed s.depth fun _ => (go_semicolon rest).trans (if_neg hdepth)
  case div => exact .passed s.depth fun _ => go_slash (hslash rfl)
  case divAssign =>
    exact .passed s.depth fun _ => (go_slash (hslash rfl)).trans (go_plain rfl rest)
  all_goals exact advance_word (List.all_eq_true.mp rfl)

/-- The scan does not stop inside a lexeme, unless this is a token that goes over a line end. -/
theorem advance_of_reads {c : Char} {w rest : List Char} {kind? : Option TokenKind}
    (h : Reads c w rest kind?) (hline : kind?.isSome → '\n' ∉ c :: w) :
    Advance s c w rest kind? := by
  cases h with
  | blank hspace =>
      exact advance_word fun d hd => isPlain_of_isSpace (by rwa [List.mem_singleton.mp hd])
  | line hlength => exact advance_inert (by simp [inertLength?, lineLength_cons_slash, hlength])
  | block hlength => exact advance_inert (by simp [inertLength?, hlength])
  | word hw _ => exact advance_word fun d hd => isPlain_of_isNamePart (hw d hd)
  | @literal _ w _ _ hquote hlength =>
      have hw : '\n' ∉ w := by
        have := hline rfl
        simp only [List.mem_cons, List.mem_append, not_or] at this
        exact this.2.1
      refine advance_inert ?_
      rw [inertLength?, if_pos (by simpa using hquote)]
      simp [hlength hw]
  | punct hp hslash => exact advance_punct hp hslash

/-! ## A row of lexemes -/

/-- The lexeme that separates stretches. -/
def Lexeme.semicolon : Lexeme :=
  ⟨some (.punct .semicolon), [';']⟩

/-- Stretches, each with its offset, divide a row of lexemes that begins at byte `offset`.  Each of
them is a part of the row, and no more than a semicolon stands between two of them. -/
inductive Divides : Nat → List Lexeme → List (Nat × List Char) → Prop
  | last {offset ls} : Divides offset ls [(offset, textOf ls)]
  | adjacent {offset ls ms ps} : Divides (offset + size (textOf ls)) ms ps →
      Divides offset (ls ++ ms) ((offset, textOf ls) :: ps)
  | separated {offset ls ms ps} : Divides (offset + size (textOf (ls ++ [.semicolon]))) ms ps →
      Divides offset (ls ++ .semicolon :: ms) ((offset, textOf ls) :: ps)

/-- The lexeme is no token that goes over a line end. -/
def Lexeme.OneLine (l : Lexeme) : Prop :=
  l.kind?.isSome → '\n' ∉ l.text

/-- The scan has passed the lexemes `ls` of its current stretch, and `ms` come next. -/
structure Scan.At (s : Scan) (ls ms : List Lexeme) : Prop where
  stretch : s.stretch = textOf ls ++ textOf ms
  length : s.length = (textOf ls).length

@[simp] theorem Scan.start_pass (n : Nat) : (s.pass n).start = s.start := rfl

section Positions

variable {ls ms : List Lexeme} {l : Lexeme}

theorem Scan.At.pass (h : s.At ls (l :: ms)) (depth : Nat) :
    Scan.At { s.pass l.text.length with depth } (ls ++ [l]) ms := by
  constructor
  · simp [Scan.pass, h.stretch]
  · simp [Scan.pass, h.length]

theorem Scan.At.current (h : s.At ls ms) : s.current 0 = textOf ls := by
  rw [Scan.current, h.stretch, h.length, Nat.add_zero, List.take_left]

theorem Scan.At.current_cons (h : s.At ls (l :: ms)) :
    s.current l.text.length = textOf (ls ++ [l]) :=
  (h.pass s.depth).current

theorem Scan.At.next (h : s.At ls (l :: ms)) : (s.next l.text.length).At [] ms where
  stretch := by
    rw [Scan.next, h.stretch, h.length, textOf_cons, ← List.append_assoc, ← List.length_append,
      List.drop_left]
    rfl
  length := rfl

theorem Scan.At.start_next (h : s.At ls (l :: ms)) :
    (s.next l.text.length).start = s.start + size (textOf (ls ++ [l])) := by
  rw [Scan.next, h.current_cons]

end Positions

/-- What the scan makes of the lexemes that are left. -/
theorem divides_go {ls ms : List Lexeme} (hms : Lexed ms) (hline : ∀ l ∈ ms, l.OneLine)
    (hs : s.At ls ms) :
    ∃ ps, Divides s.start (ls ++ ms) ps ∧
      ∀ done, stretches.go done s (textOf ms) = done.reverse ++ ps := by
  -- The induction is on the lexemes that are left; the position of the scan is what it carries.
  induction hms generalizing s ls with
  | nil =>
      refine ⟨_, .last, fun done => ?_⟩
      rw [textOf_nil, stretches.go, hs.current, List.append_nil, List.reverse_cons]
  | @cons kind? c w ms hpiece hms ih =>
      rw [List.forall_mem_cons] at hline
      rcases advance_of_reads (s := s) (reads_of_piece hpiece) hline.1 with
        ⟨depth, hgo⟩ | ⟨rfl, rfl, hgo⟩ | ⟨rfl, rfl, hgo⟩
      · obtain ⟨ps, hps, hrest⟩ := ih hline.2 (hs.pass depth)
        exact ⟨ps, by simpa using hps, fun done => (hgo done).trans (hrest done)⟩
      · obtain ⟨ps, hps, hrest⟩ := ih hline.2 hs.next
        rw [hs.start_next, List.nil_append] at hps
        refine ⟨_, by simpa using hps.adjacent, fun done => ((hgo done).trans (hrest _)).trans ?_⟩
        rw [show s.current 1 = _ from hs.current_cons]
        simp
      · obtain ⟨ps, hps, hrest⟩ := ih hline.2 hs.next
        rw [hs.start_next, List.nil_append] at hps
        refine ⟨_, .separated hps, fun done => ((hgo done).trans (hrest _)).trans ?_⟩
        rw [hs.current]
        simp

/-- The stretches of a command divide its lexemes, unless a token goes over a line end. -/
theorem divides_stretches {ls : List Lexeme} (hls : Lexed ls) (hline : ∀ l ∈ ls, l.OneLine) :
    Divides 0 ls (stretches (textOf ls)) := by
  have hstart : Scan.At ⟨0, textOf ls, 0, 0⟩ [] ls := ⟨rfl, rfl⟩
  obtain ⟨ps, hps, hgo⟩ := divides_go hls hline hstart
  rw [stretches, hgo]
  exact hps

end Source
end GuardedRepl
