import GuardedRepl.Proofs.Source.Words
import GuardedRepl.Proofs.Text.Sizes

/-!
# Places of tokens and faults

Whatever the lexer points at lies inside the source: each span ends where it starts or further on,
and both ends lie between two characters.

**Results.**
* `Span.Inside.through`: the stretch from one such span to another one lies inside, too.
* `inside_of_piece_fault`: where the lexer finds a fault.
* `inside_of_tokenize`, `inside_of_tokenize_fault`: the spans of all tokens, and of a fault.
-/

namespace GuardedRepl
namespace Source

open Text.Utf8 (size)

/-! ## Boundaries -/

/-- A place between two characters of a text, given by the bytes before it. -/
def IsBoundary (text : List Char) (n : Nat) : Prop :=
  ∃ before after, text = before ++ after ∧ n = size before

theorem isBoundary_zero (text : List Char) : IsBoundary text 0 :=
  ⟨[], text, rfl, rfl⟩

theorem isBoundary_size (before after : List Char) : IsBoundary (before ++ after) (size before) :=
  ⟨before, after, rfl, rfl⟩

theorem isBoundary_end (text : List Char) : IsBoundary text (size text) :=
  ⟨text, [], (List.append_nil text).symm, rfl⟩

theorem IsBoundary.right {text : List Char} {n : Nat} (h : IsBoundary text n)
    (before : List Char) : IsBoundary (before ++ text) (size before + n) := by
  obtain ⟨inside, after, rfl, rfl⟩ := h
  exact ⟨before ++ inside, after, (List.append_assoc ..).symm, (Text.Utf8.size_append ..).symm⟩

theorem IsBoundary.le_size {text : List Char} {n : Nat} (h : IsBoundary text n) :
    n ≤ size text := by
  obtain ⟨before, after, rfl, rfl⟩ := h
  rw [Text.Utf8.size_append]
  exact Nat.le_add_right _ _

/-- These are the places at which a string can be cut. -/
theorem IsBoundary.isValid {text : List Char} {n : Nat} (h : IsBoundary text n) :
    String.Pos.Raw.IsValid (String.ofList text) ⟨n⟩ := by
  obtain ⟨before, after, rfl, rfl⟩ := h
  refine String.Pos.Raw.isValid_iff_exists_append.mpr
    ⟨String.ofList before, String.ofList after, String.ofList_append, ?_⟩
  exact String.Pos.Raw.ext (Text.Utf8.utf8ByteSize_ofList before).symm

/-! ## Spans -/

/-- A kind of spans that goes over to the stretch from one span to another one. -/
class Span.Closed (G : Span → Prop) : Prop where
  zero : G ⟨0, 0⟩
  through : ∀ {s t : Span}, G s → G t → G (s.through t)

/-- A span lies inside a text, and no character is cut by it. -/
structure Span.Inside (text : List Char) (s : Span) : Prop where
  start_le_stop : s.start ≤ s.stop
  start : IsBoundary text s.start
  stop : IsBoundary text s.stop

namespace Span.Inside

variable {text : List Char} {s t : Span}

theorem of_append (before inside after : List Char) :
    Span.Inside (before ++ (inside ++ after)) ⟨size before, size before + size inside⟩ where
  start_le_stop := Nat.le_add_right _ _
  start := isBoundary_size before _
  stop := (isBoundary_size inside after).right before

/-- The span of what a text begins with. -/
theorem initial (inside after : List Char) : Span.Inside (inside ++ after) ⟨0, size inside⟩ :=
  ⟨Nat.zero_le _, isBoundary_zero _, isBoundary_size inside after⟩

/-- The span of a whole text. -/
theorem whole (text : List Char) : Span.Inside text ⟨0, size text⟩ :=
  ⟨Nat.zero_le _, isBoundary_zero _, isBoundary_end text⟩

theorem shift (h : s.Inside text) (before : List Char) :
    (s.shift (size before)).Inside (before ++ text) :=
  ⟨Nat.add_le_add_left h.start_le_stop _, h.start.right before, h.stop.right before⟩

theorem through (hs : s.Inside text) (ht : t.Inside text) : (s.through t).Inside text where
  start_le_stop := hs.start_le_stop.trans (Nat.le_max_left _ _)
  start := hs.start
  stop := by
    rcases max_choice s.stop t.stop with h | h <;> rw [Span.through, h]
    · exact hs.stop
    · exact ht.stop

instance closed (text : List Char) : Span.Closed (Span.Inside text) where
  zero := .initial [] text
  through := through

end Span.Inside

/-! ## Faults -/

/-- In a word every character takes up one byte. -/
theorem size_of_isNamePart {w : List Char} (h : ∀ d ∈ w, isNamePart d = true) :
    size w = w.length :=
  Text.Utf8.size_eq_length fun d hd => toNat_lt_of_isNamePart (h d hd)

/-- A number that is too large ends inside the source. -/
theorem inside_of_number_fault {c : Char} {cs : List Char} {f : Fault} (hc : c.isDigit = true)
    (h : number c cs = .error f) : f.span.Inside (c :: cs) := by
  have htail : ∀ d ∈ c :: cs.takeWhile isNumberPart, isNamePart d = true := by
    refine List.forall_mem_cons.mpr ⟨?_, fun d hd => ?_⟩
    · exact isNamePart_of_isNumberPart (by simp [isNumberPart, hc])
    · exact isNamePart_of_isNumberPart (List.mem_takeWhile_imp hd)
  have hcs : cs.takeWhile isNumberPart ++ cs.dropWhile isNumberPart = cs :=
    List.takeWhile_append_dropWhile
  unfold number at h
  simp only at h
  generalize cs.takeWhile isNumberPart = tail at h htail hcs
  generalize cs.dropWhile isNumberPart = rest at hcs
  subst hcs
  rw [List.drop_left] at h
  have hsize : size (c :: tail) = 1 + tail.length := by
    rw [size_of_isNamePart htail, List.length_cons, Nat.add_comm]
  split_ifs at h with hvalue hsuffix <;> cases h
  · cases rest with
    | nil => simp at hsuffix
    | cons s rest =>
        have hs : s.utf8Size = 1 := by
          simp only [List.head?_cons, Option.any_some, Bool.or_eq_true,
            decide_eq_true_eq] at hsuffix
          rcases hsuffix with rfl | rfl <;> rfl
        have hinside := Span.Inside.initial (c :: tail ++ [s]) rest
        rw [Text.Utf8.size_append, hsize, Text.Utf8.size_cons, hs, List.append_assoc] at hinside
        exact hinside
  · have hinside := Span.Inside.initial (c :: tail) rest
    rw [hsize] at hinside
    exact hinside

/-- A fault in a string literal lies in the literal, whose beginning is `before`. -/
theorem inside_of_stringBody_fault {bytes length : Nat} {done before cs : List Char} {f : Fault}
    (hbytes : bytes = size before) (h : stringBody bytes length done cs = .error f) :
    f.span.Inside (before ++ cs) := by
  fun_induction stringBody bytes length done cs generalizing before with
  | case1 bytes length done =>
      cases h
      rw [hbytes]
      exact .initial before []
  | case2 => cases h
  | case3 bytes length done cs =>
      cases h
      rw [hbytes, ← Text.Utf8.size_append]
      exact .whole _
  | case4 bytes length done =>
      cases h
      rw [hbytes, show size before + 1 = size (before ++ ['\\']) by
        rw [Text.Utf8.size_append]; rfl]
      exact .whole _
  | case5 bytes length done e cs c hc ih =>
      have hpassed : bytes + 1 + e.utf8Size = size (before ++ ['\\', e]) := by
        rw [Text.Utf8.size_append, hbytes, Nat.add_assoc]
        rfl
      have hinside := ih hpassed h
      rwa [List.append_assoc] at hinside
  | case6 bytes length done e cs hc =>
      cases h
      rw [hbytes, Nat.add_assoc]
      exact .of_append before ['\\', e] cs
  | case7 bytes length done c cs hquote hline hlast hpair ih =>
      have hpassed : bytes + c.utf8Size = size (before ++ [c]) := by
        rw [Text.Utf8.size_append, hbytes]
        rfl
      have hinside := ih hpassed h
      rwa [List.append_assoc] at hinside

/-- A fault in a character literal goes to the end of the source, or it is an escape. -/
theorem inside_of_characterBody_fault {cs : List Char} {f : Fault}
    (h : characterBody cs = .error f) : f.span.Inside ('\'' :: cs) := by
  have hunclosed : Span.Inside ('\'' :: cs) ⟨0, 1 + size cs⟩ := .whole ('\'' :: cs)
  unfold characterBody at h
  split at h
  · next e rest =>
      split at h
      · split at h <;> cases h
        exact hunclosed
      · cases h
        have hinside := Span.Inside.of_append ['\''] ['\\', e] rest
        rwa [show size ['\''] + size ['\\', e] = 2 + e.utf8Size by
          rw [Text.Utf8.size_cons, Text.Utf8.size_cons, ← Nat.add_assoc]; rfl] at hinside
  · cases h
    exact hunclosed
  · cases h
    exact hunclosed
  · split at h <;> cases h
    exact hunclosed
  · cases h
    exact hunclosed

theorem map_eq_error {α β : Type} {x : Except Fault α} {g : α → β} {f : Fault}
    (h : x.map g = .error f) : x = .error f := by
  rcases x with e | a
  · cases h
    rfl
  · cases h

theorem inside_of_piece_fault {c : Char} {cs : List Char} {f : Fault}
    (h : piece c cs = .error f) : f.span.Inside (c :: cs) := by
  unfold piece at h
  split_ifs at h with hspace hline hblock hdigit hquote hchar hname
  · split at h <;> cases h
    exact .whole _
  · exact inside_of_number_fault hdigit h
  · subst hquote
    exact inside_of_stringBody_fault (show 1 = size ['"'] from rfl) (map_eq_error h)
  · subst hchar
    exact inside_of_characterBody_fault (map_eq_error h)
  · split at h <;> cases h
    exact .initial [c] cs

/-! ## Sources -/

/-- What the lexer points at behind the text `before`, which it has passed. -/
theorem inside_of_go {source before cs : List Char} {offset : Nat} {done : List Token}
    (hsource : source = before ++ cs) (hoffset : offset = size before)
    (hdone : ∀ t ∈ done, t.span.Inside source) :
    (∀ f, tokenize.go offset done cs = .error f → f.span.Inside source) ∧
      ∀ tokens, tokenize.go offset done cs = .ok tokens → ∀ t ∈ tokens, t.span.Inside source := by
  fun_induction tokenize.go offset done cs generalizing before
  case case1 offset done =>
    constructor
    · intro f h
      cases h
    · intro tokens h t ht
      cases h
      rcases List.mem_cons.mp (List.mem_reverse.mp ht) with rfl | ht
      · rw [hsource, hoffset]
        exact .of_append before [] []
      · exact hdone t ht
  case case2 offset done c cs f hpiece =>
    constructor
    · intro g h
      cases h
      rw [hsource, hoffset]
      exact (inside_of_piece_fault hpiece).shift before
    · intro tokens h
      cases h
  case case3 offset done c cs more stop hpiece ih =>
    obtain ⟨w, rest, rfl, rfl, -⟩ := piece_cases hpiece
    refine @ih (before ++ c :: w) ?_ ?_ hdone
    · rw [hsource, List.drop_left, List.append_assoc, List.cons_append]
    · simp only [stop, List.take_left, hoffset, Text.Utf8.size_append]
  case case4 offset done c cs more stop kind hpiece ih =>
    obtain ⟨w, rest, rfl, rfl, -⟩ := piece_cases hpiece
    have hstop : stop = size before + size (c :: w) := by
      simp only [stop, List.take_left, hoffset]
    refine @ih (before ++ c :: w) ?_ ?_ ?_
    · rw [hsource, List.drop_left, List.append_assoc, List.cons_append]
    · rw [hstop, Text.Utf8.size_append]
    · refine List.forall_mem_cons.mpr ⟨?_, hdone⟩
      rw [hsource, hstop, hoffset]
      exact .of_append before (c :: w) rest

/-- Every token lies inside the source. -/
theorem inside_of_tokenize {source : List Char} {tokens : List Token}
    (h : tokenize source = .ok tokens) : ∀ t ∈ tokens, t.span.Inside source :=
  (inside_of_go (List.nil_append source).symm rfl fun _ ht => absurd ht List.not_mem_nil).2 tokens h

/-- A fault lies inside the source. -/
theorem inside_of_tokenize_fault {source : List Char} {f : Fault}
    (h : tokenize source = .error f) : f.span.Inside source :=
  (inside_of_go (List.nil_append source).symm rfl fun _ ht => absurd ht List.not_mem_nil).1 f h

end Source
end GuardedRepl
