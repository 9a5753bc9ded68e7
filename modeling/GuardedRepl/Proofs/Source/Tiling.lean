import GuardedRepl.Proofs.Source.Joining
import GuardedRepl.Proofs.Source.Places

/-!
# Pieces and gaps

A scanner of a text picks pieces out of it, and something is left between them.  A text is laid out
if the pieces stand in it one behind another and every gap is filled with what may stand there.  The
tokens of a source are laid out in it with nothing but blanks and complete comments between them,
and the text of a token, read alone, is that token again.

**Results.**
* `Laid.standsIn`, `Laid.pairwise`: laid out pieces stand in the text and do not overlap.
* `Laid.behind`: more may stand before the first piece.
* `tokens_tile`: the tokens of a source are laid out in it.
-/

namespace GuardedRepl
namespace Source

open Text.Utf8 (size)

/-! ## Comments -/

/-- No end of a block comment stands in the text. -/
def Unclosed (w : List Char) : Prop :=
  ¬['*', '/'] <:+: w

/-- A complete comment with `rest` behind it.  A line comment reaches up to the end of its line or
of the source. -/
inductive Comment (rest : List Char) : List Char → Prop
  | line {w : List Char} : '\n' ∉ w → (∀ c ∈ rest.head?, c = '\n') → Comment rest ('/' :: '/' :: w)
  | block {w : List Char} : Unclosed (w ++ ['*']) → Comment rest ('/' :: '*' :: (w ++ ['*', '/']))

theorem unclosed_of_blockLength?_eq_none {w : List Char} (h : blockLength? w = none) :
    Unclosed w :=
  Text.indexOf?_eq_none_iff.mp (Option.map_eq_none_iff.mp h)

/-- The end of a block comment is the first one behind its beginning. -/
theorem unclosed_of_blockLength? {w rest : List Char}
    (h : blockLength? (w ++ '*' :: '/' :: rest) = some (w.length + 2)) : Unclosed (w ++ ['*']) := by
  refine unclosed_of_blockLength?_eq_none ?_
  rcases hearly : blockLength? (w ++ ['*']) with _ | n
  · rfl
  · have hlong := blockLength?_append hearly ('/' :: rest)
    rw [List.append_assoc, List.singleton_append, h] at hlong
    obtain ⟨v, after, hv, rfl⟩ := blockLength?_eq_some hearly
    have hlength := congrArg List.length hv
    have hn := Option.some.inj hlong
    simp only [List.length_append, List.length_cons, List.length_nil] at hlength
    omega

/-- The end of a block comment stands at its end. -/
theorem closed_of_blockLength? {w rest : List Char}
    (h : blockLength? (w ++ rest) = some w.length) :
    ∃ v, w = v ++ ['*', '/'] ∧ Unclosed (v ++ ['*']) := by
  obtain ⟨v, after, hv, hlength⟩ := blockLength?_eq_some h
  have hsplit : v ++ '*' :: '/' :: after = (v ++ ['*', '/']) ++ after := by simp
  obtain ⟨rfl, rfl⟩ : w = v ++ ['*', '/'] ∧ rest = after :=
    List.append_inj (hv.trans hsplit) (by simp [hlength])
  have hend : blockLength? (v ++ '*' :: '/' :: rest) = some (v.length + 2) := by
    rw [← hv, h, hlength]
  exact ⟨v, rfl, unclosed_of_blockLength? hend⟩

theorem lineLength_append_of_not_mem {w : List Char} (hw : '\n' ∉ w) (rest : List Char) :
    lineLength (w ++ rest) = w.length + lineLength rest := by
  have hinside : ∀ d ∈ w, decide (d ≠ '\n') = true := by
    rintro d hd
    exact decide_eq_true fun heq => hw (heq ▸ hd)
  rw [lineLength, List.takeWhile_append_of_pos hinside, List.length_append, lineLength]

/-- The line that a comment takes up has no line end in it, but one behind it. -/
theorem lineLength_append_iff {w rest : List Char} :
    lineLength (w ++ rest) = w.length ↔ '\n' ∉ w ∧ ∀ c ∈ rest.head?, c = '\n' := by
  have hzero : lineLength rest = 0 ↔ ∀ c ∈ rest.head?, c = '\n' := by
    cases rest with
    | nil => simp [lineLength]
    | cons c rest => by_cases hc : c = '\n' <;> simp [lineLength, hc]
  constructor
  · intro h
    have hw : '\n' ∉ w := by
      intro hmem
      rw [lineLength_append (List.contains_iff_mem.mpr hmem)] at h
      exact lineLength_eq_length_iff.mp h hmem
    rw [lineLength_append_of_not_mem hw] at h
    exact ⟨hw, hzero.mp (by omega)⟩
  · rintro ⟨hw, hrest⟩
    rw [lineLength_append_of_not_mem hw, hzero.mpr hrest, Nat.add_zero]

/-! ## Gaps -/

/-- Characters and comments of some kinds, with `rest` behind them. -/
inductive Gap (isLoose : Char → Bool) (IsComment : List Char → List Char → Prop)
    (rest : List Char) : List Char → Prop
  | nil : Gap isLoose IsComment rest []
  | loose {c : Char} {cs : List Char} : isLoose c = true → Gap isLoose IsComment rest cs →
      Gap isLoose IsComment rest (c :: cs)
  | comment {w cs : List Char} : IsComment (cs ++ rest) w → Gap isLoose IsComment rest cs →
      Gap isLoose IsComment rest (w ++ cs)

section Gaps

variable {isLoose : Char → Bool} {IsComment : List Char → List Char → Prop}
  {gap first rest source : List Char} {offset : Nat} {f : Fragment} {fs : List Fragment}

theorem Gap.append (hfirst : Gap isLoose IsComment (gap ++ rest) first)
    (hgap : Gap isLoose IsComment rest gap) : Gap isLoose IsComment rest (first ++ gap) := by
  induction hfirst with
  | nil => exact hgap
  | loose hc _ ih => exact .loose hc ih
  | @comment w cs hw _ ih =>
      rw [List.append_assoc]
      refine .comment ?_ ih
      rwa [List.append_assoc]

theorem gap_of_comment (h : IsComment rest gap) : Gap isLoose IsComment rest gap := by
  rw [← List.append_nil gap]
  exact .comment h .nil

theorem gap_of_forall (h : ∀ c ∈ gap, isLoose c = true) : Gap isLoose IsComment rest gap := by
  induction gap with
  | nil => exact .nil
  | cons c gap ih =>
      rw [List.forall_mem_cons] at h
      exact .loose h.1 (ih h.2)

/-! ## Laid out pieces -/

/-- Pieces of a text that begins at byte `offset`, one behind another, and what stands before,
between and behind them. -/
inductive Laid (Between : List Char → List Char → Prop) : Nat → List Char → List Fragment → Prop
  | last {offset : Nat} {gap : List Char} : Between [] gap → Laid Between offset gap []
  | piece {offset : Nat} {gap rest : List Char} {f : Fragment} {fs : List Fragment} :
      Between (f.text ++ rest) gap → f.start = offset + size gap → Laid Between f.stop rest fs →
      Laid Between offset (gap ++ (f.text ++ rest)) (f :: fs)

variable {Between : List Char → List Char → Prop}

theorem Laid.standsIn (h : Laid Between offset source fs) : ∀ f ∈ fs, f.StandsIn offset source := by
  induction h with
  | last => simp
  | @piece offset gap rest f fs _ hstart _ ih =>
      have hstop : f.stop = offset + size (gap ++ f.text) := by
        rw [Fragment.stop, hstart, Text.Utf8.size_append, Nat.add_assoc]
      rintro g hg
      rcases List.mem_cons.mp hg with rfl | hg
      · exact ⟨gap, rest, (List.append_assoc ..).symm, hstart⟩
      · have hbehind := ih g hg
        rw [hstop] at hbehind
        rw [← List.append_assoc]
        exact hbehind.append_left

/-- Laid out pieces come one behind another. -/
theorem Laid.pairwise (h : Laid Between offset source fs) :
    fs.Pairwise fun f g => f.stop ≤ g.start := by
  induction h with
  | last => exact .nil
  | piece _ _ hfs ih => exact .cons (fun g hg => (hfs.standsIn g hg).bounds.1) ih

/-- What may stand between pieces may stand before the first one. -/
theorem Laid.behind (h : Laid (Gap isLoose IsComment) (offset + size gap) source fs)
    (hgap : Gap isLoose IsComment source gap) :
    Laid (Gap isLoose IsComment) offset (gap ++ source) fs := by
  generalize hat : offset + size gap = begin at h
  cases h with
  | last hlast =>
      rw [← List.append_nil source] at hgap
      exact .last (hgap.append hlast)
  | @piece _ before rest f fs hbefore hstart hfs =>
      rw [← List.append_assoc]
      refine .piece (hgap.append hbefore) ?_ hfs
      rw [hstart, ← hat, Text.Utf8.size_append, Nat.add_assoc]

end Gaps

/-! ## Tokens -/

/-- What may stand between tokens: blanks and complete comments. -/
abbrev Blanks : List Char → List Char → Prop :=
  Gap isSpace Comment

/-- The pieces of a row that begins at byte `offset` that are tokens. -/
def pieces (offset : Nat) : List Lexeme → List Fragment
  | [] => []
  | l :: ls =>
    (if l.kind?.isSome then [⟨offset, l.text⟩] else []) ++ pieces (offset + size l.text) ls

/-- A lexeme without a token is a blank or a complete comment. -/
theorem Reads.blanks {c : Char} {w rest : List Char} (h : Reads c w rest none) :
    Blanks rest (c :: w) := by
  cases h with
  | blank hc => exact .loose hc .nil
  | line hlength =>
      obtain ⟨hw, hrest⟩ := lineLength_append_iff.mp hlength
      exact gap_of_comment (.line hw hrest)
  | block hlength => exact gap_of_comment (.block (unclosed_of_blockLength? hlength))

theorem Lexed.laid {ls : List Lexeme} (h : Lexed ls) (offset : Nat) :
    Laid Blanks offset (textOf ls) (pieces offset ls) := by
  induction h generalizing offset with
  | nil => exact .last .nil
  | @cons kind? c w ls hpiece _ ih =>
      rw [textOf_cons, pieces]
      cases kind? with
      | none => exact (ih _).behind (reads_of_piece hpiece).blanks
      | some kind =>
          have hrest := ih (offset + size (c :: w))
          exact .piece (f := ⟨offset, c :: w⟩) (.nil : Blanks _ []) rfl hrest

/-- The token stands in this piece, and read alone the piece is that token. -/
structure Token.WrittenAs (t : Token) (f : Fragment) : Prop where
  span : t.span = ⟨f.start, f.stop⟩
  alone : tokenize f.text = .ok [⟨t.kind, ⟨0, size f.text⟩⟩, endToken (size f.text)]

theorem Lexed.writtenAs {ls : List Lexeme} (h : Lexed ls) (offset : Nat) :
    List.Forall₂ Token.WrittenAs (tokensFrom offset ls) (pieces offset ls) := by
  induction h generalizing offset with
  | nil => exact .nil
  | @cons kind? c w ls hpiece hls ih =>
      rw [tokensFrom_cons, pieces]
      cases kind? with
      | none => exact ih _
      | some kind =>
          have hone : Lexed [⟨some kind, c :: w⟩] :=
            (Lexed.cons hpiece hls : Lexed ([_] ++ ls)).left
          refine .cons ⟨rfl, ?_⟩ (ih _)
          simpa [Lexeme.token?] using hone.tokenize_eq

/-- Tokens that are written as laid out pieces come one behind another. -/
theorem pairwise_of_writtenAs {Between : List Char → List Char → Prop} {offset : Nat}
    {source : List Char} {ts : List Token} {ps : List Fragment}
    (hlaid : Laid Between offset source ps) (hwritten : List.Forall₂ Token.WrittenAs ts ps) :
    ts.Pairwise fun t u => t.span.stop ≤ u.span.start := by
  have hspans : List.Forall₂ Eq (ts.map Token.span) (ps.map fun f => ⟨f.start, f.stop⟩) := by
    rw [List.forall₂_map_left_iff, List.forall₂_map_right_iff]
    exact hwritten.imp fun _ _ h => h.span
  rw [List.forall₂_eq_eq_eq] at hspans
  have hpairwise : (ts.map Token.span).Pairwise fun s t => s.stop ≤ t.start := by
    rw [hspans, List.pairwise_map]
    exact hlaid.pairwise
  rwa [List.pairwise_map] at hpairwise

/-- **The tokens of a source.**  The last one is the only one for the end, and its span is empty.
The others are laid out in the source with nothing but blanks and complete comments between them:
their spans are not empty, lie inside the source, and come one behind another.  The text of a token,
read alone, is that token. -/
theorem tokens_tile {source : List Char} {tokens : List Token} (h : tokenize source = .ok tokens) :
    tokens = body tokens ++ [endToken (size source)] ∧
      (∀ t ∈ body tokens, t.kind ≠ .endOfSource ∧ t.span.start < t.span.stop ∧
        t.span.Inside source) ∧
      ((body tokens).Pairwise fun t u => t.span.stop ≤ u.span.start) ∧
      ∃ ps, Laid Blanks 0 source ps ∧ List.Forall₂ Token.WrittenAs (body tokens) ps := by
  obtain ⟨ls, hls, rfl, rfl⟩ := exists_lexed h
  rw [hls.body_eq]
  have hlaid := hls.laid 0
  have hwritten := hls.writtenAs 0
  refine ⟨rfl, fun t ht => ?_, ?_, _, hlaid, hwritten⟩
  · obtain ⟨-, hlt, -, hkind⟩ := hls.token_bounds ht
    refine ⟨hkind, hlt, inside_of_tokenize h t ?_⟩
    exact List.mem_append_left _ ht
  · exact pairwise_of_writtenAs hlaid hwritten

/-- Tokens of several kinds, with a comment of each form between or behind them. -/
def commentsBetween : List Char :=
  "x /* = **/+=\"é\\n\" +\n1_000L// end".toList

theorem tokens_tile_comments :
    ∃ tokens, tokenize commentsBetween = .ok tokens ∧ (body tokens).length = 5 ∧
      tokens = body tokens ++ [endToken 33] ∧
      ((body tokens).Pairwise fun t u => t.span.stop ≤ u.span.start) ∧
      ∃ ps, Laid Blanks 0 commentsBetween ps ∧ List.Forall₂ Token.WrittenAs (body tokens) ps := by
  have hcount : (tokenize commentsBetween).map (fun tokens => (body tokens).length) = .ok 5 := by
    decide +kernel
  have hsize : size commentsBetween = 33 := by decide
  rcases htokens : tokenize commentsBetween with f | tokens
  · rw [htokens] at hcount
    cases hcount
  · rw [htokens] at hcount
    obtain ⟨hend, -, hpairwise, hlaid⟩ := tokens_tile htokens
    rw [hsize] at hend
    exact ⟨tokens, rfl, Except.ok.inj hcount, hend, hpairwise, hlaid⟩

end Source
end GuardedRepl
