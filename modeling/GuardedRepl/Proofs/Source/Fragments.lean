import GuardedRepl.Proofs.Source.Scanning
import GuardedRepl.Proofs.Source.Trimming
import GuardedRepl.Proofs.Text.Pieces
import Mathlib.Data.List.DropRight

/-!
# The tokens of fragments

Cutting a command into fragments and cutting a text into tokens are two scans of the same text.
They stay in step: a fragment has the tokens that the whole command has in its place.  They part on
a character literal that goes over a line end, which the lexer reads as one token.

**Results.**
* `Fits.append`: fragments of two texts are fragments of the text that they make up.
* `fragments_keep_tokens`: the tokens of a command are those of its fragments and the semicolons
  between them.
* `exists_cut_token`: behind a character literal that goes over a line end a token can be cut.
-/

namespace GuardedRepl
namespace Source

open Text (isBlank)
open Text.Utf8 (size)

namespace Fragment

/-- The byte after a fragment. -/
def stop (f : Fragment) : Nat :=
  f.start + size f.text

/-- The token lies inside the fragment. -/
def Contains (f : Fragment) (t : Token) : Prop :=
  f.start ≤ t.span.start ∧ t.span.stop ≤ f.stop

instance (f : Fragment) (t : Token) : Decidable (f.Contains t) :=
  inferInstanceAs (Decidable (_ ∧ _))

/-- The token lies before or behind the fragment. -/
def Apart (f : Fragment) (t : Token) : Prop :=
  t.span.stop ≤ f.start ∨ f.stop ≤ t.span.start

/-- The fragment stands in a text that begins at byte `offset`. -/
def StandsIn (f : Fragment) (offset : Nat) (text : List Char) : Prop :=
  ∃ before after, text = before ++ f.text ++ after ∧ f.start = offset + size before

theorem Apart.not_contains {f : Fragment} {t : Token} (h : f.Apart t)
    (ht : t.span.start < t.span.stop) : ¬f.Contains t := by
  rintro ⟨hstart, hstop⟩
  rcases h with h | h <;> omega

theorem filter_apart {f : Fragment} {ts : List Token}
    (h : ∀ t ∈ ts, f.Apart t ∧ t.span.start < t.span.stop) :
    (ts.filter fun t => f.Contains t) = [] :=
  List.filter_eq_nil_iff.mpr fun t ht => by simpa using (h t ht).1.not_contains (h t ht).2

theorem StandsIn.bounds {f : Fragment} {offset : Nat} {text : List Char}
    (h : f.StandsIn offset text) : offset ≤ f.start ∧ f.stop ≤ offset + size text := by
  obtain ⟨before, after, rfl, hstart⟩ := h
  simp only [stop, Text.Utf8.size_append]
  omega

theorem StandsIn.append_right {f : Fragment} {offset : Nat} {text : List Char}
    (h : f.StandsIn offset text) (more : List Char) : f.StandsIn offset (text ++ more) := by
  obtain ⟨before, after, rfl, hstart⟩ := h
  exact ⟨before, after ++ more, by simp, hstart⟩

theorem StandsIn.append_left {f : Fragment} {offset : Nat} {text first : List Char}
    (h : f.StandsIn (offset + size first) text) : f.StandsIn offset (first ++ text) := by
  obtain ⟨before, after, rfl, hstart⟩ := h
  exact ⟨first ++ before, after, by simp, by rw [hstart, Text.Utf8.size_append, Nat.add_assoc]⟩

end Fragment

/-! ## Fragments of a row -/

/-- A fragment stands in a row that begins at byte `offset`, and its text is a row of its own with
the tokens that the whole row has there. -/
structure Fragment.Keeps (f : Fragment) (offset : Nat) (ls : List Lexeme) : Prop where
  standsIn : f.StandsIn offset (textOf ls)
  own : ∃ ms, Lexed ms ∧ textOf ms = f.text ∧
    tokensFrom f.start ms = (tokensFrom offset ls).filter fun t => f.Contains t

/-- A token lies inside one fragment, or it is a semicolon outside all of them. -/
def Placed (fs : List Fragment) (t : Token) : Prop :=
  (∃! f, f ∈ fs ∧ f.Contains t) ∨ t.kind = .punct .semicolon ∧ ∀ f ∈ fs, f.Apart t

/-- The fragments hold the tokens of a row that begins at byte `offset`. -/
structure Fits (offset : Nat) (ls : List Lexeme) (fs : List Fragment) : Prop where
  keeps : ∀ f ∈ fs, f.Keeps offset ls
  placed : ∀ t ∈ tokensFrom offset ls, Placed fs t

section Append

variable {offset : Nat} {ls ms : List Lexeme} {fs gs : List Fragment}

/-- Fragments of a row do not meet the tokens of the row behind it. -/
theorem Fits.apart_right (hfs : Fits offset ls fs) (hms : Lexed ms) {f : Fragment} (hf : f ∈ fs)
    {t : Token} (ht : t ∈ tokensFrom (offset + size (textOf ls)) ms) : f.Apart t :=
  Or.inr ((hfs.keeps f hf).standsIn.bounds.2.trans (hms.token_bounds ht).1)

/-- Fragments of a row do not meet the tokens of the row before it. -/
theorem Fits.apart_left (hgs : Fits (offset + size (textOf ls)) ms gs) (hls : Lexed ls)
    {f : Fragment} (hf : f ∈ gs) {t : Token} (ht : t ∈ tokensFrom offset ls) : f.Apart t :=
  Or.inl ((hls.token_bounds ht).2.2.1.trans (hgs.keeps f hf).standsIn.bounds.1)

/-- More fragments make no difference if the token lies outside them. -/
theorem Placed.extend {t : Token} (h : Placed fs t) (hsub : fs ⊆ gs)
    (hmore : ∀ f ∈ gs, f ∈ fs ∨ f.Apart t) (ht : t.span.start < t.span.stop) : Placed gs t := by
  rcases h with ⟨f, ⟨hf, hcontains⟩, hunique⟩ | ⟨hkind, hapart⟩
  · refine Or.inl ⟨f, ⟨hsub hf, hcontains⟩, ?_⟩
    rintro g ⟨hg, hg'⟩
    rcases hmore g hg with hg | hg
    · exact hunique g ⟨hg, hg'⟩
    · exact absurd hg' (hg.not_contains ht)
  · exact Or.inr ⟨hkind, fun g hg => (hmore g hg).elim (hapart g) id⟩

/-- The fragments of two rows are fragments of the row that they make up. -/
theorem Fits.append (hls : Lexed ls) (hms : Lexed ms) (hfs : Fits offset ls fs)
    (hgs : Fits (offset + size (textOf ls)) ms gs) : Fits offset (ls ++ ms) (fs ++ gs) := by
  constructor
  · intro f hf
    rcases List.mem_append.mp hf with hf | hf
    · obtain ⟨hstands, own, hown, htext, htokens⟩ := hfs.keeps f hf
      refine ⟨by simpa using hstands.append_right (textOf ms), own, hown, htext, ?_⟩
      rw [tokensFrom_append, List.filter_append, htokens, Fragment.filter_apart fun t ht =>
        ⟨hfs.apart_right hms hf ht, (hms.token_bounds ht).2.1⟩, List.append_nil]
    · obtain ⟨hstands, own, hown, htext, htokens⟩ := hgs.keeps f hf
      refine ⟨by simpa using hstands.append_left, own, hown, htext, ?_⟩
      rw [tokensFrom_append, List.filter_append, htokens, Fragment.filter_apart fun t ht =>
        ⟨hgs.apart_left hls hf ht, (hls.token_bounds ht).2.1⟩, List.nil_append]
  · intro t ht
    rw [tokensFrom_append] at ht
    rcases List.mem_append.mp ht with ht | ht
    · refine (hfs.placed t ht).extend (List.subset_append_left fs gs) (fun f hf => ?_)
        (hls.token_bounds ht).2.1
      exact (List.mem_append.mp hf).imp_right fun hf => hgs.apart_left hls hf ht
    · refine (hgs.placed t ht).extend (List.subset_append_right fs gs) (fun f hf => ?_)
        (hms.token_bounds ht).2.1
      exact (List.mem_append.mp hf).symm.imp_right fun hf => hfs.apart_right hms hf ht

end Append

theorem fits_semicolon (offset : Nat) : Fits offset [.semicolon] [] where
  keeps f hf := by cases hf
  placed t ht := by
    obtain rfl := List.mem_singleton.mp ht
    exact Or.inr ⟨rfl, fun f hf => by cases hf⟩

/-- A stretch makes one fragment, or it has no tokens. -/
theorem fits_stretch {ls : List Lexeme} (hls : Lexed ls) (offset : Nat) :
    Fits offset ls (Fragment.ofStretch? offset (textOf ls)).toList := by
  -- The blanks `bs` in front have no tokens, and `ns` is what is left of the row in the end.
  obtain ⟨bs, ms, rfl, hbs, hms, hlexed, hno⟩ := hls.trimStart
  obtain ⟨ns, hns, htext, htokens⟩ := hlexed.trimEnd
  have hall : tokensFrom offset (bs ++ ms) = tokensFrom (offset + size (textOf bs)) ns := by
    rw [tokensFrom_append, hno, List.nil_append, htokens]
  obtain ⟨after, hafter⟩ := Text.trimEnd_prefix (textOf ms)
  rw [← htext] at hafter
  have htrim : Text.trim (textOf (bs ++ ms)) = textOf ns := by rw [Text.trim, ← hms, htext]
  rw [Fragment.ofStretch?, htrim, ← hbs]
  split_ifs with hnone
  · have hempty : tokensFrom offset (bs ++ ms) = [] := by
      rw [hall]
      rcases Bool.or_eq_true_iff.mp hnone with hnil | honly
      · rw [hns.eq_nil (List.isEmpty_iff.mp hnil), tokensFrom_nil]
      · exact hns.no_tokens honly _
    constructor
    · intro f hf
      cases hf
    · intro t ht
      rw [hempty] at ht
      cases ht
  · have hcontains : ∀ t ∈ tokensFrom offset (bs ++ ms),
        Fragment.Contains ⟨offset + size (textOf bs), textOf ns⟩ t := fun t ht => by
      rw [hall] at ht
      obtain ⟨hstart, -, hstop, -⟩ := hns.token_bounds ht
      exact ⟨hstart, hstop⟩
    constructor
    · intro f hf
      obtain rfl := List.mem_singleton.mp hf
      refine ⟨⟨textOf bs, after, by rw [textOf_append, ← hafter, List.append_assoc], rfl⟩, ns, hns,
        rfl, ?_⟩
      rw [List.filter_eq_self.mpr fun t ht => decide_eq_true (hcontains t ht), hall]
    · intro t ht
      exact Or.inl ⟨_, ⟨List.mem_singleton_self _, hcontains t ht⟩,
        fun g hg => List.mem_singleton.mp hg.1⟩

/-- The fragments that stretches make. -/
def fragmentsOf (ps : List (Nat × List Char)) : List Fragment :=
  ps.filterMap fun p => Fragment.ofStretch? p.1 p.2

theorem fragmentsOf_cons (offset : Nat) (stretch : List Char) (ps : List (Nat × List Char)) :
    fragmentsOf ((offset, stretch) :: ps) =
      (Fragment.ofStretch? offset stretch).toList ++ fragmentsOf ps := by
  rw [fragmentsOf, List.filterMap_cons]
  generalize Fragment.ofStretch? offset stretch = f?
  cases f? <;> rfl

theorem Divides.fits {offset : Nat} {ls : List Lexeme} {ps : List (Nat × List Char)}
    (h : Divides offset ls ps) (hls : Lexed ls) : Fits offset ls (fragmentsOf ps) := by
  induction h with
  | @last offset ls =>
      rw [fragmentsOf_cons, fragmentsOf, List.filterMap_nil, List.append_nil]
      exact fits_stretch hls offset
  | @adjacent offset ls ms ps _ ih =>
      rw [fragmentsOf_cons]
      exact .append hls.left hls.right (fits_stretch hls.left offset) (ih hls.right)
  | @separated offset ls ms ps _ ih =>
      -- The semicolon is a row of its own between the stretch and what comes next.
      rw [List.append_cons] at hls ⊢
      have hfirst := (fits_stretch hls.left.left offset).append hls.left.left hls.left.right
        (fits_semicolon _)
      rw [List.append_nil] at hfirst
      rw [fragmentsOf_cons]
      exact hfirst.append hls.left hls.right (ih hls.right)

/-! ## The tokens of a command -/

/-- The token does not go over a line end. -/
def Token.OneLine (t : Token) (source : List Char) : Prop :=
  ∀ before text after, source = before ++ text ++ after → size before = t.span.start →
    size text = t.span.stop - t.span.start → '\n' ∉ text

theorem oneLine_of_tokens {ls : List Lexeme}
    (h : ∀ t ∈ tokensFrom 0 ls, t.OneLine (textOf ls)) : ∀ l ∈ ls, l.OneLine := by
  intro l hl hsome
  obtain ⟨before, after, rfl⟩ := List.append_of_mem hl
  obtain ⟨kind, hkind⟩ := Option.isSome_iff_exists.mp hsome
  have ht : ⟨kind, ⟨size (textOf before), size (textOf before) + size l.text⟩⟩ ∈
      tokensFrom 0 (before ++ l :: after) := by
    simp [tokensFrom_append, Lexeme.token?, hkind]
  exact h _ ht (textOf before) l.text (textOf after) (by simp) rfl (by simp)

/-- Where no token goes over a line end, the fragments of a command have its tokens.  A token lies
inside exactly one fragment, or it is a semicolon between fragments.  A fragment can be cut into
tokens, and these are the tokens that the command has in its place. -/
theorem fragments_keep_tokens {source : List Char} {tokens : List Token}
    (h : tokenize source = .ok tokens) (hline : ∀ t ∈ tokens, t.OneLine source) :
    (∀ t ∈ body tokens, Placed (fragments source) t) ∧
      ∀ f ∈ fragments source, f.StandsIn 0 source ∧ ∃ own, tokenize f.text = .ok own ∧
        (body own).map (Token.shift f.start) = (body tokens).filter fun t => f.Contains t := by
  obtain ⟨ls, hls, rfl, rfl⟩ := exists_lexed h
  rw [List.forall_mem_append] at hline
  have hfits : Fits 0 ls (fragments (textOf ls)) :=
    (divides_stretches hls (oneLine_of_tokens hline.1)).fits hls
  rw [hls.body_eq]
  refine ⟨hfits.placed, fun f hf => ?_⟩
  obtain ⟨hstands, ms, hms, htext, htokens⟩ := hfits.keeps f hf
  refine ⟨hstands, _, htext ▸ hms.tokenize_eq, ?_⟩
  rw [hms.body_eq, ← tokensFrom_shift, htokens]

/-- A loop, a comment and literals that have the marks of a fragment's end inside them. -/
def marksInside : List Char :=
  "while (a) \x7b b(\"; \x7d\"); \x7d /* ; */ '\\'' + ';'; c".toList

theorem fragments_keep_tokens_marks :
    ∃ tokens, tokenize marksInside = .ok tokens ∧ (body tokens).length = 16 ∧
      (fragments marksInside).length = 3 ∧
      (∀ t ∈ body tokens, Placed (fragments marksInside) t) ∧
      ∀ f ∈ fragments marksInside, ∃ own, tokenize f.text = .ok own ∧
        (body own).map (Token.shift f.start) = (body tokens).filter fun t => f.Contains t := by
  have hcount : (tokenize marksInside).map (fun tokens => (body tokens).length) = .ok 16 := by
    decide +kernel
  have hfragments : (fragments marksInside).length = 3 := by decide +kernel
  have hnoline : '\n' ∉ marksInside := by decide
  rcases htokens : tokenize marksInside with f | tokens
  · rw [htokens] at hcount
    cases hcount
  · rw [htokens] at hcount
    have hlaw := fragments_keep_tokens htokens fun t _ before text after heq _ _ hmem =>
      hnoline (by simp [heq, hmem])
    exact ⟨tokens, rfl, Except.ok.inj hcount, hfragments, hlaw.1, fun f hf => (hlaw.2 f hf).2⟩

/-- A character literal with a line end, and a string with a semicolon behind it. -/
def lineEndInside : List Char :=
  "'\n' + \"'; 1\"".toList

/-- A token is cut in two, and neither part can be cut into tokens. -/
theorem exists_cut_token :
    ∃ tokens, tokenize lineEndInside = .ok tokens ∧
      (∃ t ∈ body tokens, ¬Placed (fragments lineEndInside) t) ∧
      ∀ f ∈ fragments lineEndInside, ∀ own, tokenize f.text ≠ .ok own := by
  let string : Token := ⟨.str "'; 1", ⟨6, 12⟩⟩
  have htokens : tokenize lineEndInside =
      .ok [⟨.str "\n", ⟨0, 3⟩⟩, ⟨.punct .plus, ⟨4, 5⟩⟩, string, endToken 12] := by decide +kernel
  have houtside : ∀ f ∈ fragments lineEndInside, ¬f.Contains string := by decide +kernel
  have hfaults : ∀ f ∈ fragments lineEndInside, (tokenize f.text).isOk = false := by
    decide +kernel
  refine ⟨_, htokens, ⟨string, by decide, ?_⟩, fun f hf own hown => ?_⟩
  · rintro (⟨f, ⟨hf, hcontains⟩, -⟩ | ⟨hkind, -⟩)
    · exact houtside f hf hcontains
    · cases hkind
  · have hfault := hfaults f hf
    rw [hown] at hfault
    cases hfault

end Source
end GuardedRepl
