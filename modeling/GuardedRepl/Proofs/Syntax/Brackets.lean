import GuardedRepl.Proofs.Source.Division

/-!
# Brackets around the marks of an end

A list of tokens is cut nowhere if its semicolons stand inside brackets and each closing brace that
leaves the outermost brackets is the last token or has an `else` behind it.  What stands between
brackets is cut nowhere, since the brackets around it are still open.

**Results.**
* `Fits.append`, `Fits.parens`, `Fits.braces`: lists of tokens that fit in where brackets are open.
* `Whole.branch`, `Whole.choice`: statements that are cut nowhere, put together.
* `division_uncut`: such a list of tokens is one part of a division.
-/

namespace GuardedRepl
namespace Syntax

open Source

/-! ## Depths -/

/-- The number of open brackets behind tokens. -/
def depthBehind (depth : Nat) (ks : List TokenKind) : Nat :=
  ks.foldl (fun d k => depthAfter d (some k)) depth

@[simp] theorem depthBehind_nil (depth : Nat) : depthBehind depth [] = depth := rfl

@[simp] theorem depthBehind_cons (depth : Nat) (k : TokenKind) (ks : List TokenKind) :
    depthBehind depth (k :: ks) = depthBehind (depthAfter depth (some k)) ks := rfl

@[simp] theorem depthBehind_append (depth : Nat) (ks ls : List TokenKind) :
    depthBehind depth (ks ++ ls) = depthBehind (depthBehind depth ks) ls :=
  List.foldl_append

/-- No fragment ends inside the tokens, if that many brackets are open around the first one. -/
def Uncut : Nat → List TokenKind → Prop
  | _, [] => True
  | depth, k :: ks =>
    (k = .punct .semicolon → depth ≠ 0) ∧
      (k = .punct .closeBrace → depth ≤ 1 → ks = [] ∨ ks.head? = some (.keyword .elseWord)) ∧
      Uncut (depthAfter depth (some k)) ks

theorem uncut_cons {depth : Nat} {k : TokenKind} {ks : List TokenKind}
    (hsemicolon : k ≠ .punct .semicolon) (hbrace : k ≠ .punct .closeBrace) :
    Uncut depth (k :: ks) ↔ Uncut (depthAfter depth (some k)) ks := by
  simp [Uncut, hsemicolon, hbrace]

theorem uncut_closeBrace {depth : Nat} {ks : List TokenKind} :
    Uncut depth (.punct .closeBrace :: ks) ↔
      (depth ≤ 1 → ks = [] ∨ ks.head? = some (.keyword .elseWord)) ∧ Uncut (depth - 1) ks := by
  simp [Uncut, depthAfter]

/-- No semicolon outside brackets has an `else` behind it. -/
def Tidy : Nat → List TokenKind → Prop
  | _, [] => True
  | depth, k :: ks =>
    (k = .punct .semicolon → depth = 0 → ks.head? ≠ some (.keyword .elseWord)) ∧
      Tidy (depthAfter depth (some k)) ks

instance decidableTidy : (depth : Nat) → (ks : List TokenKind) → Decidable (Tidy depth ks)
  | _, [] => inferInstanceAs (Decidable True)
  | depth, k :: ks =>
    have := decidableTidy (depthAfter depth (some k)) ks
    inferInstanceAs (Decidable (_ ∧ _))

theorem Tidy.left {depth : Nat} {ks ls : List TokenKind} (h : Tidy depth (ks ++ ls)) :
    Tidy depth ks := by
  induction ks generalizing depth with
  | nil => trivial
  | cons k ks ih =>
      refine ⟨fun hk hdepth => ?_, ih h.2⟩
      have hhead := h.1 hk hdepth
      cases ks with
      | nil => simp
      | cons => exact hhead

theorem Tidy.right {depth : Nat} {ks ls : List TokenKind} (h : Tidy depth (ks ++ ls)) :
    Tidy (depthBehind depth ks) ls := by
  induction ks generalizing depth with
  | nil => exact h
  | cons k ks ih => exact ih h.2

/-! ## What fits in -/

/-- A token that is no mark of an end and no bracket. -/
def IsPlain (k : TokenKind) : Prop :=
  k ≠ .punct .semicolon ∧ k ≠ .punct .closeBrace ∧ ∀ depth, depthAfter depth (some k) = depth

theorem isPlain_int {n : Int64} : IsPlain (.int n) :=
  ⟨by simp, by simp, fun _ => rfl⟩

theorem isPlain_str {s : String} : IsPlain (.str s) :=
  ⟨by simp, by simp, fun _ => rfl⟩

theorem isPlain_ident {name : String} : IsPlain (.ident name) :=
  ⟨by simp, by simp, fun _ => rfl⟩

theorem isPlain_keyword {word : Keyword} : IsPlain (.keyword word) :=
  ⟨by simp, by simp, fun _ => rfl⟩

/-- The brackets, and the mark of an end outside them. -/
def bracketMarks : List Punct :=
  [.openParen, .closeParen, .openBracket, .closeBracket, .openBrace, .closeBrace, .semicolon]

theorem isPlain_punct {p : Punct} (h : p ∉ bracketMarks) : IsPlain (.punct p) := by
  refine ⟨?_, ?_, fun depth => ?_⟩ <;> cases p <;> first | exact absurd h (by decide) | simp | rfl

/-- The tokens leave the brackets as they are, and where at least `depth` of them are open no
fragment ends in the tokens. -/
structure Fits (depth : Nat) (ks : List TokenKind) : Prop where
  depthBehind (d : Nat) : depthBehind d ks = d
  uncut {d : Nat} {ls : List TokenKind} : depth ≤ d → Uncut d ls → Uncut d (ks ++ ls)

namespace Fits

variable {depth : Nat} {k : TokenKind} {ks ls : List TokenKind}

theorem nil : Fits depth [] where
  depthBehind _ := rfl
  uncut _ h := h

theorem append (hks : Fits depth ks) (hls : Fits depth ls) : Fits depth (ks ++ ls) where
  depthBehind d := by rw [depthBehind_append, hks.depthBehind, hls.depthBehind]
  uncut hd h := by
    rw [List.append_assoc]
    exact hks.uncut hd (hls.uncut hd h)

theorem mono {d : Nat} (h : Fits depth ks) (hd : depth ≤ d) : Fits d ks where
  depthBehind := h.depthBehind
  uncut hle := h.uncut (hd.trans hle)

theorem plain (hk : IsPlain k) : Fits depth [k] where
  depthBehind := hk.2.2
  uncut _ h := (uncut_cons hk.1 hk.2.1).mpr (by rwa [hk.2.2])

theorem cons (hk : IsPlain k) (h : Fits depth ks) : Fits depth (k :: ks) :=
  (plain hk).append h

/-- Inside brackets a semicolon is no mark of an end. -/
theorem semicolon : Fits 1 [.punct .semicolon] where
  depthBehind _ := rfl
  uncut hd h := ⟨fun _ => Nat.ne_of_gt hd, by simp, h⟩

/-- What fits in where a bracket is open fits in anywhere between brackets. -/
theorem parens (h : Fits 1 ks) :
    Fits depth (.punct .openParen :: ks ++ [.punct .closeParen]) where
  depthBehind d := by
    rw [List.cons_append, depthBehind_cons, depthBehind_append, h.depthBehind]
    rfl
  uncut {d ls} _ hls := by
    rw [List.cons_append, List.cons_append, List.append_assoc]
    refine (uncut_cons (by decide) (by decide)).mpr (h.uncut (Nat.le_add_left 1 d) ?_)
    exact (uncut_cons (by decide) (by decide)).mpr hls

/-- Inside other brackets a closing brace is no mark of an end. -/
theorem braces (h : Fits 1 ks) : Fits 1 (.punct .openBrace :: ks ++ [.punct .closeBrace]) where
  depthBehind d := by
    rw [List.cons_append, depthBehind_cons, depthBehind_append, h.depthBehind]
    rfl
  uncut {d ls} hd hls := by
    rw [List.cons_append, List.cons_append, List.append_assoc]
    refine (uncut_cons (by decide) (by decide)).mpr (h.uncut (Nat.le_add_left 1 d) ?_)
    refine uncut_closeBrace.mpr ⟨fun hle => ?_, hls⟩
    change d + 1 ≤ 1 at hle
    omega

end Fits

/-! ## Whole statements -/

/-- The tokens of a statement, with or without a semicolon after it. -/
structure Whole (ks : List TokenKind) : Prop where
  fits : Fits 1 ks
  /-- Without that semicolon the statement is cut nowhere. -/
  uncut : Tidy 0 ks → ∃ core semicolons, ks = core ++ semicolons ∧ Uncut 0 core ∧
    (semicolons = [] ∨ semicolons = [.punct .semicolon])

namespace Whole

variable {ks ls head : List TokenKind}

/-- What fits in outside brackets is a whole statement. -/
theorem flat (h : Fits 0 ks) : Whole ks where
  fits := h.mono (Nat.zero_le 1)
  uncut _ := by
    have huncut : Uncut 0 (ks ++ []) := h.uncut (Nat.le_refl 0) trivial
    rw [List.append_nil] at huncut
    exact ⟨ks, [], (List.append_nil ks).symm, huncut, Or.inl rfl⟩

theorem semicolon (h : Fits 0 ks) : Whole (ks ++ [.punct .semicolon]) where
  fits := (h.mono (Nat.zero_le 1)).append .semicolon
  uncut _ := by
    have huncut : Uncut 0 (ks ++ []) := h.uncut (Nat.le_refl 0) trivial
    rw [List.append_nil] at huncut
    exact ⟨ks, _, rfl, huncut, Or.inr rfl⟩

/-- The brace at the end of a block is its last token. -/
theorem braces (h : Fits 1 ks) : Whole (.punct .openBrace :: ks ++ [.punct .closeBrace]) where
  fits := h.braces
  uncut _ := by
    have huncut : Uncut 1 (ks ++ [.punct .closeBrace]) :=
      h.uncut (Nat.le_refl 1) (uncut_closeBrace.mpr ⟨fun _ => Or.inl rfl, trivial⟩)
    exact ⟨_, [], (List.append_nil _).symm, (uncut_cons (by decide) (by decide)).mpr huncut,
      Or.inl rfl⟩

/-- A statement behind the head of a loop or a choice. -/
theorem branch (hhead : Fits 0 head) (h : Whole ks) : Whole (head ++ ks) where
  fits := (hhead.mono (Nat.zero_le 1)).append h.fits
  uncut htidy := by
    have hright := htidy.right
    rw [hhead.depthBehind] at hright
    obtain ⟨core, semicolons, rfl, huncut, hsemicolons⟩ := h.uncut hright
    exact ⟨head ++ core, semicolons, (List.append_assoc ..).symm,
      hhead.uncut (Nat.le_refl 0) huncut, hsemicolons⟩

/-- No fragment ends between two lists of tokens if the second begins with an `else`. -/
theorem uncut_else {depth : Nat} (h : Uncut depth ks)
    (hls : Uncut (depthBehind depth ks) (.keyword .elseWord :: ls)) :
    Uncut depth (ks ++ .keyword .elseWord :: ls) := by
  induction ks generalizing depth with
  | nil => exact hls
  | cons k ks ih =>
      refine ⟨h.1, fun hk hdepth => ?_, ih h.2.2 hls⟩
      right
      rcases h.2.1 hk hdepth with rfl | helse
      · rfl
      · cases ks with
        | nil => cases helse
        | cons => exact helse

/-- A semicolon closes no bracket. -/
theorem depthBehind_core {core semicolons : List TokenKind}
    (h : depthBehind 0 (core ++ semicolons) = 0)
    (hsemicolons : semicolons = [] ∨ semicolons = [.punct .semicolon]) :
    depthBehind 0 core = 0 := by
  rcases hsemicolons with rfl | rfl
  · rwa [List.append_nil] at h
  · rwa [depthBehind_append] at h

/-- Two statements with an `else` between them.  The first has no semicolon there. -/
theorem choice (hks : Whole ks) (hls : Whole ls) : Whole (ks ++ .keyword .elseWord :: ls) where
  fits := hks.fits.append (.cons isPlain_keyword hls.fits)
  uncut htidy := by
    have hright := htidy.right
    rw [hks.fits.depthBehind] at hright
    obtain ⟨core, semicolons, rfl, huncut, hsemicolons⟩ := hks.uncut htidy.left
    obtain ⟨core', semicolons', rfl, huncut', hsemicolons'⟩ := hls.uncut hright.2
    have hdepth : depthBehind 0 core = 0 :=
      depthBehind_core (hks.fits.depthBehind 0) hsemicolons
    rcases hsemicolons with rfl | rfl
    · refine ⟨core ++ .keyword .elseWord :: core', semicolons', by simp, ?_, hsemicolons'⟩
      refine uncut_else huncut ?_
      rw [hdepth]
      exact (uncut_cons (by decide) (by decide)).mpr huncut'
    · rw [List.append_assoc] at htidy
      have hsemicolon := htidy.right
      rw [hdepth] at hsemicolon
      exact absurd rfl (hsemicolon.1 rfl rfl)

end Whole

/-! ## One part -/

/-- No comment stands between a closing brace and an `else`. -/
def ElseShown (xs : List Item) : Prop :=
  ∀ before comments after,
    xs = before ++ some (.punct .closeBrace) :: (comments ++ some (.keyword .elseWord) :: after) →
      kindsOf comments = [] → comments = []

theorem ElseShown.tail {x : Item} {xs : List Item} (h : ElseShown (x :: xs)) : ElseShown xs :=
  fun before comments after hxs => h (x :: before) comments after (by rw [hxs, List.cons_append])

theorem ElseShown.beginsWith {xs : List Item} {ks : List TokenKind}
    (h : ElseShown (some (.punct .closeBrace) :: xs))
    (hkinds : kindsOf xs = .keyword .elseWord :: ks) : beginsWith .elseWord xs = true := by
  obtain ⟨comments, x, after, rfl, hcomments, hx, -⟩ := List.filterMap_eq_cons_iff.mp hkinds
  obtain rfl : x = some (.keyword .elseWord) := hx
  obtain rfl := h [] comments after rfl (List.filterMap_eq_nil_iff.mpr hcomments)
  rfl

/-- Semicolons outside brackets, and what is left before them, make no part but that one. -/
theorem division_semicolons {part xs : List Item}
    (h : ∀ k ∈ kindsOf xs, k = .punct .semicolon) :
    ((division 0 part xs).map kindsOf).filter (· ≠ []) = [kindsOf part].filter (· ≠ []) := by
  induction xs generalizing part with
  | nil => rfl
  | cons x xs ih =>
      cases x with
      | none =>
          rw [division_step _ (by simp) (by simp), depthAfter_none, ih h, kindsOf_append,
            kindsOf_none, kindsOf_nil, List.append_nil]
      | some k =>
          rw [kindsOf_some, List.forall_mem_cons] at h
          obtain ⟨rfl, hxs⟩ := h
          rw [division, if_neg (by simp [endsPart]), if_pos (by simp [separates]), List.map_cons,
            List.filter_cons, ih hxs, List.filter_singleton]
          split_ifs <;> simp_all

/-- Tokens that are cut nowhere are one part, whatever comments there are between them. -/
theorem division_uncut {depth : Nat} {part xs : List Item} {core semicolons : List TokenKind}
    (hkinds : kindsOf xs = core ++ semicolons) (hcore : Uncut depth core)
    (hdepth : depthBehind depth core = 0) (hsemicolons : ∀ k ∈ semicolons, k = .punct .semicolon)
    (hshown : ElseShown xs) :
    ((division depth part xs).map kindsOf).filter (· ≠ []) =
      [kindsOf part ++ core].filter (· ≠ []) := by
  induction xs generalizing depth part core with
  | nil =>
      obtain ⟨rfl, -⟩ := List.append_eq_nil_iff.mp hkinds.symm
      simp [division]
  | cons x xs ih =>
      cases core with
      | nil =>
          rw [depthBehind_nil] at hdepth
          subst hdepth
          rw [division_semicolons (by rw [hkinds]; exact hsemicolons), List.append_nil]
      | cons k core =>
          cases x with
          | none =>
              rw [division_step _ (by simp) (by simp), depthAfter_none,
                @ih depth (part ++ [none]) (k :: core) hkinds hcore hdepth hshown.tail]
              simp
          | some k' =>
              rw [kindsOf_some, List.cons_append, List.cons_eq_cons] at hkinds
              obtain ⟨rfl, hkinds⟩ := hkinds
              have hrest := @ih _ (part ++ [some k']) _ hkinds hcore.2.2 hdepth hshown.tail
              rw [show kindsOf (part ++ [some k']) ++ core = kindsOf part ++ k' :: core by simp]
                at hrest
              by_cases hends : endsPart depth part (some k') xs = true
              · rw [division, if_pos hends, List.map_cons, List.filter_cons]
                simp only [endsPart, Bool.and_eq_true, decide_eq_true_eq, Option.some_inj,
                  Bool.not_eq_true'] at hends
                obtain ⟨⟨⟨rfl, hle⟩, -⟩, helse⟩ := hends
                rcases hcore.2.1 rfl hle with rfl | hhead
                · rw [division_semicolons (by rw [hkinds]; exact hsemicolons)]
                  simp
                · obtain ⟨core', rfl⟩ := List.head?_eq_some_iff.mp hhead
                  rw [hshown.beginsWith hkinds] at helse
                  cases helse
              · have hopen : ¬separates depth (some k') = true := by
                  simpa [separates] using hcore.1
                rw [division, if_neg hends, if_neg hopen, hrest]

end Syntax
end GuardedRepl
