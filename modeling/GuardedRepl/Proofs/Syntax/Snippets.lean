import GuardedRepl.Proofs.Source.Fragments
import GuardedRepl.Proofs.Syntax.Twins
import GuardedRepl.Proofs.Text.Sizes

/-!
# Snippets and fragments

The splitter knows brackets, three reserved words and `else`, and the parser knows the grammar.  A
command that the parser takes for one snippet is one fragment, and the fragment is the same snippet.
A semicolon outside brackets always ends a fragment, so the command may not need one: there is none
before an `else`, and the snippet does not end with an empty statement.

**Results.**
* `elseShown_of_elseInSight`: the comments between a brace and an `else`.
* `fragments_keep_snippet`: the fragment of a snippet.
* `exists_cut_snippet`: snippets that need a semicolon outside brackets.
-/

namespace GuardedRepl
namespace Syntax

open Source
open Text (isBlank)
open Text.Utf8 (size)

/-- Between a closing brace and an `else` that is the next token there is only white space. -/
def ElseInSight (source : List Char) (tokens : List Token) : Prop :=
  ∀ xs t t' ys, tokens = xs ++ t :: t' :: ys → t.kind = .punct .closeBrace →
    t'.kind = .keyword .elseWord → ∀ before between after, source = before ++ between ++ after →
      size before = t.span.stop → size (before ++ between) = t'.span.start →
        between.all isBlank = true

/-- A row of white space has no items. -/
theorem itemsOf_of_blank {ls : List Lexeme} (h : Lexed ls)
    (hblank : (textOf ls).all isBlank = true) : itemsOf ls = [] := by
  induction h with
  | nil => rfl
  | @cons kind? c w ls hpiece hls ih =>
      rw [textOf_cons, List.cons_append, List.all_cons, Bool.and_eq_true, List.all_append,
        Bool.and_eq_true] at hblank
      obtain ⟨rfl, rfl⟩ := (reads_of_piece hpiece).eq_blank hblank.1
      have hslash : c ≠ '/' := by
        rintro rfl
        exact absurd hblank.1 (by decide)
      rw [itemsOf_blank hslash]
      exact ih hblank.2.2

/-- The first item of a row, with the blanks before it. -/
theorem itemsOf_eq_cons {ls : List Lexeme} {x : Item} {xs : List Item} (h : itemsOf ls = x :: xs) :
    ∃ bs l ms, ls = bs ++ l :: ms ∧ itemsOf bs = [] ∧ l.item? = some x ∧ itemsOf ms = xs := by
  obtain ⟨bs, l, ms, rfl, hbs, hl, hms⟩ := List.filterMap_eq_cons_iff.mp h
  exact ⟨bs, l, ms, rfl, List.filterMap_eq_nil_iff.mpr hbs, hl, hms⟩

theorem tokensFrom_eq_nil {offset : Nat} {ls : List Lexeme} (h : kindsOf (itemsOf ls) = []) :
    tokensFrom offset ls = [] := by
  rw [← tokensFrom_kinds offset, List.map_eq_nil_iff] at h
  exact h

theorem token_of_item {l : Lexeme} {kind : TokenKind} (h : l.item? = some (some kind))
    (offset : Nat) : l.token? offset = some ⟨kind, ⟨offset, offset + size l.text⟩⟩ := by
  obtain ⟨kind?, text⟩ := l
  cases kind? with
  | none =>
      simp only [Lexeme.item?] at h
      split at h <;> cases h
  | some kind' =>
      cases h
      rfl

/-- Lexemes without tokens between a closing brace and an `else` are white space. -/
theorem ElseInSight.blank {before gap after : List Lexeme} {brace word : Lexeme}
    {tail : List Token}
    (h : ElseInSight (textOf (before ++ brace :: (gap ++ word :: after)))
      (tokensFrom 0 (before ++ brace :: (gap ++ word :: after)) ++ tail))
    (hbrace : brace.item? = some (some (.punct .closeBrace)))
    (hword : word.item? = some (some (.keyword .elseWord)))
    (hgap : kindsOf (itemsOf gap) = []) : (textOf gap).all isBlank = true := by
  refine h (tokensFrom 0 before)
    ⟨.punct .closeBrace, ⟨size (textOf before), size (textOf before ++ brace.text)⟩⟩
    ⟨.keyword .elseWord, ⟨size (textOf before ++ brace.text ++ textOf gap),
      size (textOf before ++ brace.text ++ textOf gap) + size word.text⟩⟩
    (tokensFrom (size (textOf before ++ brace.text ++ textOf gap) + size word.text) after ++ tail)
    ?_ rfl rfl (textOf before ++ brace.text) (textOf gap) (textOf (word :: after)) ?_ rfl rfl
  · have hnone (offset : Nat) : tokensFrom offset gap = [] := tokensFrom_eq_nil hgap
    simp only [tokensFrom_append, tokensFrom_cons, token_of_item hbrace, token_of_item hword, hnone,
      Option.toList_some, List.nil_append, List.cons_append, List.append_assoc, Nat.zero_add,
      Text.Utf8.size_append, Nat.add_assoc]
  · simp only [textOf_append, textOf_cons, List.append_assoc]

/-- No comment stands between a closing brace and an `else` that are next to each other. -/
theorem elseShown_of_elseInSight {ls : List Lexeme} {tail : List Token} (hls : Lexed ls)
    (h : ElseInSight (textOf ls) (tokensFrom 0 ls ++ tail)) : ElseShown (itemsOf ls) := by
  intro before comments after hitems hcomments
  obtain ⟨front, rest, rfl, -, hrest⟩ := List.filterMap_eq_append_iff.mp hitems
  obtain ⟨bs, brace, ms, rfl, -, hbrace, hms⟩ := itemsOf_eq_cons hrest
  obtain ⟨cs, behind, rfl, hcs, hbehind⟩ := List.filterMap_eq_append_iff.mp hms
  obtain ⟨ds, word, es, rfl, hds, hword, -⟩ := itemsOf_eq_cons hbehind
  -- Between the two tokens stand the comments and the blanks around them.
  have hgap : itemsOf (cs ++ ds) = comments := by
    rw [itemsOf_append, hds, List.append_nil]
    exact hcs
  have hrow : front ++ (bs ++ brace :: (cs ++ (ds ++ word :: es))) =
      (front ++ bs) ++ brace :: ((cs ++ ds) ++ word :: es) := by
    simp only [List.append_assoc]
  rw [hrow] at hls h
  have hblank := h.blank hbrace hword (by rw [hgap, hcomments])
  rw [List.append_cons] at hls
  rw [← hgap]
  exact itemsOf_of_blank hls.right.left hblank

theorem parse_endOfSource (s : Span) : (parse [⟨.endOfSource, s⟩]).isOk = false := by
  rfl

/-- **The splitter keeps a snippet in one piece.**  A command that is read as one snippet is one
fragment, and the fragment says the same, if the snippet needs no semicolon outside brackets: it
does not end with an empty statement, and there is none before an `else`.  No token may go over a
line end, and no comment may stand between a closing brace and an `else`. -/
theorem fragments_keep_snippet {source : List Char} {tokens : List Token} {t : TopLevel Span}
    (htokens : tokenize source = .ok tokens) (hparse : parse tokens = .ok t)
    (hempty : t.endsEmpty = false) (htidy : Tidy 0 (tokens.map Token.kind))
    (hline : ∀ u ∈ tokens, u.OneLine source) (hshown : ElseInSight source tokens) :
    ∃ f own t', fragments source = [f] ∧ tokenize f.text = .ok own ∧ parse own = .ok t' ∧
      t'.shape = t.shape := by
  obtain ⟨hkinds, hend⟩ := kinds_of_tokenize htokens
  obtain ⟨⟨v, tail, hv, hwhole, htail⟩, -⟩ := report_of_parse hparse hkinds hend
  rw [hkinds, hv] at htidy
  -- The snippet is a core that is cut nowhere, and semicolons outside brackets behind it.
  obtain ⟨core, semicolons, rfl, huncut, hsemicolons⟩ := hwhole.uncut htidy.left.left
  have hdepth := Whole.depthBehind_core (hwhole.fits.depthBehind 0) hsemicolons
  have hall : ∀ k ∈ semicolons ++ tail, k = .punct .semicolon := by
    rcases hsemicolons with rfl | rfl <;> rcases htail with rfl | rfl <;> simp
  rw [List.append_assoc] at hv
  rw [hv] at hkinds
  have htwin (own : List Token) (hown : own.map Token.kind = core ++ [.endOfSource]) :
      ∃ t', parse own = .ok t' ∧ t'.shape = t.shape :=
    parse_twin hparse (hkinds.trans (by rw [List.append_assoc])) hown hall hempty
  have hcore : core ≠ [] := by
    rintro rfl
    have hfails := parse_endOfSource ⟨0, 0⟩
    obtain ⟨t', ht', -⟩ := htwin [⟨.endOfSource, ⟨0, 0⟩⟩] rfl
    rw [ht'] at hfails
    cases hfails
  -- The core is the one fragment.
  obtain ⟨ls, hls, rfl, rfl⟩ := exists_lexed htokens
  rw [hls.body_eq, tokensFrom_kinds] at hv
  have hfragments := fragments_kinds hls (oneLine_of_tokens fun u hu =>
    hline u (List.mem_append_left _ hu))
  rw [division_uncut hv huncut hdepth hall (elseShown_of_elseInSight hls hshown), kindsOf_nil,
    List.nil_append, List.filter_eq_self.mpr (by simpa using hcore), List.map_singleton,
    List.map_eq_singleton_iff] at hfragments
  obtain ⟨f, hf, hkindsIn⟩ := hfragments
  rcases hown : tokenize f.text with fault | own
  · rw [kindsIn, hown] at hkindsIn
    cases hkindsIn
  · rw [kindsIn, hown] at hkindsIn
    have hkindsOwn : (body own).map Token.kind = core := Except.ok.inj hkindsIn
    obtain ⟨t', ht', hshape⟩ := htwin own (by rw [(kinds_of_tokenize hown).1, hkindsOwn])
    exact ⟨f, own, t', hf, hown, ht', hshape⟩

/-- A choice with braces, and semicolons inside them and in a comment. -/
def choiceInside : List Char :=
  "if (a) \x7b b; \x7d else \x7b c; \x7d // ; d".toList

/-- The tokens of the choice. -/
def choiceTokens : List Token :=
  [⟨.keyword .ifWord, ⟨0, 2⟩⟩, ⟨.punct .openParen, ⟨3, 4⟩⟩, ⟨.ident "a", ⟨4, 5⟩⟩,
    ⟨.punct .closeParen, ⟨5, 6⟩⟩, ⟨.punct .openBrace, ⟨7, 8⟩⟩, ⟨.ident "b", ⟨9, 10⟩⟩,
    ⟨.punct .semicolon, ⟨10, 11⟩⟩, ⟨.punct .closeBrace, ⟨12, 13⟩⟩, ⟨.keyword .elseWord, ⟨14, 18⟩⟩,
    ⟨.punct .openBrace, ⟨19, 20⟩⟩, ⟨.ident "c", ⟨21, 22⟩⟩, ⟨.punct .semicolon, ⟨22, 23⟩⟩,
    ⟨.punct .closeBrace, ⟨24, 25⟩⟩, ⟨.endOfSource, ⟨32, 32⟩⟩]

theorem elseInSight_choice : ElseInSight choiceInside choiceTokens := by
  have hpairs : choiceTokens.IsChain fun t t' => t.kind = .punct .closeBrace →
      t'.kind = .keyword .elseWord → t.span.stop = 13 ∧ t'.span.start = 14 := by decide +kernel
  rintro xs t t' ys htokens ht ht' before between after hsource hbefore hbetween
  rw [htokens] at hpairs
  obtain ⟨hstop, hstart⟩ := (List.isChain_append_cons_cons.mp hpairs).2.1 ht ht'
  have hcut : choiceInside = "if (a) \x7b b; \x7d".toList ++
      (" ".toList ++ "else \x7b c; \x7d // ; d".toList) := by decide +kernel
  rw [hcut, List.append_assoc] at hsource
  obtain ⟨rfl, hrest⟩ := Text.Utf8.append_inj_of_size hsource (by rw [hbefore, hstop]; rfl)
  rw [Text.Utf8.size_append, hbefore, hstart, hstop] at hbetween
  obtain ⟨rfl, -⟩ := Text.Utf8.append_inj_of_size hrest (show 1 = size between by omega)
  rfl

theorem fragments_keep_snippet_choice :
    ∃ t f own t', tokenize choiceInside = .ok choiceTokens ∧ parse choiceTokens = .ok t ∧
      fragments choiceInside = [f] ∧ tokenize f.text = .ok own ∧
        parse own = .ok t' ∧ t'.shape = t.shape := by
  have htokens : tokenize choiceInside = .ok choiceTokens := by decide +kernel
  have hends : (parse choiceTokens).map TopLevel.endsEmpty = .ok false := by decide +kernel
  have hnoline : '\n' ∉ choiceInside := by decide +kernel
  rcases hparse : parse choiceTokens with fault | t
  · rw [hparse] at hends
    cases hends
  · rw [hparse] at hends
    obtain ⟨f, own, t', hf, hown, ht', hshape⟩ := fragments_keep_snippet htokens hparse
      (Except.ok.inj hends) (by decide +kernel)
      (fun u _ before text after heq _ _ hmem => hnoline (by simp [heq, hmem])) elseInSight_choice
    exact ⟨t, f, own, t', htokens, rfl, hf, hown, ht', hshape⟩

/-- A choice whose first statement ends with a semicolon. -/
def cutChoice : List Char :=
  "if (true) 1; else 2".toList

/-- A loop whose body is an empty statement. -/
def cutLoop : List Char :=
  "while (false) ;".toList

/-- The tokens of the loop. -/
def loopTokens : List Token :=
  [⟨.keyword .whileWord, ⟨0, 5⟩⟩, ⟨.punct .openParen, ⟨6, 7⟩⟩, ⟨.keyword .falseWord, ⟨7, 12⟩⟩,
    ⟨.punct .closeParen, ⟨12, 13⟩⟩, ⟨.punct .semicolon, ⟨14, 15⟩⟩, ⟨.endOfSource, ⟨15, 15⟩⟩]

/-- A snippet that needs a semicolon outside brackets is not kept: the choice is two fragments, and
the one fragment of the loop is no snippet. -/
theorem exists_cut_snippet :
    (∃ tokens t, tokenize cutChoice = .ok tokens ∧ parse tokens = .ok t ∧ t.endsEmpty = false ∧
      (fragments cutChoice).length = 2) ∧
    ∃ cond, tokenize cutLoop = .ok loopTokens ∧
      parse loopTokens = .ok (.stmt (.while cond .empty)) ∧
        ∀ f ∈ fragments cutLoop, ∀ own, tokenize f.text = .ok own → (parse own).isOk = false := by
  refine ⟨?_, .bool ⟨7, 12⟩ false, by decide +kernel, by rfl, fun f hf own hown => ?_⟩
  · have hends : ((tokenize cutChoice).map fun tokens => (parse tokens).map TopLevel.endsEmpty) =
        .ok (.ok false) := by decide +kernel
    rcases htokens : tokenize cutChoice with fault | tokens
    · rw [htokens] at hends
      cases hends
    · rw [htokens] at hends
      have hends : (parse tokens).map TopLevel.endsEmpty = .ok false := Except.ok.inj hends
      rcases hparse : parse tokens with fault | t
      · rw [hparse] at hends
        cases hends
      · rw [hparse] at hends
        exact ⟨tokens, t, rfl, hparse, Except.ok.inj hends, by decide +kernel⟩
  · have hfails : ∀ f ∈ fragments cutLoop,
        ((tokenize f.text).map fun own => (parse own).isOk) = .ok false := by decide +kernel
    have hfails := hfails f hf
    rw [hown] at hfails
    exact Except.ok.inj hfails

end Syntax
end GuardedRepl
