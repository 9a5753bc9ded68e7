import GuardedRepl.Proofs.Text.Search
import GuardedRepl.Source.Fragment
import GuardedRepl.Source.Lexer
import Mathlib.Data.List.TakeWhile
import Mathlib.Tactic

/-!
# Lexemes

A text that can be cut into tokens is a row of lexemes: blanks, comments, and the tokens as they are
written.  Nothing beyond its end is needed to read a lexeme, so a part of a row can be read alone.

**Results.**
* `reads_of_piece`: what a lexeme looks like.
* `piece_of_append`: a lexeme is read in the same way if the text ends earlier.
* `Lexed.tokenize_eq`, `exists_lexed`: the tokens of a text are those of its row of lexemes.
-/

namespace GuardedRepl
namespace Source

open Text.Utf8 (size)

/-! ## Characters -/

theorem isNamePart_of_isNumberPart {c : Char} (h : isNumberPart c = true) :
    isNamePart c = true := by
  simp only [isNumberPart, isNamePart, Char.isAlphanum, Bool.or_eq_true] at h ⊢
  tauto

theorem isNamePart_of_isNameStart {c : Char} (h : isNameStart c = true) : isNamePart c = true := by
  simp only [isNameStart, isNamePart, Char.isAlphanum, Bool.or_eq_true] at h ⊢
  tauto

/-! ## Searching -/

theorem blockLength?_eq_some {cs : List Char} {n : Nat} (h : blockLength? cs = some n) :
    ∃ w rest, cs = w ++ '*' :: '/' :: rest ∧ n = w.length + 2 := by
  obtain ⟨k, hk, rfl⟩ := Option.map_eq_some_iff.mp h
  obtain ⟨w, rest, rfl, rfl⟩ := (Text.indexOf?_eq_some_iff.mp hk).split
  exact ⟨w, rest, by simp, by omega⟩

theorem blockLength?_of_append {cs rest : List Char} {n : Nat}
    (h : blockLength? (cs ++ rest) = some n) (hn : n ≤ cs.length) : blockLength? cs = some n := by
  obtain ⟨k, hk, rfl⟩ := Option.map_eq_some_iff.mp h
  refine Option.map_eq_some_iff.mpr ⟨k, Text.indexOf?_of_append hk ?_, rfl⟩
  simpa using hn

theorem takeWhile_of_append {p : Char → Bool} {cs rest : List Char}
    (h : ((cs ++ rest).takeWhile p).length ≤ cs.length) :
    cs.takeWhile p = (cs ++ rest).takeWhile p := by
  rw [List.takeWhile_append] at h ⊢
  split_ifs with hall
  · rw [if_pos hall, List.length_append] at h
    have hrest : rest.takeWhile p = [] := List.length_eq_zero_iff.mp (by omega)
    rw [hrest, List.append_nil]
    exact (List.takeWhile_prefix p).eq_of_length hall
  · rfl

/-! ## Literals -/

theorem map_eq_ok {α β : Type} {x : Except Fault α} {f : α → β} {b : β} (h : x.map f = .ok b) :
    ∃ a, x = .ok a ∧ f a = b := by
  rcases x with e | a
  · cases h
  · exact ⟨a, rfl, Except.ok.inj h⟩

/-- A backslash is the last character, or another character comes next. -/
theorem ne_escape {c : Char} {cs : List Char} (hlast : c = '\\' → cs = [] → False)
    (hpair : ∀ e ds, c = '\\' → cs = e :: ds → False) : c ≠ '\\' := by
  rintro rfl
  cases cs with
  | nil => exact hlast rfl rfl
  | cons e cs => exact hpair e cs rfl rfl

theorem quotedLength_cons {quote c : Char} (length : Nat) (cs : List Char) (hescape : c ≠ '\\')
    (hline : c ≠ '\n') (hquote : c ≠ quote) :
    quotedLength quote length (c :: cs) = quotedLength quote (length + 1) cs := by
  rw [quotedLength]
  · rw [if_neg (by simp [hline, hquote])]
  · exact fun h _ => hescape h
  · exact fun _ _ h _ => hescape h

theorem stringBody_cons {c : Char} (bytes length : Nat) (done cs : List Char) (hescape : c ≠ '\\')
    (hline : c ≠ '\n') (hquote : c ≠ '"') :
    stringBody bytes length done (c :: cs) =
      stringBody (bytes + c.utf8Size) (length + 1) (c :: done) cs := by
  rw [stringBody]
  · exact hquote
  · exact hline
  · exact fun h _ => hescape h
  · exact fun _ _ h _ => hescape h

/-- Where a string body ends: both scanners take the same quote for the closing one. -/
theorem stringBody_eq_ok {bytes length n : Nat} {done cs : List Char} {v : String}
    (h : stringBody bytes length done cs = .ok (v, n)) :
    ∃ w rest, cs = w ++ '"' :: rest ∧ n = length + w.length + 1 ∧
      quotedLength '"' length cs = n := by
  fun_induction stringBody bytes length done cs with
  | case1 | case3 | case4 | case6 => cases h
  | case2 bytes length done cs =>
      cases h
      exact ⟨[], cs, rfl, rfl, by simp [quotedLength]⟩
  | case5 bytes length done e cs c hc ih =>
      obtain ⟨w, rest, rfl, rfl, hlength⟩ := ih h
      exact ⟨'\\' :: e :: w, rest, rfl, by simp only [List.length_cons]; omega,
        by rw [quotedLength, hlength]⟩
  | case7 bytes length done c cs hquote hline hlast hpair ih =>
      have hescape := ne_escape hlast hpair
      obtain ⟨w, rest, rfl, rfl, hlength⟩ := ih h
      exact ⟨c :: w, rest, rfl, by simp only [List.length_cons]; omega,
        by rw [quotedLength_cons _ _ hescape hline hquote, hlength]⟩

theorem stringBody_of_append {bytes length n : Nat} {done cs rest : List Char} {v : String}
    (h : stringBody bytes length done (cs ++ rest) = .ok (v, n)) (hn : n ≤ length + cs.length) :
    stringBody bytes length done cs = .ok (v, n) := by
  fun_induction stringBody bytes length done cs with
  | case1 bytes length done =>
      obtain ⟨w, _, -, rfl, -⟩ := stringBody_eq_ok h
      simp only [List.length_nil] at hn
      omega
  | case2 bytes length done cs => simpa [stringBody] using h
  | case3 bytes length done cs => simp [stringBody] at h
  | case4 bytes length done =>
      obtain ⟨w, r, hw, rfl, -⟩ := stringBody_eq_ok h
      cases w with
      | nil => simp at hw
      | cons d w =>
          simp only [List.length_cons, List.length_nil] at hn
          omega
  | case5 bytes length done e cs c hc ih =>
      rw [List.cons_append, List.cons_append, stringBody, hc] at h
      exact ih h (by simp only [List.length_cons] at hn; omega)
  | case6 bytes length done e cs hc =>
      simp [stringBody, hc] at h
  | case7 bytes length done c cs hquote hline hlast hpair ih =>
      have hescape := ne_escape hlast hpair
      rw [List.cons_append, stringBody_cons _ _ _ _ hescape hline hquote] at h
      exact ih h (by simp only [List.length_cons] at hn; omega)

/-- A character literal holds one character, which may stand behind a backslash. -/
theorem characterBody_cases {n : Nat} {cs : List Char} {v : Char}
    (h : characterBody cs = .ok (v, n)) :
    (∃ e rest, cs = '\\' :: e :: '\'' :: rest ∧ unescape? e = some v ∧ n = 3) ∨
      ∃ rest, cs = v :: '\'' :: rest ∧ v ≠ '\\' ∧ v ≠ '\'' ∧ n = 2 := by
  unfold characterBody at h
  split at h
  · next e cs =>
      split at h
      · next c hc =>
          split at h
          · next hclosed =>
              cases h
              obtain ⟨rest, rfl⟩ := List.head?_eq_some_iff.mp hclosed
              exact Or.inl ⟨e, rest, rfl, hc, rfl⟩
          · cases h
      · cases h
  · cases h
  · cases h
  · next c cs hpair hlast hquote =>
      split at h
      · next hclosed =>
          cases h
          obtain ⟨rest, rfl⟩ := List.head?_eq_some_iff.mp hclosed
          exact Or.inr ⟨rest, rfl, fun h => hpair _ _ h rfl, hquote, rfl⟩
      · cases h
  · cases h

theorem characterBody_pair {e v : Char} (rest : List Char) (h : unescape? e = some v) :
    characterBody ('\\' :: e :: '\'' :: rest) = .ok (v, 3) := by
  simp [characterBody, h]

theorem characterBody_single {v : Char} (rest : List Char) (hescape : v ≠ '\\')
    (hquote : v ≠ '\'') : characterBody (v :: '\'' :: rest) = .ok (v, 2) := by
  simp [characterBody, hescape]

theorem characterBody_of_append {n : Nat} {cs rest : List Char} {v : Char}
    (h : characterBody (cs ++ rest) = .ok (v, n)) (hn : n ≤ cs.length) :
    characterBody cs = .ok (v, n) := by
  rcases characterBody_cases h with ⟨e, r, hcs, he, rfl⟩ | ⟨r, hcs, hescape, hquote, rfl⟩
  · obtain ⟨cs', rfl⟩ : ['\\', e, '\''] <+: cs :=
      List.prefix_of_prefix_length_le ⟨r, hcs.symm⟩ (List.prefix_append cs rest) hn
    exact characterBody_pair cs' he
  · obtain ⟨cs', rfl⟩ : [v, '\''] <+: cs :=
      List.prefix_of_prefix_length_le ⟨r, hcs.symm⟩ (List.prefix_append cs rest) hn
    exact characterBody_single cs' hescape hquote

/-- The scanners agree about the end of a character literal unless it goes over a line end. -/
theorem quotedLength_characterBody {n : Nat} {cs : List Char} {v : Char}
    (h : characterBody cs = .ok (v, n)) :
    ∃ w rest, cs = w ++ '\'' :: rest ∧ n = w.length + 1 ∧
      ('\n' ∉ w → quotedLength '\'' 0 cs = n) := by
  rcases characterBody_cases h with ⟨e, rest, rfl, -, rfl⟩ | ⟨rest, rfl, hescape, hquote, rfl⟩
  · exact ⟨['\\', e], rest, rfl, rfl, fun _ => by simp [quotedLength]⟩
  · refine ⟨[v], rest, rfl, rfl, fun hline => ?_⟩
    rw [quotedLength_cons _ _ hescape (fun h => hline (h ▸ List.mem_singleton_self _)) hquote]
    simp [quotedLength]

/-! ## One lexeme -/

/-- What a lexeme looks like that begins with `c`, goes on with `w` and has `rest` after it. -/
inductive Reads : Char → List Char → List Char → Option TokenKind → Prop
  | blank {c rest} : isSpace c = true → Reads c [] rest none
  | line {w rest} : lineLength (w ++ rest) = w.length → Reads '/' ('/' :: w) rest none
  | block {w rest} : blockLength? (w ++ '*' :: '/' :: rest) = some (w.length + 2) →
      Reads '/' ('*' :: w ++ ['*', '/']) rest none
  | word {c w rest kind} : (∀ d ∈ c :: w, isNamePart d = true) → kind ≠ .endOfSource →
      Reads c w rest (some kind)
  | literal {quote w rest v} : quote = '"' ∨ quote = '\'' →
      ('\n' ∉ w → quotedLength quote 0 (w ++ quote :: rest) = w.length + 1) →
      Reads quote (w ++ [quote]) rest (some (.str v))
  | punct {c w rest p} : p.text.toList = c :: w →
      (c = '/' → ∀ d ∈ (w ++ rest).head?, d ≠ '/' ∧ d ≠ '*') → Reads c w rest (some (.punct p))

theorem Reads.kind_ne {c : Char} {w rest : List Char} {kind : TokenKind}
    (h : Reads c w rest (some kind)) : kind ≠ .endOfSource := by
  cases h with
  | word _ hkind => exact hkind
  | literal | punct => exact TokenKind.noConfusion

theorem ofWord_ne_endOfSource (s : String) : TokenKind.ofWord s ≠ .endOfSource := by
  unfold TokenKind.ofWord
  split <;> exact TokenKind.noConfusion

theorem longest?_cons_eq_some {c : Char} {cs : List Char} {p : Punct}
    (h : Punct.longest? (c :: cs) = some p) :
    ∃ w rest, cs = w ++ rest ∧ p.text.toList = c :: w := by
  obtain ⟨rest, hrest⟩ := List.isPrefixOf_iff_prefix.mp (List.find?_eq_some_iff_append.mp h).1
  cases p <;> cases hrest <;> exact ⟨_, rest, rfl, rfl⟩

theorem lineLength_cons_slash (cs : List Char) : lineLength ('/' :: cs) = lineLength cs + 1 := by
  simp [lineLength]

/-- A number is a word of digits, underscores and a letter. -/
theorem number_cases {c : Char} {cs : List Char} {kind? : Option TokenKind} {n : Nat}
    (hc : c.isDigit = true) (h : number c cs = .ok ⟨kind?, n⟩) :
    ∃ w rest, cs = w ++ rest ∧ n = w.length ∧ Reads c w rest kind? := by
  have hhead : isNamePart c = true := isNamePart_of_isNumberPart (by simp [isNumberPart, hc])
  have htail : ∀ d ∈ cs.takeWhile isNumberPart, isNamePart d = true := fun d hd =>
    isNamePart_of_isNumberPart (List.mem_takeWhile_imp hd)
  have hcs : cs.takeWhile isNumberPart ++ cs.dropWhile isNumberPart = cs :=
    List.takeWhile_append_dropWhile
  unfold number at h
  simp only at h
  generalize cs.takeWhile isNumberPart = tail at h htail hcs
  generalize cs.dropWhile isNumberPart = rest at hcs
  subst hcs
  rw [List.drop_left] at h
  split_ifs at h with hvalue hsuffix
  · cases h
    cases rest with
    | nil => simp at hsuffix
    | cons s rest =>
        have hletter : isNamePart s = true := by
          simp only [List.head?_cons, Option.any_some, Bool.or_eq_true,
            decide_eq_true_eq] at hsuffix
          rcases hsuffix with rfl | rfl <;> rfl
        exact ⟨tail ++ [s], rest, by simp, by simp, .word (List.forall_mem_cons.mpr
          ⟨hhead, List.forall_mem_append.mpr ⟨htail, List.forall_mem_singleton.mpr hletter⟩⟩)
          TokenKind.noConfusion⟩
  · cases h
    exact ⟨tail, rest, rfl, rfl, .word (List.forall_mem_cons.mpr ⟨hhead, htail⟩)
      TokenKind.noConfusion⟩

/-- What a text begins with. -/
theorem piece_cases {c : Char} {cs : List Char} {kind? : Option TokenKind} {n : Nat}
    (h : piece c cs = .ok ⟨kind?, n⟩) :
    ∃ w rest, cs = w ++ rest ∧ n = w.length ∧ Reads c w rest kind? := by
  unfold piece at h
  split_ifs at h with hspace hline hblock hdigit hquote hchar hname
  · cases h
    exact ⟨[], cs, rfl, rfl, .blank hspace⟩
  · cases h
    simp only [Bool.and_eq_true, decide_eq_true_eq] at hline
    obtain ⟨rfl, hhead⟩ := hline
    obtain ⟨ds, rfl⟩ := List.head?_eq_some_iff.mp hhead
    have hds : ds.takeWhile (· ≠ '\n') ++ ds.dropWhile (· ≠ '\n') = ds :=
      List.takeWhile_append_dropWhile
    exact ⟨'/' :: ds.takeWhile (· ≠ '\n'), ds.dropWhile (· ≠ '\n'), by rw [List.cons_append, hds],
      lineLength_cons_slash ds, .line (by rw [hds]; rfl)⟩
  · simp only [Bool.and_eq_true, decide_eq_true_eq] at hblock
    obtain ⟨rfl, hhead⟩ := hblock
    obtain ⟨ds, rfl⟩ := List.head?_eq_some_iff.mp hhead
    split at h
    · next m hm =>
        cases h
        obtain ⟨w, rest, rfl, rfl⟩ := blockLength?_eq_some hm
        exact ⟨'*' :: w ++ ['*', '/'], rest, by simp, by simp, .block hm⟩
    · cases h
  · exact number_cases hdigit h
  · obtain ⟨⟨v, m⟩, hbody, hpiece⟩ := map_eq_ok h
    cases hpiece
    obtain ⟨w, rest, rfl, hn, hlength⟩ := stringBody_eq_ok hbody
    refine ⟨w ++ ['"'], rest, by simp, by simpa using hn, ?_⟩
    rw [hquote]
    exact .literal (Or.inl rfl) fun _ => by rw [hlength, hn, Nat.zero_add]
  · obtain ⟨⟨v, m⟩, hbody, hpiece⟩ := map_eq_ok h
    cases hpiece
    obtain ⟨w, rest, rfl, hn, hlength⟩ := quotedLength_characterBody hbody
    refine ⟨w ++ ['\''], rest, by simp, by simpa using hn, ?_⟩
    rw [hchar]
    exact .literal (Or.inr rfl) fun hline => by rw [hlength hline, hn]
  · cases h
    exact ⟨cs.takeWhile isNamePart, cs.dropWhile isNamePart, List.takeWhile_append_dropWhile.symm,
      rfl, .word (List.forall_mem_cons.mpr
        ⟨isNamePart_of_isNameStart hname, fun _ => List.mem_takeWhile_imp⟩)
        (ofWord_ne_endOfSource _)⟩
  · split at h
    · next p hp =>
        cases h
        obtain ⟨w, rest, rfl, hw⟩ := longest?_cons_eq_some hp
        refine ⟨w, rest, rfl, ?_, .punct hw fun hslash d hd => ?_⟩
        · rw [← String.length_toList, hw, List.length_cons, Nat.add_sub_cancel]
        · rw [hd] at hline hblock
          simpa [hslash] using And.intro hline hblock
    · cases h

theorem reads_of_piece {c : Char} {w rest : List Char} {kind? : Option TokenKind}
    (h : piece c (w ++ rest) = .ok ⟨kind?, w.length⟩) : Reads c w rest kind? := by
  obtain ⟨w', rest', heq, hlength, hreads⟩ := piece_cases h
  obtain ⟨rfl, rfl⟩ := List.append_inj heq hlength
  exact hreads

/-! ## Reading less -/

theorem number_of_append {c : Char} {cs rest : List Char} {p : Piece}
    (h : number c (cs ++ rest) = .ok p) (hp : p.more ≤ cs.length) : number c cs = .ok p := by
  unfold number at h ⊢
  simp only at h ⊢
  have hmore : ((cs ++ rest).takeWhile isNumberPart).length ≤ p.more := by
    split_ifs at h <;> cases h <;> simp
  rw [takeWhile_of_append (hmore.trans hp)]
  generalize (cs ++ rest).takeWhile isNumberPart = tail at h hmore ⊢
  rw [List.drop_append_of_le_length (hmore.trans hp)] at h
  -- If the digits reach to the end of `cs`, a letter behind them would lie beyond it.
  rcases hdrop : cs.drop tail.length with _ | ⟨d, ds⟩
  · rw [hdrop] at h
    have hlength : cs.length ≤ tail.length := List.drop_eq_nil_iff.mp hdrop
    split_ifs at h with hvalue hsuffix
    · cases h
      simp only at hp
      omega
    · cases h
      rw [if_pos hvalue]
      rfl
  · rw [hdrop] at h
    exact h

theorem longest?_of_append {cs rest : List Char} {p : Punct}
    (h : Punct.longest? (cs ++ rest) = some p) (hp : p.text.length ≤ cs.length) :
    Punct.longest? cs = some p := by
  obtain ⟨hstands, before, after, hall, hbefore⟩ := List.find?_eq_some_iff_append.mp h
  refine List.find?_eq_some_iff_append.mpr ⟨?_, before, after, hall, fun q hq => ?_⟩
  · exact List.isPrefixOf_iff_prefix.mpr (List.prefix_of_prefix_length_le
      (List.isPrefixOf_iff_prefix.mp hstands) (List.prefix_append cs rest)
      (by rwa [String.length_toList]))
  · have hlong := hbefore q hq
    rw [Bool.not_eq_true', ← Bool.not_eq_true, List.isPrefixOf_iff_prefix] at hlong ⊢
    exact fun hshort => hlong (hshort.trans (List.prefix_append cs rest))

/-- The lexeme at the front is the same if the text ends earlier, but not inside the lexeme. -/
theorem piece_of_append {c : Char} {cs rest : List Char} {kind? : Option TokenKind} {n : Nat}
    (h : piece c (cs ++ rest) = .ok ⟨kind?, n⟩) (hn : n ≤ cs.length) :
    piece c cs = .ok ⟨kind?, n⟩ := by
  -- Without its end the text begins no comment that it did not begin before, and it still begins
  -- the one that it began, since both characters of the mark belong to the lexeme.
  have hhead {d : Char} (hd : ¬(decide (c = '/') && decide ((cs ++ rest).head? = some d)) = true) :
      ¬(decide (c = '/') && decide (cs.head? = some d)) = true := by
    cases cs <;> simp_all
  have hcons {d : Char} (hd : (decide (c = '/') && decide ((cs ++ rest).head? = some d)) = true)
      (hpos : 0 < n) : ∃ ds, c = '/' ∧ cs = d :: ds := by
    cases cs with
    | nil => exact absurd hn (by simpa using hpos.ne')
    | cons e ds => exact ⟨ds, by simpa using hd⟩
  unfold piece at h
  split_ifs at h with hspace hline hblock hdigit hquote hchar hname
  · rw [piece, if_pos hspace, h]
  · cases h
    simp only [Bool.and_eq_true, decide_eq_true_eq] at hline
    obtain ⟨after, hafter⟩ := List.head?_eq_some_iff.mp hline.2
    obtain ⟨ds, rfl, rfl⟩ := hcons (d := '/') (by simp [hline])
      (by rw [hafter, lineLength_cons_slash]; omega)
    rw [piece, if_neg hspace, if_pos (by simp), lineLength, lineLength,
      takeWhile_of_append hn]
  · split at h
    · next m hm =>
        cases h
        obtain ⟨ds, rfl, rfl⟩ := hcons hblock (by omega)
        rw [piece, if_neg hspace, if_neg (by simp), if_pos (by simp), List.drop_one, List.tail_cons,
          blockLength?_of_append hm (by simpa using hn)]
    · cases h
  · rw [piece, if_neg hspace, if_neg (hhead hline), if_neg (hhead hblock), if_pos hdigit]
    exact number_of_append h hn
  · rw [piece, if_neg hspace, if_neg (hhead hline), if_neg (hhead hblock), if_neg hdigit,
      if_pos hquote]
    obtain ⟨⟨v, m⟩, hbody, hpiece⟩ := map_eq_ok h
    cases hpiece
    rw [stringBody_of_append hbody (by omega)]
    rfl
  · rw [piece, if_neg hspace, if_neg (hhead hline), if_neg (hhead hblock), if_neg hdigit,
      if_neg hquote, if_pos hchar]
    obtain ⟨⟨v, m⟩, hbody, hpiece⟩ := map_eq_ok h
    cases hpiece
    rw [characterBody_of_append hbody hn]
    rfl
  · rw [piece, if_neg hspace, if_neg (hhead hline), if_neg (hhead hblock), if_neg hdigit,
      if_neg hquote, if_neg hchar, if_pos hname]
    cases h
    rw [takeWhile_of_append hn]
  · rw [piece, if_neg hspace, if_neg (hhead hline), if_neg (hhead hblock), if_neg hdigit,
      if_neg hquote, if_neg hchar, if_neg hname]
    split at h
    · next q hq =>
        cases h
        have hshort : q.text.length ≤ (c :: cs).length := by
          simp only [List.length_cons]
          omega
        rw [longest?_of_append hq hshort]
    · cases h

/-! ## Rows of lexemes -/

/-- A blank, a comment or a token as it is written.  `kind?` is `none` unless it is a token. -/
structure Lexeme where
  kind? : Option TokenKind
  text : List Char

/-- The text that a row of lexemes makes up. -/
def textOf (ls : List Lexeme) : List Char :=
  ls.flatMap Lexeme.text

@[simp] theorem textOf_nil : textOf [] = [] := rfl

@[simp] theorem textOf_cons (l : Lexeme) (ls : List Lexeme) :
    textOf (l :: ls) = l.text ++ textOf ls := rfl

@[simp] theorem textOf_append (ls ms : List Lexeme) :
    textOf (ls ++ ms) = textOf ls ++ textOf ms :=
  List.flatMap_append

/-- The lexer reads the text of a row one lexeme after another. -/
inductive Lexed : List Lexeme → Prop
  | nil : Lexed []
  | cons {kind? c w ls} : piece c (w ++ textOf ls) = .ok ⟨kind?, w.length⟩ → Lexed ls →
      Lexed (⟨kind?, c :: w⟩ :: ls)

/-- A lexeme's token, if it has one. -/
def Lexeme.token? (offset : Nat) (l : Lexeme) : Option Token :=
  l.kind?.map fun kind => ⟨kind, ⟨offset, offset + size l.text⟩⟩

/-- The tokens of a row that begins at byte `offset`. -/
def tokensFrom (offset : Nat) : List Lexeme → List Token
  | [] => []
  | l :: ls => (l.token? offset).toList ++ tokensFrom (offset + size l.text) ls

@[simp] theorem tokensFrom_nil (offset : Nat) : tokensFrom offset [] = [] := rfl

@[simp] theorem tokensFrom_cons (offset : Nat) (l : Lexeme) (ls : List Lexeme) :
    tokensFrom offset (l :: ls) =
      (l.token? offset).toList ++ tokensFrom (offset + size l.text) ls := rfl

theorem tokensFrom_append (offset : Nat) (ls ms : List Lexeme) :
    tokensFrom offset (ls ++ ms) =
      tokensFrom offset ls ++ tokensFrom (offset + size (textOf ls)) ms := by
  induction ls generalizing offset with
  | nil => rfl
  | cons l ls ih =>
      simp only [List.cons_append, tokensFrom_cons, ih, textOf_cons, Text.Utf8.size_append,
        Nat.add_assoc, List.append_assoc]

/-- A row is still read in the same way if its end is replaced by a beginning of that end. -/
theorem Lexed.replace {ls ms ms' : List Lexeme} {extra : List Char} (h : Lexed (ls ++ ms))
    (hms : Lexed ms') (htext : textOf ms = textOf ms' ++ extra) : Lexed (ls ++ ms') := by
  induction ls with
  | nil => exact hms
  | cons l ls ih =>
      rw [List.cons_append] at h ⊢
      cases h with
      | @cons kind? c w _ hpiece hls =>
          rw [textOf_append, htext, ← List.append_assoc, ← List.append_assoc] at hpiece
          refine .cons ?_ (ih hls)
          rw [textOf_append, ← List.append_assoc]
          exact piece_of_append hpiece (by simp)

theorem Lexed.left {ls ms : List Lexeme} (h : Lexed (ls ++ ms)) : Lexed ls := by
  have hleft : Lexed (ls ++ []) := h.replace .nil (List.nil_append (textOf ms)).symm
  rwa [List.append_nil] at hleft

theorem Lexed.right {ls ms : List Lexeme} (h : Lexed (ls ++ ms)) : Lexed ms := by
  induction ls with
  | nil => exact h
  | cons l ls ih =>
      rw [List.cons_append] at h
      cases h with
      | cons _ hls => exact ih hls

theorem Lexed.eq_nil {ls : List Lexeme} (h : Lexed ls) (htext : textOf ls = []) : ls = [] := by
  cases h with
  | nil => rfl
  | cons => simp at htext

/-! ## The tokens of a row -/

/-- A token of a row is not empty, stands inside the row, and is not the token for the end. -/
theorem Lexed.token_bounds {offset : Nat} {ls : List Lexeme} (h : Lexed ls) {t : Token}
    (ht : t ∈ tokensFrom offset ls) :
    offset ≤ t.span.start ∧ t.span.start < t.span.stop ∧
      t.span.stop ≤ offset + size (textOf ls) ∧ t.kind ≠ .endOfSource := by
  induction h generalizing offset with
  | nil => cases ht
  | @cons kind? c w ls hpiece hls ih =>
      rw [tokensFrom_cons, List.mem_append, Option.mem_toList] at ht
      simp only [textOf_cons, Text.Utf8.size_append, Text.Utf8.size_cons]
      have hc := c.utf8Size_pos
      rcases ht with ht | ht
      · obtain ⟨kind, rfl, rfl⟩ := Option.map_eq_some_iff.mp ht
        simp only [Text.Utf8.size_cons]
        exact ⟨le_rfl, by omega, by omega, (reads_of_piece hpiece).kind_ne⟩
      · obtain ⟨hstart, hlt, hstop, hkind⟩ := ih ht
        simp only [Text.Utf8.size_cons] at hstart hstop
        exact ⟨by omega, hlt, by omega, hkind⟩

/-- The same token in a text that stands `offset` bytes further on. -/
def Token.shift (offset : Nat) (t : Token) : Token :=
  { t with span := t.span.shift offset }

theorem tokensFrom_shift (offset : Nat) (ls : List Lexeme) :
    tokensFrom offset ls = (tokensFrom 0 ls).map (Token.shift offset) := by
  have hshift : ∀ start, tokensFrom (offset + start) ls =
      (tokensFrom start ls).map (Token.shift offset) := by
    induction ls with
    | nil => intro start; rfl
    | cons l ls ih =>
        intro start
        rw [tokensFrom_cons, tokensFrom_cons, Nat.add_assoc, ih, List.map_append]
        rcases l with ⟨_ | kind, text⟩
        · rfl
        · simp [Lexeme.token?, Token.shift, Span.shift, Nat.add_assoc]
  exact hshift 0

/-- The tokens without the one for the end. -/
def body (tokens : List Token) : List Token :=
  tokens.filter fun t => t.kind ≠ .endOfSource

/-- The token at the end of a text of `bytes` bytes. -/
def endToken (bytes : Nat) : Token :=
  ⟨.endOfSource, ⟨bytes, bytes⟩⟩

theorem Lexed.tokenize_eq {ls : List Lexeme} (h : Lexed ls) :
    tokenize (textOf ls) = .ok (tokensFrom 0 ls ++ [endToken (size (textOf ls))]) := by
  have hgo : ∀ (offset : Nat) (done : List Token), tokenize.go offset done (textOf ls) =
      .ok (done.reverse ++ tokensFrom offset ls ++ [endToken (offset + size (textOf ls))]) := by
    induction h with
    | nil =>
        intro offset done
        simp [tokenize.go, endToken]
    | @cons kind? c w ls hpiece hls ih =>
        intro offset done
        rw [textOf_cons, List.cons_append, tokenize.go, hpiece]
        cases kind? with
        | none => simp [ih, Lexeme.token?, Nat.add_assoc]
        | some kind => simp [ih, Lexeme.token?, Nat.add_assoc]
  simpa [tokenize] using hgo 0 []

theorem Lexed.body_eq {ls : List Lexeme} (h : Lexed ls) (offset bytes : Nat) :
    body (tokensFrom offset ls ++ [endToken bytes]) = tokensFrom offset ls := by
  rw [body, List.filter_append, List.filter_eq_self.mpr fun t ht => by
    simpa using (h.token_bounds ht).2.2.2]
  simp [endToken]

theorem exists_lexed {cs : List Char} {tokens : List Token} (h : tokenize cs = .ok tokens) :
    ∃ ls, Lexed ls ∧ cs = textOf ls ∧ tokens = tokensFrom 0 ls ++ [endToken (size cs)] := by
  have hgo : ∀ (offset : Nat) (done : List Token) (cs : List Char),
      tokenize.go offset done cs = .ok tokens → ∃ ls, Lexed ls ∧ cs = textOf ls := by
    intro offset done cs h
    fun_induction tokenize.go offset done cs with
    | case1 => exact ⟨[], .nil, rfl⟩
    | case2 => cases h
    | case3 offset done c cs n stop hpiece ih | case4 offset done c cs n stop kind hpiece ih =>
        obtain ⟨w, rest, rfl, rfl, -⟩ := piece_cases hpiece
        obtain ⟨ls, hls, hrest⟩ := ih h
        obtain rfl : rest = textOf ls := by simpa using hrest
        exact ⟨_ :: ls, .cons hpiece hls, rfl⟩
  obtain ⟨ls, hls, rfl⟩ := hgo 0 [] cs h
  exact ⟨ls, hls, rfl, Except.ok.inj (h.symm.trans hls.tokenize_eq)⟩

/-- The tokens of a source, without the one for the end. -/
theorem kinds_of_tokenize {source : List Char} {tokens : List Token}
    (h : tokenize source = .ok tokens) :
    tokens.map Token.kind = (body tokens).map Token.kind ++ [.endOfSource] ∧
      .endOfSource ∉ (body tokens).map Token.kind := by
  obtain ⟨ls, hls, rfl, rfl⟩ := exists_lexed h
  rw [hls.body_eq]
  refine ⟨by simp [endToken], fun hmem => ?_⟩
  obtain ⟨t, ht, hkind⟩ := List.mem_map.mp hmem
  exact (hls.token_bounds ht).2.2.2 hkind

end Source
end GuardedRepl
