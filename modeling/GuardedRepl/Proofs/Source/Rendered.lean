import GuardedRepl.Proofs.Source.Scanning
import GuardedRepl.Proofs.Source.Trimming
import GuardedRepl.Value.Basic

/-!
# Rendered values as sources

What is shown for a string or an integer is a source again.  It makes up one fragment, since no
quote, separator or comment inside a string comes to light, and it is cut into the tokens of a
literal, behind a minus sign if the integer is negative.

**Results.**
* `Numeral.value_ofNat`: the value of a numeral is the number that it was written for.
* `stringBody_escape`: escapes are undone.
* `tokenize_quote`, `tokenize_numeral`, `tokenize_negative`: the tokens of a rendering.
* `fragments_quote`, `fragments_ofInt`: a rendering is one fragment.
-/

namespace GuardedRepl

/-! ## Numerals -/

namespace Text.Numeral

theorem isDigit_digitChar {d : Nat} (h : d < 10) : (digitChar d).isDigit = true := by
  interval_cases d <;> rfl

theorem toNat_digitChar {d : Nat} (h : d < 10) : (digitChar d).toNat - '0'.toNat = d := by
  interval_cases d <;> rfl

theorem isDigit_of_mem_ofNat {n : Nat} {c : Char} (hc : c ∈ ofNat n) : c.isDigit = true := by
  fun_induction ofNat n with
  | case1 n hn =>
      rw [List.mem_singleton.mp hc]
      exact isDigit_digitChar hn
  | case2 n hn ih =>
      rcases List.mem_append.mp hc with hc | hc
      · exact ih hc
      · rw [List.mem_singleton.mp hc]
        exact isDigit_digitChar (Nat.mod_lt n (by decide))

theorem ofNat_ne_nil (n : Nat) : ofNat n ≠ [] := by
  rw [ofNat]
  split <;> simp

theorem value_concat (cs : List Char) (c : Char) :
    value (cs ++ [c]) = 10 * value cs + (c.toNat - '0'.toNat) := by
  rw [value, List.foldl_concat, value]

/-- The value of a numeral is the number that it was written for. -/
theorem value_ofNat (n : Nat) : value (ofNat n) = n := by
  fun_induction ofNat n with
  | case1 n hn =>
      rw [← List.nil_append [digitChar n], value_concat, toNat_digitChar hn]
      exact Nat.zero_add n
  | case2 n hn ih =>
      rw [value_concat, ih, toNat_digitChar (Nat.mod_lt n (by decide))]
      exact Nat.div_add_mod n 10

end Text.Numeral

namespace Source

open Text (isBlank)
open Text.Utf8 (size)

/-! ## One fragment -/

/-- A text is a fragment of its own if the scan passes all of it, no white space can be left out at
its ends, and no comment begins it. -/
theorem fragments_whole {c : Char} {cs : List Char} (init : List Char) (d : Char)
    (htext : c :: cs = init ++ [d])
    (hgo : stretches.go [] ⟨0, c :: cs, 0, 0⟩ (c :: cs) =
      stretches.go [] (Scan.pass ⟨0, c :: cs, 0, 0⟩ (c :: cs).length) [])
    (hc : isBlank c = false) (hd : isBlank d = false) (hslash : c ≠ '/') :
    fragments (c :: cs) = [⟨0, c :: cs⟩] := by
  have hstretches : stretches (c :: cs) = [(0, c :: cs)] := by
    rw [stretches, hgo, stretches.go]
    simp [Scan.pass, Scan.current]
  have htrim : Text.trim (c :: cs) = c :: cs := by
    rw [Text.trim, Text.trimStart, List.dropWhile_cons_of_neg (by simp [hc]), htext, trimEnd_concat,
      hd, if_neg Bool.false_ne_true]
  have hcomments : isOnlyComments (c :: cs) = false := by
    rw [isOnlyComments]
    · exact List.cons_ne_nil c cs
    · exact fun _ h => hslash (List.cons.inj h).1
    · exact fun _ h => hslash (List.cons.inj h).1
  simp [fragments, hstretches, Fragment.ofStretch?, htrim, hcomments, hc]

/-! ## Strings -/

/-- A character stands behind a backslash that the lexer takes away, or it stands for itself. -/
theorem escape_cases (c : Char) :
    (∃ e, Value.escape c = ['\\', e] ∧ unescape? e = some c) ∨
      Value.escape c = [c] ∧ c ≠ '\\' ∧ c ≠ '\n' ∧ c ≠ '"' := by
  unfold Value.escape
  split
  · exact Or.inl ⟨_, rfl, rfl⟩
  · exact Or.inl ⟨_, rfl, rfl⟩
  · exact Or.inl ⟨_, rfl, rfl⟩
  · exact Or.inl ⟨_, rfl, rfl⟩
  · exact Or.inl ⟨_, rfl, rfl⟩
  · rename_i hquote hescape hline _ _
    exact Or.inr ⟨rfl, hescape, hline, hquote⟩

/-- Escapes are undone, and the closing quote is found behind them. -/
theorem stringBody_escape (bytes length : Nat) (done cs : List Char) :
    stringBody bytes length done (cs.flatMap Value.escape ++ ['"']) =
      .ok (String.ofList (done.reverse ++ cs), length + (cs.flatMap Value.escape).length + 1) := by
  induction cs generalizing bytes length done with
  | nil => simp [stringBody]
  | cons c cs ih =>
      rw [List.flatMap_cons, List.append_assoc]
      rcases escape_cases c with ⟨e, heq, hc⟩ | ⟨heq, hescape, hline, hquote⟩ <;> rw [heq]
      · simp only [List.cons_append, List.nil_append, stringBody, hc, ih]
        simp [Nat.add_assoc, Nat.add_comm 2]
      · simp only [List.cons_append, List.nil_append,
          stringBody_cons _ _ _ _ hescape hline hquote, ih]
        simp [Nat.add_assoc, Nat.add_comm 1]

theorem quote_eq (cs : List Char) :
    Value.quote cs = '"' :: (cs.flatMap Value.escape ++ ['"']) := rfl

theorem piece_quote (cs : List Char) :
    piece '"' cs = (stringBody 1 0 [] cs).map fun (value, n) => ⟨some (.str value), n⟩ := rfl

/-- The rendering of a string is one literal, which has that string for its value. -/
theorem lexed_quote (cs : List Char) :
    Lexed [⟨some (.str (String.ofList cs)), Value.quote cs⟩] := by
  rw [quote_eq]
  refine .cons ?_ .nil
  rw [textOf_nil, List.append_nil, piece_quote, stringBody_escape]
  simp [Except.map]

theorem tokenize_quote (cs : List Char) :
    tokenize (Value.quote cs) =
      .ok [⟨.str (String.ofList cs), ⟨0, size (Value.quote cs)⟩⟩,
        endToken (size (Value.quote cs))] := by
  simpa [Lexeme.token?] using (lexed_quote cs).tokenize_eq

theorem fragments_quote (cs : List Char) :
    fragments (Value.quote cs) = [⟨0, Value.quote cs⟩] := by
  rw [quote_eq]
  refine fragments_whole ('"' :: cs.flatMap Value.escape) '"' rfl ?_ rfl rfl (by decide)
  -- The scan finds the closing quote where the lexer does.
  obtain ⟨-, -, -, -, hlength⟩ := stringBody_eq_ok (stringBody_escape 0 0 [] cs)
  rw [go_inert (n := (cs.flatMap Value.escape ++ ['"']).length), List.drop_length,
    List.length_cons, Nat.add_comm]
  rw [inertLength?, if_pos (by simp), hlength]
  simp

/-! ## Integers -/

section Integers

variable {c : Char} {cs : List Char}

theorem isNamePart_of_isDigit (h : c.isDigit = true) : isNamePart c = true :=
  isNamePart_of_isNumberPart (by simp [isNumberPart, h])

theorem ne_of_isDigit {d : Char} (hc : c.isDigit = true) (hd : d.isDigit = false) : c ≠ d := by
  rintro rfl
  rw [hc] at hd
  cases hd

/-- Digits are a number. -/
theorem number_digits (hdigits : ∀ d ∈ c :: cs, d.isDigit = true)
    (hvalue : Text.Numeral.value (c :: cs) ≤ 0x7FFFFFFFFFFFFFFF) :
    number c cs = .ok ⟨some (.int (Int64.ofNat (Text.Numeral.value (c :: cs)))), cs.length⟩ := by
  have htail : cs.takeWhile isNumberPart = cs := List.takeWhile_eq_self_iff.mpr fun d hd => by
    simp [isNumberPart, hdigits d (List.mem_cons_of_mem c hd)]
  have hfilter : (c :: cs).filter (· ≠ '_') = c :: cs := List.filter_eq_self.mpr fun d hd =>
    decide_eq_true (ne_of_isDigit (hdigits d hd) rfl)
  simp only [number, htail, List.drop_length, List.head?_nil, Option.any_none, hfilter,
    Bool.false_eq_true, if_false, if_pos hvalue, Nat.add_zero]

/-- A digit begins a number. -/
theorem piece_digit (hc : c.isDigit = true) (cs : List Char) : piece c cs = number c cs := by
  have hspace : isSpace c = false := by
    rw [← Bool.not_eq_true]
    intro hspace
    simp only [isSpace, Bool.or_eq_true, decide_eq_true_eq] at hspace
    rcases hspace with (((rfl | rfl) | rfl) | rfl) | rfl <;> cases hc
  simp [piece, hspace, ne_of_isDigit (d := '/') hc rfl, hc]

/-- A minus sign before a digit stands for itself. -/
theorem piece_minus (hc : c.isDigit = true) (cs : List Char) :
    piece '-' (c :: cs) = .ok ⟨some (.punct .minus), 0⟩ := by
  have hequals : '=' ≠ c := (ne_of_isDigit hc rfl).symm
  have hminus : '-' ≠ c := (ne_of_isDigit hc rfl).symm
  have hlongest : Punct.longest? ('-' :: c :: cs) = some .minus := by
    simp [Punct.longest?, Punct.all, Punct.text, List.isPrefixOf, hequals, hminus]
  have hlength : Punct.minus.text.length - 1 = 0 := rfl
  simp [piece, isSpace, isNameStart, hlongest, hlength]

/-- A numeral within the range of the lexer is one number. -/
theorem lexed_numeral {n : Nat} (hn : n ≤ 0x7FFFFFFFFFFFFFFF) :
    Lexed [⟨some (.int (Int64.ofNat n)), Text.Numeral.ofNat n⟩] := by
  have hdigits : ∀ d ∈ Text.Numeral.ofNat n, d.isDigit = true :=
    fun d => Text.Numeral.isDigit_of_mem_ofNat
  have hvalue := Text.Numeral.value_ofNat n
  obtain ⟨c, cs, hnumeral⟩ := List.exists_cons_of_ne_nil (Text.Numeral.ofNat_ne_nil n)
  rw [hnumeral] at hdigits hvalue ⊢
  refine .cons ?_ .nil
  rw [textOf_nil, List.append_nil, piece_digit (hdigits c List.mem_cons_self),
    number_digits hdigits (hvalue ▸ hn), hvalue]

/-- A minus sign before a numeral is a token of its own. -/
theorem lexed_negative {n : Nat} (hn : n ≤ 0x7FFFFFFFFFFFFFFF) :
    Lexed [⟨some (.punct .minus), ['-']⟩,
      ⟨some (.int (Int64.ofNat n)), Text.Numeral.ofNat n⟩] := by
  have hdigits : ∀ d ∈ Text.Numeral.ofNat n, d.isDigit = true :=
    fun d => Text.Numeral.isDigit_of_mem_ofNat
  have hlexed := lexed_numeral hn
  obtain ⟨c, cs, hnumeral⟩ := List.exists_cons_of_ne_nil (Text.Numeral.ofNat_ne_nil n)
  rw [hnumeral] at hdigits hlexed ⊢
  refine .cons ?_ hlexed
  rw [textOf_cons, textOf_nil, List.append_nil]
  exact piece_minus (hdigits c List.mem_cons_self) cs

theorem tokenize_numeral {n : Nat} (hn : n ≤ 0x7FFFFFFFFFFFFFFF) :
    tokenize (Text.Numeral.ofNat n) =
      .ok [⟨.int (Int64.ofNat n), ⟨0, size (Text.Numeral.ofNat n)⟩⟩,
        endToken (size (Text.Numeral.ofNat n))] := by
  simpa [Lexeme.token?] using (lexed_numeral hn).tokenize_eq

theorem tokenize_negative {n : Nat} (hn : n ≤ 0x7FFFFFFFFFFFFFFF) :
    tokenize ('-' :: Text.Numeral.ofNat n) =
      .ok [⟨.punct .minus, ⟨0, 1⟩⟩,
        ⟨.int (Int64.ofNat n), ⟨1, 1 + size (Text.Numeral.ofNat n)⟩⟩,
        endToken (1 + size (Text.Numeral.ofNat n))] := by
  have hsize : Char.utf8Size '-' = 1 := rfl
  simpa [Lexeme.token?, hsize] using (lexed_negative hn).tokenize_eq

/-- A word is one fragment. -/
theorem fragments_word {text : List Char} (hne : text ≠ [])
    (hword : ∀ d ∈ text, isPlain d = true ∧ isBlank d = false) :
    fragments text = [⟨0, text⟩] := by
  have hlast := (hword _ (List.getLast_mem hne)).2
  have htext := (List.dropLast_concat_getLast hne).symm
  obtain ⟨c, cs, rfl⟩ := List.exists_cons_of_ne_nil hne
  obtain ⟨hplain, hblank⟩ := hword c List.mem_cons_self
  refine fragments_whole _ _ htext ?_ hblank hlast ?_
  · have hgo : stretches.go [] ⟨0, c :: cs, 0, 0⟩ (c :: cs ++ []) = _ :=
      go_word (fun d hd => (hword d hd).1) []
    rwa [List.append_nil] at hgo
  · rintro rfl
    cases hplain

theorem fragments_ofInt (n : Int) :
    fragments (Text.Numeral.ofInt n) = [⟨0, Text.Numeral.ofInt n⟩] := by
  have hdigits (k : Nat) : ∀ d ∈ Text.Numeral.ofNat k, isPlain d = true ∧ isBlank d = false :=
    fun d hd => by
      have hpart := isNamePart_of_isDigit (Text.Numeral.isDigit_of_mem_ofNat hd)
      exact ⟨isPlain_of_isNamePart hpart, not_isBlank_of_isNamePart hpart⟩
  cases n with
  | ofNat k => exact fragments_word (Text.Numeral.ofNat_ne_nil k) (hdigits k)
  | negSucc k =>
      exact fragments_word (List.cons_ne_nil _ _)
        (List.forall_mem_cons.mpr ⟨⟨rfl, rfl⟩, hdigits (k + 1)⟩)

end Integers

end Source
end GuardedRepl
