import GuardedRepl.Audit
import GuardedRepl.Toml.Parser
import Mathlib.Tactic

/-!
# JSON texts

A reader of JSON: every kind of value, with white space around it and all escapes of strings.  It
reads more than the audit trail writes, and so it tells nothing about the writer beyond what the
texts say.  What the trail writes is read back: strings with any characters in them, numbers, and
objects whose fields are read back.  None of these texts holds a line end.

**Results.**
* `read`: the value of a text.
* `text_escape`: escapes are undone, one character at a time.
* `reads_string`, `reads_toString`, `reads_object`: what is written is read back.
* `newline_not_mem_jsonObject`: it is written on one line.
-/

namespace GuardedRepl

/-- A JSON value.  A number is its mantissa times ten to the power of its exponent. -/
inductive Json where
  | null
  | bool (b : Bool)
  | number (mantissa exponent : Int)
  | string (s : String)
  | array (items : List Json)
  | object (fields : List (String × Json))

namespace Json

/-- A reader of what stands at the front of a text. -/
abbrev Reader (α : Type) := List Char → Option (α × List Char)

/-- How deep brackets can lie in each other. -/
def maxDepth : Nat := 128

def isBlank (c : Char) : Bool :=
  c = ' ' || c = '\t' || c = '\n' || c = '\r'

/-- Passes over white space. -/
def skip (cs : List Char) : List Char :=
  cs.dropWhile isBlank

/-! ## The reader -/

/-- The character that a letter behind a backslash stands for. -/
def ofEscapeLetter? : Char → Option Char
  | '"' => some '"'
  | '\\' => some '\\'
  | '/' => some '/'
  | 'b' => some '\x08'
  | 'f' => some '\x0c'
  | 'n' => some '\n'
  | 'r' => some '\r'
  | 't' => some '\t'
  | _ => none

/-- The number that four hexadecimal digits stand for. -/
def codeUnit? (cs : List Char) : Option Nat :=
  if cs.length < 4 then none else Toml.hexValue (cs.take 4)

/-- The character that code units stand for, and the number of characters they take up.  A character
beyond the first plane takes two of them. -/
def coded (cs : List Char) : Option (Char × Nat) := do
  let high ← codeUnit? cs
  if 0xD800 ≤ high && high < 0xDC00 then
    match cs.drop 4 with
    | '\\' :: 'u' :: cs =>
      let low ← codeUnit? cs
      if 0xDC00 ≤ low && low < 0xE000 then
        some (Char.ofNat (0x10000 + (high - 0xD800) * 0x400 + (low - 0xDC00)), 10)
      else none
    | _ => none
  else return (← Toml.character high, 4)

/-- The character that the text behind a backslash stands for, and the number of characters of the
text. -/
def unescape : List Char → Option (Char × Nat)
  | [] => none
  | c :: cs =>
    if c = 'u' then (coded cs).map fun (d, n) => (d, n + 1)
    else (ofEscapeLetter? c).map (·, 1)

/-- Reads a string after its first quote, behind the characters of `done`, last one first. -/
def text (done : List Char) : Reader String
  | [] => none
  | c :: cs =>
    if c = '"' then some (String.ofList done.reverse, cs)
    else if c = '\\' then
      match unescape cs with
      | some (d, n) => text (d :: done) (cs.drop n)
      | none => none
    else if c.toNat < 0x20 then none
    else text (c :: done) cs
termination_by cs => cs.length
decreasing_by
  all_goals simp only [List.length_drop, List.length_cons]; omega

/-- Reads the digits of a fraction, if there is one. -/
def fraction : Reader (List Char)
  | '.' :: cs =>
    let digits := cs.takeWhile Char.isDigit
    if digits = [] then none else some (digits, cs.drop digits.length)
  | cs => some ([], cs)

/-- Reads the power of ten, if there is one. -/
def power : Reader Int
  | [] => some (0, [])
  | c :: cs =>
    if c = 'e' || c = 'E' then
      let (negative, cs) := Toml.Scalar.sign cs
      let digits := cs.takeWhile Char.isDigit
      let n : Int := Nat.ofDigitChars 10 digits 0
      if digits = [] then none else some (if negative then -n else n, cs.drop digits.length)
    else some (0, c :: cs)

/-- Reads a number after its sign.  It has no superfluous zeros at the front. -/
def numeral (negative : Bool) : Reader Json := fun cs => do
  let whole := cs.takeWhile Char.isDigit
  if whole = [] || (whole.head? = some '0' && whole ≠ ['0']) then none
  let (part, rest) ← fraction (cs.drop whole.length)
  let (power, rest) ← power rest
  let n : Int := Nat.ofDigitChars 10 (whole ++ part) 0
  return (.number (if negative then -n else n) (power - part.length), rest)

/-- Reads a value without brackets. -/
def flat : Reader Json
  | '"' :: cs => (text [] cs).map fun (s, rest) => (.string s, rest)
  | '-' :: cs => numeral true cs
  | 't' :: 'r' :: 'u' :: 'e' :: cs => some (.bool true, cs)
  | 'f' :: 'a' :: 'l' :: 's' :: 'e' :: cs => some (.bool false, cs)
  | 'n' :: 'u' :: 'l' :: 'l' :: cs => some (.null, cs)
  | cs => numeral false cs

/-- Reads items with commas between them, up to `n`, and the closing bracket behind them. -/
def items {α : Type} (item : Reader α) (stop : Char) : Nat → Reader (List α)
  | 0, _ => none
  | n + 1, cs => do
    let (a, rest) ← item cs
    match skip rest with
    | [] => none
    | c :: rest =>
      if c = stop then some ([a], rest)
      else if c = ',' then (items item stop n rest).map fun (as, rest) => (a :: as, rest)
      else none

/-- Reads what stands between two brackets after the first one. -/
def listed {α : Type} (item : Reader α) (stop : Char) : Reader (List α) := fun cs =>
  match skip cs with
  | [] => none
  | c :: rest => if c = stop then some ([], rest) else items item stop (cs.length + 1) cs

/-- Reads a name with its value. -/
def field (value : Reader Json) : Reader (String × Json) := fun cs =>
  match skip cs with
  | '"' :: cs => do
    let (name, rest) ← text [] cs
    match skip rest with
    | ':' :: rest => (value rest).map fun (v, rest) => ((name, v), rest)
    | _ => none
  | _ => none

/-- Reads a value with brackets up to `depth` deep. -/
def value : (depth : Nat) → Reader Json
  | 0, cs => flat (skip cs)
  | depth + 1, cs =>
    match skip cs with
    | '[' :: cs => (listed (value depth) ']' cs).map fun (vs, rest) => (.array vs, rest)
    | '\x7b' :: cs =>
      (listed (field (value depth)) '\x7d' cs).map fun (fs, rest) => (.object fs, rest)
    | cs => flat cs

/-- The value of a text that holds one value and nothing else. -/
def read (cs : List Char) : Option Json := do
  let (v, rest) ← value maxDepth cs
  if skip rest = [] then some v else none

example : read " \x7b\"a\": [-1.50e+3, true, null], \"\\u00e9\" : \"\\uD83D\\ude00\\/\"\x7d ".toList =
    some (.object [("a", .array [.number (-150) 1, .bool true, .null]), ("é", .string "😀/")]) := by
  cbv

example : ["[1,]", "[01]", "\"\\ud83d\"", "\"\n\""].map (fun s => read s.toList) =
    [none, none, none, none] := by
  cbv

/-! ## Strings -/

/-- A letter that is written for a character is read as that character. -/
theorem ofEscapeLetter?_escapeLetter? {c l : Char} (h : Audit.escapeLetter? c = some l) :
    l ≠ 'u' ∧ ofEscapeLetter? l = some c := by
  unfold Audit.escapeLetter? at h
  split at h <;> cases h <;> exact ⟨by decide, rfl⟩

/-- A character without a letter of its own is no quote and no backslash. -/
theorem ne_of_escapeLetter? {c : Char} (h : Audit.escapeLetter? c = none) :
    c ≠ '"' ∧ c ≠ '\\' := by
  constructor <;> (rintro rfl; cases h)

/-- The code of a control character. -/
theorem coded_control {c : Char} (h : c.toNat < 0x20) (cs : List Char) :
    coded ('0' :: '0' :: Nat.digitChar (c.toNat / 16) :: Nat.digitChar (c.toNat % 16) :: cs) =
      some (c, 4) := by
  have hall : ∀ n < 0x20, Toml.hexValue ['0', '0', Nat.digitChar (n / 16), Nat.digitChar (n % 16)] =
      some n := by decide
  have hunit : codeUnit?
      ('0' :: '0' :: Nat.digitChar (c.toNat / 16) :: Nat.digitChar (c.toNat % 16) :: cs) =
        some c.toNat := by
    rw [codeUnit?, if_neg (by simp)]
    exact hall c.toNat h
  have hsurrogate : ¬(0xD800 ≤ c.toNat && c.toNat < 0xDC00) = true := by
    simp only [Bool.and_eq_true, decide_eq_true_eq]
    omega
  have hcharacter : Toml.character c.toNat = some c := by
    rw [Toml.character, if_pos (Or.inl (by omega)), Char.ofNat_toNat]
  rw [coded, hunit]
  simp only [Option.bind_eq_bind, Option.bind_some, if_neg hsurrogate, hcharacter, Option.pure_def]

/-- An escape is undone. -/
theorem text_escape (done : List Char) (c : Char) (cs : List Char) :
    text done (Audit.escape c ++ cs) = text (c :: done) cs := by
  have hbackslash {d : Char} {ds : List Char} {n : Nat} (h : unescape ds = some (d, n)) :
      text done ('\\' :: ds) = text (d :: done) (ds.drop n) := by
    rw [text, if_neg (by decide), if_pos rfl, h]
  unfold Audit.escape
  rcases hletter : Audit.escapeLetter? c with _ | l
  · obtain ⟨hquote, hslash⟩ := ne_of_escapeLetter? hletter
    by_cases hlow : c.toNat < 0x20
    · simp only [if_pos hlow, List.cons_append, List.nil_append]
      rw [hbackslash (d := c) (n := 5)]
      · rfl
      · rw [unescape, if_pos rfl, coded_control hlow]
        rfl
    · simp only [if_neg hlow, List.singleton_append]
      rw [text, if_neg hquote, if_neg hslash, if_neg hlow]
  · obtain ⟨hl, hc⟩ := ofEscapeLetter?_escapeLetter? hletter
    have hunescape : unescape (l :: cs) = some (c, 1) := by
      rw [unescape, if_neg hl, hc, Option.map_some]
    exact hbackslash hunescape

theorem text_flatMap_escape (done s rest : List Char) :
    text done (s.flatMap Audit.escape ++ '"' :: rest) =
      some (String.ofList (done.reverse ++ s), rest) := by
  induction s generalizing done with
  | nil => rw [List.flatMap_nil, List.nil_append, text, if_pos rfl, List.append_nil]
  | cons c s ih =>
      rw [List.flatMap_cons, List.append_assoc, text_escape, ih, List.reverse_cons,
        List.append_assoc]
      rfl

theorem toList_jsonString (s : String) :
    (Audit.jsonString s).toList = '"' :: (s.toList.flatMap Audit.escape ++ ['"']) := by
  rw [Audit.jsonString, String.toList_ofList]
  rfl

theorem text_jsonString (s : String) (rest : List Char) :
    text [] (s.toList.flatMap Audit.escape ++ ['"'] ++ rest) = some (s, rest) := by
  rw [List.append_assoc, List.singleton_append, text_flatMap_escape, List.reverse_nil,
    List.nil_append, String.ofList_toList]

/-! ## Values -/

/-- What stands behind a value inside an object, or behind all of the text. -/
def Closes (rest : List Char) : Prop :=
  ∀ c ∈ rest.head?, c = ',' ∨ c = '\x7d'

/-- The value is read from the front of a text that begins like this. -/
def Reads (depth : Nat) (t : String) (v : Json) : Prop :=
  ∀ rest, Closes rest → value depth (t.toList ++ rest) = some (v, rest)

theorem skip_cons {c : Char} (h : isBlank c = false) (cs : List Char) :
    skip (c :: cs) = c :: cs := by
  rw [skip, List.dropWhile_cons_of_neg (by simp [h])]

/-- Brackets aside, it makes no difference how deep they can lie. -/
theorem value_eq_flat {c : Char} (hblank : isBlank c = false) (hbracket : c ≠ '[')
    (hbrace : c ≠ '\x7b') (depth : Nat) (cs : List Char) : value depth (c :: cs) = flat (c :: cs) := by
  cases depth with
  | zero => rw [value, skip_cons hblank]
  | succ depth =>
      rw [value, skip_cons hblank]
      split
      · next h => exact absurd (List.cons.inj h).1 hbracket
      · next h => exact absurd (List.cons.inj h).1 hbrace
      · rfl

theorem reads_string (depth : Nat) (s : String) : Reads depth (Audit.jsonString s) (.string s) := by
  rintro rest -
  rw [toList_jsonString, List.cons_append, value_eq_flat (by decide) (by decide) (by decide), flat,
    text_jsonString]
  rfl

theorem Closes.takeWhile_isDigit {rest : List Char} (h : Closes rest) :
    rest.takeWhile Char.isDigit = [] := by
  cases rest with
  | nil => rfl
  | cons c rest =>
      refine List.takeWhile_cons_of_neg ?_
      rcases h c rfl with rfl | rfl <;> decide

/-- Nothing that belongs to a number stands behind it. -/
theorem Closes.fraction {rest : List Char} (h : Closes rest) :
    Json.fraction rest = some ([], rest) := by
  rw [Json.fraction]
  rintro cs rfl
  rcases h '.' rfl with hc | hc <;> cases hc

theorem Closes.power {rest : List Char} (h : Closes rest) : Json.power rest = some (0, rest) := by
  cases rest with
  | nil => rfl
  | cons c rest =>
      rw [Json.power, if_neg]
      rcases h c rfl with rfl | rfl <;> decide

/-- A numeral has no superfluous zeros at the front. -/
theorem head?_toDigits {n : Nat} (hn : 0 < n) : (Nat.toDigits 10 n).head? ≠ some '0' := by
  induction n using Nat.strongRecOn with
  | ind n ih =>
      by_cases hlt : n < 10
      · rw [Nat.toDigits_of_lt_base hlt]
        interval_cases n <;> decide
      · have hfront := ih (n / 10) (by omega) (by omega)
        rw [Nat.toDigits_of_base_le (by decide) (by omega), List.head?_append]
        rcases hhead : (Nat.toDigits 10 (n / 10)).head? with _ | c
        · exact absurd (List.head?_eq_none_iff.mp hhead) Nat.toDigits_ne_nil
        · rwa [hhead] at hfront

theorem digit_ne {c : Char} (hc : c.isDigit = true) (d : Char) (hd : d.isDigit = false) :
    c ≠ d :=
  ne_of_apply_ne Char.isDigit (by rw [hc, hd]; decide)

theorem flat_digit {c : Char} (hc : c.isDigit = true) (cs : List Char) :
    flat (c :: cs) = numeral false (c :: cs) := by
  have hne := digit_ne hc
  rw [flat]
  · exact fun _ h => hne '"' (by decide) (List.cons.inj h).1
  · exact fun _ h => hne '-' (by decide) (List.cons.inj h).1
  · exact fun _ h => hne 't' (by decide) (List.cons.inj h).1
  · exact fun _ h => hne 'f' (by decide) (List.cons.inj h).1
  · exact fun _ h => hne 'n' (by decide) (List.cons.inj h).1

theorem numeral_toDigits (n : Nat) {rest : List Char} (h : Closes rest) :
    numeral false (Nat.toDigits 10 n ++ rest) = some (.number n 0, rest) := by
  have hdigits : ∀ c ∈ Nat.toDigits 10 n, c.isDigit = true := fun c hc =>
    Nat.isDigit_of_mem_toDigits (by decide) le_rfl hc
  have hzeros : ¬(Nat.toDigits 10 n = [] ||
      ((Nat.toDigits 10 n).head? = some '0' && Nat.toDigits 10 n ≠ ['0'])) = true := by
    rcases Nat.eq_zero_or_pos n with rfl | hn
    · decide
    · simp [Nat.toDigits_ne_nil, head?_toDigits hn]
  rw [numeral]
  simp only [List.takeWhile_append_of_pos hdigits, h.takeWhile_isDigit, List.append_nil,
    if_neg hzeros, List.drop_left, h.fraction, Option.bind_eq_bind, Option.bind_some, h.power]
  rw [Nat.ofDigitChars_toDigits (by decide) le_rfl]
  rfl

theorem reads_toString (depth n : Nat) : Reads depth (toString n) (.number n 0) := by
  intro rest hrest
  have htext : (toString n).toList = Nat.toDigits 10 n := Nat.toList_repr
  obtain ⟨c, cs, hcs⟩ := List.exists_cons_of_ne_nil (Nat.toDigits_ne_nil (n := n) (b := 10))
  have hc : c.isDigit = true :=
    Nat.isDigit_of_mem_toDigits (by decide) le_rfl (hcs ▸ List.mem_cons_self)
  have hne := digit_ne hc
  rw [htext, ← numeral_toDigits n hrest, hcs, List.cons_append,
    value_eq_flat ?_ (hne '[' (by decide)) (hne '\x7b' (by decide)), flat_digit hc]
  simp [isBlank, hne ' ' (by decide), hne '\t' (by decide), hne '\n' (by decide),
    hne '\r' (by decide)]

/-! ## Objects -/

/-- A field as it stands in an object. -/
def fieldText (f : String × String) : List Char :=
  (Audit.jsonString f.1).toList ++ ':' :: f.2.toList

/-- The value of a field is read from its text. -/
def ReadsField (depth : Nat) (f : String × String) (v : String × Json) : Prop :=
  v.1 = f.1 ∧ Reads depth f.2 v.2

theorem toList_jsonObject (fields : List (String × String)) :
    (Audit.jsonObject fields).toList =
      '\x7b' :: ([','].intercalate (fields.map fieldText) ++ ['\x7d']) := by
  have hfields : (fields.map fun f => Audit.jsonString f.1 ++ ":" ++ f.2).map String.toList =
      fields.map fieldText := by
    rw [List.map_map]
    refine List.map_congr_left fun f _ => ?_
    simp [fieldText]
  rw [Audit.jsonObject, String.toList_append, String.toList_append, String.toList_intercalate]
  simp only [hfields]
  rfl

variable {depth : Nat} {f : String × String} {v : String × Json} {fs : List (String × String)}
  {vs : List (String × Json)}

theorem ReadsField.field_eq (h : ReadsField depth f v) {rest : List Char} (hrest : Closes rest) :
    field (value depth) (fieldText f ++ rest) = some (v, rest) := by
  obtain ⟨hname, hvalue⟩ := h
  rw [fieldText, toList_jsonString, List.append_assoc, List.cons_append, field,
    skip_cons (by decide)]
  simp only [text_jsonString, Option.bind_eq_bind, Option.bind_some, List.cons_append]
  rw [skip_cons (by decide)]
  simp only [hvalue rest hrest, Option.map_some, ← hname]

theorem items_fields (h : List.Forall₂ (ReadsField depth) (f :: fs) (v :: vs)) {n : Nat}
    (hn : fs.length < n) (rest : List Char) :
    items (field (value depth)) '\x7d' n
        ([','].intercalate ((f :: fs).map fieldText) ++ '\x7d' :: rest) =
      some (v :: vs, rest) := by
  induction fs generalizing f v vs n with
  | nil =>
      obtain ⟨n, rfl⟩ := Nat.exists_eq_add_one_of_ne_zero (Nat.ne_zero_of_lt hn)
      obtain ⟨hfield, hvs⟩ := List.forall₂_cons.mp h
      obtain rfl := List.forall₂_nil_left_iff.mp hvs
      have hclose : Closes ('\x7d' :: rest) := by simp [Closes]
      rw [List.map_singleton, List.intercalate_singleton, items, hfield.field_eq hclose]
      simp only [Option.bind_eq_bind, Option.bind_some]
      rw [skip_cons (by decide)]
      simp
  | cons g fs ih =>
      obtain ⟨n, rfl⟩ := Nat.exists_eq_add_one_of_ne_zero (Nat.ne_zero_of_lt hn)
      obtain ⟨hfield, hvs⟩ := List.forall₂_cons.mp h
      obtain ⟨w, ws, hfield', hvs', rfl⟩ := List.forall₂_cons_left_iff.mp hvs
      have hrest := ih (.cons hfield' hvs') (Nat.lt_of_succ_lt_succ hn)
      have hcomma (t : List Char) : Closes (',' :: t) := by simp [Closes]
      rw [List.map_cons, List.map_cons, List.intercalate_cons_cons, List.append_assoc,
        List.append_assoc, List.singleton_append, items, hfield.field_eq (hcomma _)]
      simp only [Option.bind_eq_bind, Option.bind_some]
      rw [skip_cons (by decide)]
      simp only [List.map_cons] at hrest
      simp [hrest]

/-- The first field stands at the front, and each further one takes up some of the text. -/
theorem exists_intercalate (l : List Char) (ls : List (List Char)) :
    ∃ t, [','].intercalate (l :: ls) = l ++ t ∧ ls.length ≤ t.length := by
  induction ls generalizing l with
  | nil => exact ⟨[], by simp, Nat.zero_le _⟩
  | cons l' ls ih =>
      obtain ⟨t, ht, hle⟩ := ih l'
      refine ⟨',' :: (l' ++ t), ?_, ?_⟩
      · rw [List.intercalate_cons_cons, ht, List.append_assoc]
        rfl
      · simp only [List.length_cons, List.length_append]
        omega

/-- An object is read back field by field. -/
theorem reads_object (h : List.Forall₂ (ReadsField depth) fs vs) :
    Reads (depth + 1) (Audit.jsonObject fs) (.object vs) := by
  rintro rest -
  rw [toList_jsonObject, List.cons_append, value, skip_cons (by decide)]
  simp only
  rw [List.append_assoc, List.singleton_append, listed]
  cases h with
  | nil =>
      rw [List.map_nil, List.intercalate_nil, List.nil_append, skip_cons (by decide)]
      rfl
  | @cons f v fs vs hfield hvs =>
      obtain ⟨t, ht, hle⟩ := exists_intercalate (fieldText f) (fs.map fieldText)
      have hfuel : fs.length < (fieldText f ++ t ++ '\x7d' :: rest).length + 1 := by
        rw [List.length_map] at hle
        simp only [List.length_append]
        omega
      have hitems := items_fields (.cons hfield hvs) hfuel rest
      rw [List.map_cons, ht] at hitems ⊢
      obtain ⟨cs, hcs⟩ : ∃ cs, fieldText f ++ t ++ '\x7d' :: rest = '"' :: cs := by
        rw [fieldText, toList_jsonString]
        exact ⟨_, rfl⟩
      rw [hcs] at hitems ⊢
      rw [skip_cons (by decide)]
      simp only
      rw [if_neg (by decide), hitems, Option.map_some]

/-- A text from which a value is read holds that value and nothing else. -/
theorem Reads.read_eq {t : String} {v : Json} (h : Reads maxDepth t v) :
    read t.toList = some v := by
  have hvalue := h [] (by simp [Closes])
  rw [List.append_nil] at hvalue
  rw [read, hvalue]
  rfl

/-! ## Lines -/

theorem newline_not_mem_jsonString (s : String) : '\n' ∉ (Audit.jsonString s).toList := by
  have hescape (c : Char) : '\n' ∉ Audit.escape c := by
    unfold Audit.escape
    rcases hletter : Audit.escapeLetter? c with _ | l
    · by_cases hlow : c.toNat < 0x20
      · have hdigit : ∀ d < 16, Nat.digitChar d ≠ '\n' := by decide
        simp [if_pos hlow, (hdigit (c.toNat / 16) (by omega)).symm,
          (hdigit (c.toNat % 16) (by omega)).symm]
      · simp only [if_neg hlow, List.mem_singleton]
        rintro rfl
        exact hlow (by decide)
    · have hl : ofEscapeLetter? l = some c := (ofEscapeLetter?_escapeLetter? hletter).2
      simp only [List.mem_cons, List.not_mem_nil, or_false, not_or]
      refine ⟨by decide, ?_⟩
      rintro rfl
      cases hl
  rw [toList_jsonString]
  simp [hescape]

theorem newline_not_mem_toDigits (n : Nat) : '\n' ∉ Nat.toDigits 10 n := by
  intro hmem
  have hdigit : '\n'.isDigit = true := Nat.isDigit_of_mem_toDigits (by decide) le_rfl hmem
  cases hdigit

theorem not_mem_intercalate {c : Char} (hc : c ≠ ',') {ls : List (List Char)}
    (h : ∀ l ∈ ls, c ∉ l) : c ∉ [','].intercalate ls := by
  induction ls with
  | nil => simp
  | cons l ls ih =>
      rw [List.forall_mem_cons] at h
      cases ls with
      | nil => simpa using h.1
      | cons l' ls =>
          rw [List.intercalate_cons_cons, List.mem_append, List.mem_append, List.mem_singleton,
            not_or, not_or]
          exact ⟨⟨h.1, hc⟩, ih h.2⟩

theorem newline_not_mem_jsonObject {fields : List (String × String)}
    (h : ∀ f ∈ fields, '\n' ∉ f.2.toList) : '\n' ∉ (Audit.jsonObject fields).toList := by
  have hfield : ∀ f ∈ fields, '\n' ∉ fieldText f := by
    intro f hf
    rw [fieldText, List.mem_append, List.mem_cons, not_or, not_or]
    exact ⟨newline_not_mem_jsonString f.1, by decide, h f hf⟩
  have hfields : '\n' ∉ [','].intercalate (fields.map fieldText) :=
    not_mem_intercalate (by decide) (List.forall_mem_map.mpr hfield)
  rw [toList_jsonObject]
  simp [hfields]

end Json
end GuardedRepl
