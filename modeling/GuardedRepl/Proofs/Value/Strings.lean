import GuardedRepl.Proofs.Machine.Assembly
import GuardedRepl.Proofs.Text.Search
import GuardedRepl.Proofs.Value.Arithmetic

/-!
# The methods of strings together

What one method of a string says, the others say as well: its length bounds the positions that the
others take, its parts put together are the string again, a character is a part of length one, and
a search finds the first position at which the rest of the string starts with what is searched.
Positions outside the string are refused.

**Results.**
* `callMethod_string`: a method is called once the host has allowed it.
* `charAt_of_inside`, `substring_of_inside`: what the positions inside the string yield.
* `found_indexOf`: a search finds the first position at which the searched string starts.
* `coherence`: how the methods of a string hang together.
-/

namespace GuardedRepl
namespace Value
namespace Strings

open Library Machine
open Text.Utf8 (encode size)

/-! ## Calls -/

section Calls

variable {s name : String} {args : List Value} {m : StringMethod}

/-- A method of a string is called once the host has allowed it. -/
theorem callMethod_string (hobject : ObjectMethod.ofName? name = none)
    (hname : StringMethod.ofName? name = some m) {h : Host} {st st' : State}
    (hcheck : Run.check (.method HostClass.string.name name) h st = (.ok (), st')) :
    callMethod (.str s) name args h st = Run.lift (call s m name args) h st' := by
  refine (Run.bind_of_ok hcheck).trans ?_
  simp only [hobject, callOwn, hname, Option.elim_some]

/-- Wherever the host allows it, the call of a method of the string yields the value and changes
nothing. -/
def Gives (s name : String) (args : List Value) (v : Value) : Prop :=
  ∀ (h : Host) (st st' : State),
    Run.check (.method HostClass.string.name name) h st = (.ok (), st') →
      callMethod (.str s) name args h st = (.ok v, st')

/-- Wherever the host allows it, the call of a method of the string throws an exception of the
class. -/
def Throws (s name : String) (args : List Value) (cls : String) : Prop :=
  ∃ e : Exception, e.thrown.cls = cls ∧ ∀ (h : Host) (st st' : State),
    Run.check (.method HostClass.string.name name) h st = (.ok (), st') →
      callMethod (.str s) name args h st = (.error (.thrown e), st')

theorem gives_of_call (hobject : ObjectMethod.ofName? name = none)
    (hname : StringMethod.ofName? name = some m) {v : Value}
    (hcall : call s m name args = .ok v) : Gives s name args v := by
  intro h st st' hcheck
  rw [callMethod_string hobject hname hcheck, hcall]
  rfl

theorem throws_of_call (hobject : ObjectMethod.ofName? name = none)
    (hname : StringMethod.ofName? name = some m) {e : Exception}
    (hcall : call s m name args = .error e) : Throws s name args e.thrown.cls := by
  refine ⟨e, rfl, fun h st st' hcheck => ?_⟩
  rw [callMethod_string hobject hname hcheck, hcall]
  rfl

end Calls

/-! ## Parts -/

/-- The characters of a string from one position up to another one. -/
def part (s : String) (a b : Nat) : String :=
  String.ofList ((s.toList.drop a).take (b - a))

theorem toList_part (s : String) (a b : Nat) :
    (part s a b).toList = (s.toList.drop a).take (b - a) :=
  String.toList_ofList

theorem length_part {s : String} {a b : Nat} (hb : b ≤ s.length) : (part s a b).length = b - a := by
  rw [← String.length_toList, toList_part, List.length_take, List.length_drop, String.length_toList]
  omega

theorem part_length (s : String) (a : Nat) :
    (part s a s.length).toList = s.toList.drop a := by
  rw [toList_part, ← String.length_toList, ← List.length_drop, List.take_length]

theorem part_append {s : String} {a b c : Nat} (hab : a ≤ b) (hbc : b ≤ c) :
    part s a b ++ part s b c = part s a c := by
  obtain ⟨m, rfl⟩ := Nat.exists_eq_add_of_le hab
  obtain ⟨n, rfl⟩ := Nat.exists_eq_add_of_le hbc
  rw [part, part, part, ← String.ofList_append, Nat.add_sub_cancel_left, Nat.add_sub_cancel_left,
    Nat.add_assoc, Nat.add_sub_cancel_left, ← List.drop_drop, List.take_add]

theorem part_zero_length (s : String) : part s 0 s.length = s := by
  rw [← String.toList_inj, part_length, List.drop_zero]

/-- The three parts of a string that is divided in two places. -/
theorem part_append_part_append_part {s : String} {a b : Nat} (hab : a ≤ b) (hb : b ≤ s.length) :
    part s 0 a ++ part s a b ++ part s b s.length = s := by
  rw [part_append (Nat.zero_le a) hab, part_append (Nat.zero_le b) hb, part_zero_length]

/-! ## Positions -/

section Positions

variable {s : String}

theorem charAt_of_inside {i : Int64} (hi : 0 ≤ i.toInt) (hlt : i.toInt < s.length) :
    ∃ c : Char, charAt s i = .ok c.toString ∧
      part s i.toInt.toNat (i.toInt.toNat + 1) = c.toString := by
  have hinside : i.toInt.toNat < s.toList.length := by
    rw [String.length_toList]
    omega
  have hneg : ¬i < 0 := by
    rw [lt_zero_iff]
    omega
  refine ⟨s.toList[i.toInt.toNat], ?_, ?_⟩
  · simp only [charAt, hneg, if_false, Int64.toNatClampNeg, List.getElem?_eq_getElem hinside]
  · rw [part, Nat.add_sub_cancel_left, List.take_one_drop_eq_of_lt_length hinside]
    rfl

theorem charAt_of_outside {i : Int64} (h : ¬(0 ≤ i.toInt ∧ i.toInt < s.length)) :
    charAt s i = .error (.indexOutOfBounds i s.length) := by
  rw [charAt]
  by_cases hneg : i < 0
  · simp only [hneg, if_true, String.length_toList]
  · have hi : ¬i.toInt < 0 := mt lt_zero_iff.mpr hneg
    have hnone : s.toList[i.toNatClampNeg]? = none := by
      rw [List.getElem?_eq_none_iff, String.length_toList, Int64.toNatClampNeg]
      omega
    simp only [hneg, if_false, hnone, String.length_toList]

variable (hs : s.length < 2 ^ 63)
include hs

theorem toInt_length : (Int64.ofNat s.length).toInt = s.length :=
  Int64.toInt_ofNat_of_lt hs

theorem substring_of_inside {i j : Int64} (hi : 0 ≤ i.toInt) (hij : i.toInt ≤ j.toInt)
    (hj : j.toInt ≤ s.length) :
    substring s i j = .ok (part s i.toInt.toNat j.toInt.toNat) := by
  have hinside : (i < 0 || Int64.ofNat s.length < j || j < i) = false := by
    simp only [Int64.lt_iff_toInt_lt, Int64.toInt_zero, toInt_length hs, Bool.or_eq_false_iff,
      decide_eq_false_iff_not]
    omega
  rw [substring, String.length_toList, hinside]
  rfl

theorem substring_of_outside {i j : Int64}
    (h : ¬(0 ≤ i.toInt ∧ i.toInt ≤ j.toInt ∧ j.toInt ≤ s.length)) :
    substring s i j = .error (.badRange i j s.length) := by
  have houtside : (i < 0 || Int64.ofNat s.length < j || j < i) = true := by
    simp only [Int64.lt_iff_toInt_lt, Int64.toInt_zero, toInt_length hs, Bool.or_eq_true,
      decide_eq_true_eq]
    omega
  rw [substring, String.length_toList, houtside]
  rfl

theorem substring_rest {i : Int64} (hi : 0 ≤ i.toInt) (hlt : i.toInt ≤ s.length) :
    substring s i (Int64.ofNat s.length) = .ok (part s i.toInt.toNat s.length) := by
  have hlength := toInt_length hs
  rw [substring_of_inside hs hi (by omega) (by omega), hlength, Int.toNat_natCast]

end Positions

/-! ## Calls with positions -/

section Methods

variable {s p : String} {i j : Int64} {e : Exception}

theorem call_substring (name : String) :
    call s .substring name [.int i, .int j] = (substring s i j).map .str := by
  show (substring s i j >>= fun p => pure (Value.str p)) = _
  cases substring s i j <;> rfl

theorem call_rest (name : String) :
    call s .substring name [.int i] = (substring s i (Int64.ofNat s.length)).map .str := by
  show (substring s i (Int64.ofNat s.length) >>= fun p => pure (Value.str p)) = _
  cases substring s i (Int64.ofNat s.length) <;> rfl

theorem call_charAt (name : String) :
    call s .charAt name [.int i] = (charAt s i).map .str := by
  show (charAt s i >>= fun p => pure (Value.str p)) = _
  cases charAt s i <;> rfl

theorem gives_substring (h : substring s i j = .ok p) :
    Gives s "substring" [.int i, .int j] (.str p) :=
  gives_of_call (by decide) (show _ = some .substring by decide) (by rw [call_substring, h]; rfl)

theorem gives_rest (h : substring s i (Int64.ofNat s.length) = .ok p) :
    Gives s "substring" [.int i] (.str p) :=
  gives_of_call (by decide) (show _ = some .substring by decide) (by rw [call_rest, h]; rfl)

theorem gives_startsWith (s t : String) :
    Gives s "startsWith" [.str t] (.bool (t.toList.isPrefixOf s.toList)) :=
  gives_of_call (by decide) (show _ = some .startsWith by decide) rfl

/-- Whether the rest of the string from a position on starts with another string. -/
def StartsAt (s t : String) (i : Int64) (b : Bool) : Prop :=
  ∃ rest, Gives s "substring" [.int i] (.str rest) ∧ Gives rest "startsWith" [.str t] (.bool b)

/-- The outcome of a search: a position, or −1, and whether the text occurs at all.  A search among
the bytes has the same outcome. -/
inductive Found (s t : String) : Int64 → Bool → Prop
  | first {k : Int64} : 0 ≤ k.toInt → k.toInt ≤ s.length → StartsAt s t k true →
      (∀ i : Int64, 0 ≤ i.toInt → i.toInt < k.toInt → StartsAt s t i false) →
      IsLeast {n | encode t.toList <+: (encode s.toList).drop n}
        (size (s.toList.take k.toInt.toNat)) →
      Found s t k true
  | nowhere : (∀ i : Int64, 0 ≤ i.toInt → i.toInt ≤ s.length → StartsAt s t i false) →
      ¬encode t.toList <:+: encode s.toList → Found s t (-1) false

variable (hs : s.length < 2 ^ 63)
include hs

theorem startsAt_of_inside (t : String) (hi : 0 ≤ i.toInt) (hlt : i.toInt ≤ s.length) :
    StartsAt s t i (t.toList.isPrefixOf (s.toList.drop i.toInt.toNat)) := by
  refine ⟨_, gives_rest (substring_rest hs hi hlt), ?_⟩
  rw [← part_length]
  exact gives_startsWith _ t

theorem startsAt_true {t : String} (hi : 0 ≤ i.toInt) (hlt : i.toInt ≤ s.length)
    (h : t.toList <+: s.toList.drop i.toInt.toNat) : StartsAt s t i true := by
  have hstarts := startsAt_of_inside hs t hi hlt
  rwa [List.isPrefixOf_iff_prefix.mpr h] at hstarts

theorem startsAt_false {t : String} (hi : 0 ≤ i.toInt) (hlt : i.toInt ≤ s.length)
    (h : ¬t.toList <+: s.toList.drop i.toInt.toNat) : StartsAt s t i false := by
  have hstarts := startsAt_of_inside hs t hi hlt
  rwa [Bool.eq_false_iff.mpr fun hyes => h (List.isPrefixOf_iff_prefix.mp hyes)] at hstarts

theorem found_of_firstAt {t : String} {k : Nat} (h : Text.FirstAt t.toList s.toList k) :
    Found s t (Int64.ofNat k) true := by
  have hle : k ≤ s.length := by
    rw [← String.length_toList]
    exact h.le_length
  have hk : (Int64.ofNat k).toInt = k := Int64.toInt_ofNat_of_lt (by omega)
  have hpos : (Int64.ofNat k).toInt.toNat = k := by rw [hk, Int.toNat_natCast]
  refine .first (by omega) (by omega) ?_ (fun i hi hlt => ?_) ?_
  · exact startsAt_true hs (by omega) (by omega) (by rw [hpos]; exact h.stands)
  · exact startsAt_false hs hi (by omega) (h.first i.toInt.toNat (by omega))
  · rw [hpos]
    exact Text.isLeast_bytes h

theorem found_of_not_infix {t : String} (h : ¬t.toList <:+: s.toList) : Found s t (-1) false := by
  refine .nowhere (fun i hi hlt => startsAt_false hs hi hlt fun hstands => ?_) ?_
  · exact h (hstands.isInfix.trans (List.drop_suffix _ _).isInfix)
  · rwa [Text.encode_infix_iff]

theorem found_indexOf (t : String) :
    Found s t (indexOf s t) (Text.contains t.toList s.toList) := by
  rw [indexOf, Text.contains]
  rcases hsearch : Text.indexOf? t.toList s.toList with _ | k
  · exact found_of_not_infix hs (Text.indexOf?_eq_none_iff.mp hsearch)
  · exact found_of_firstAt hs (Text.indexOf?_eq_some_iff.mp hsearch)

end Methods

/-- The methods of the string `s` agree with each other, and with a search for the string `t`. -/
structure Coherent (s t : String) : Prop where
  length : ∃ n : Int64, Gives s "length" [] (.int n) ∧ n.toInt = s.length
  /-- The parts of a string put together are the string. -/
  parts : ∀ i j : Int64, 0 ≤ i.toInt → i.toInt ≤ j.toInt → j.toInt ≤ s.length →
    ∃ front middle back : String, Gives s "substring" [.int 0, .int i] (.str front) ∧
      Gives s "substring" [.int i, .int j] (.str middle) ∧
      Gives s "substring" [.int j] (.str back) ∧
      front ++ middle ++ back = s ∧ (middle.length : Int) = j.toInt - i.toInt
  noPart : ∀ i j : Int64, ¬(0 ≤ i.toInt ∧ i.toInt ≤ j.toInt ∧ j.toInt ≤ s.length) →
    Throws s "substring" [.int i, .int j] Exception.index
  noRest : ∀ i : Int64, ¬(0 ≤ i.toInt ∧ i.toInt ≤ s.length) →
    Throws s "substring" [.int i] Exception.index
  /-- A character is a part of length one. -/
  character : ∀ i : Int64, 0 ≤ i.toInt → i.toInt < s.length →
    ∃ c : Char, Gives s "charAt" [.int i] (.str c.toString) ∧
      Gives s "substring" [.int i, .int (i + 1)] (.str c.toString)
  noCharacter : ∀ i : Int64, ¬(0 ≤ i.toInt ∧ i.toInt < s.length) →
    Throws s "charAt" [.int i] Exception.index
  search : ∃ (k : Int64) (found : Bool), Gives s "indexOf" [.str t] (.int k) ∧
    Gives s "contains" [.str t] (.bool found) ∧ Found s t k found

/-- **The methods of strings together.**  The length of a string is the number of its characters, as
no string has so many that an integer could not hold it.  A part is yielded exactly for two positions
in their order that do not lie beyond the length, it is as long as they are apart, and it is what
stands between what comes before and behind it; a character is yielded exactly for a position before
the length, and it is a part of length one.  Every other position is refused.  A search yields the
first position from which on the rest starts with what is searched, and −1 exactly if that does not
occur. -/
theorem coherence {s : String} (hs : s.length < 2 ^ 63) (t : String) : Coherent s t where
  length := ⟨_, gives_of_call (by decide) (show _ = some .length by decide) rfl, toInt_length hs⟩
  parts := by
    intro i j hi hij hj
    have hfront := substring_of_inside hs (i := 0) (j := i) (by decide) hi (by omega)
    have hmiddle := substring_of_inside hs hi hij hj
    have hback := substring_rest hs (i := j) (by omega) hj
    refine ⟨_, _, _, gives_substring hfront, gives_substring hmiddle, gives_rest hback, ?_, ?_⟩
    · exact part_append_part_append_part (by omega) (by omega)
    · rw [length_part (by omega)]
      omega
  noPart := by
    intro i j h
    have hcall := call_substring (s := s) (i := i) (j := j) "substring"
    rw [substring_of_outside hs h] at hcall
    exact throws_of_call (by decide) (by decide) hcall
  noRest := by
    intro i h
    have hlength := toInt_length hs
    have hcall := call_rest (s := s) (i := i) "substring"
    rw [substring_of_outside hs (by omega)] at hcall
    exact throws_of_call (by decide) (by decide) hcall
  character := by
    intro i hi hlt
    obtain ⟨c, hc, hpart⟩ := charAt_of_inside hi hlt
    have hrange : -2 ^ 63 ≤ i.toInt + (1 : Int64).toInt ∧ i.toInt + (1 : Int64).toInt < 2 ^ 63 := by
      rw [Int64.toInt_one]
      omega
    have hone : (i + 1).toInt = i.toInt + 1 := toInt_add_of_range hrange
    have hmiddle := substring_of_inside hs (i := i) (j := i + 1) hi (by omega) (by omega)
    rw [hone, Int.toNat_add hi (by decide), Int.toNat_one, hpart] at hmiddle
    refine ⟨c, ?_, gives_substring hmiddle⟩
    exact gives_of_call (by decide) (show _ = some .charAt by decide) (by rw [call_charAt, hc]; rfl)
  noCharacter := by
    intro i h
    have hcall := call_charAt (s := s) (i := i) "charAt"
    rw [charAt_of_outside h] at hcall
    exact throws_of_call (by decide) (by decide) hcall
  search := ⟨_, _, gives_of_call (by decide) (show _ = some .indexOf by decide) rfl,
    gives_of_call (by decide) (show _ = some .contains by decide) rfl, found_indexOf hs t⟩

/-- A string with characters of one byte and of three, and a search for one of the latter. -/
theorem coherence_marks :
    "a✓b✓".length < 2 ^ 63 ∧ indexOf "a✓b✓" "✓" = 1 ∧ Coherent "a✓b✓" "✓" :=
  ⟨by decide, by decide, coherence (by decide) "✓"⟩

end Strings
end Value
end GuardedRepl
