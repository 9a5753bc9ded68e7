import GuardedRepl.Proofs.Machine.Confinement
import GuardedRepl.Proofs.Text.Sizes

/-!
# Short strings

A value is short if it is no string, or a string of at most `maxStringBytes` bytes.  Sums, repeated
strings and files are measured before a string is made of them; what is cut out of a short string is
short, and numbers have few digits.

**Results.**
* `arith_short`: a sum is short, whatever is added.
* `Strings.call_short`: the methods of a short string yield short values, but for the two that
  change the case of letters.
* `readString_short`: what is read from a file is short.
-/

namespace GuardedRepl

open Library (StringMethod)

/-! ### Short values -/

/-- A value that is no string, or a string of at most `maxStringBytes` bytes. -/
def Value.Short : Value → Prop
  | .str s => s.utf8ByteSize ≤ Value.maxStringBytes
  | _ => True

namespace Value

open Text

theorem short_of_size_le {cs : List Char} (h : Utf8.size cs ≤ maxStringBytes) :
    (Value.str (String.ofList cs)).Short := by
  rw [Short, Utf8.utf8ByteSize_ofList]
  exact h

theorem short_of_length_le {cs : List Char} (h : cs.length ≤ 1000) :
    (Value.str (String.ofList cs)).Short := by
  have hfour := Utf8.size_le_four_mul cs
  exact short_of_size_le (by unfold maxStringBytes; omega)

/-- What is cut out of a short string is short. -/
theorem short_of_sublist {s : String} {cs : List Char} (hs : (Value.str s).Short)
    (h : cs.Sublist s.toList) : (Value.str (String.ofList cs)).Short := by
  have hle := Utf8.size_le_of_sublist h
  rw [Utf8.size_toList] at hle
  exact short_of_size_le (Nat.le_trans hle hs)

theorem intText_short (n : Int64) : (Value.str (intText n)).Short := by
  refine short_of_length_le ?_
  have hlow := n.le_toInt
  have hhigh := n.toInt_lt
  have hdigits {k : Nat} (hk : k < 10 ^ 20) : (Numeral.ofNat k).length ≤ 20 :=
    Numeral.length_ofNat_le hk
  cases hn : n.toInt with
  | ofNat k =>
      have hk : k < 10 ^ 20 := by
        rw [hn, Int.ofNat_eq_natCast] at hhigh
        omega
      exact Nat.le_trans (hdigits hk) (by decide)
  | negSucc k =>
      have hk : k + 1 < 10 ^ 20 := by
        rw [hn, Int.negSucc_eq] at hlow
        omega
      have hlen := hdigits hk
      simp only [Numeral.ofInt, List.length_cons]
      omega

theorem concat_short {a b : String} {v : Value} (h : concat a b = .ok v) : v.Short := by
  unfold concat at h
  split at h
  · cases h
  · cases h
    rw [Short, String.utf8ByteSize_append]
    omega

theorem int_short {x : Except Exception Int64} {v : Value} (h : x.map Value.int = .ok v) :
    v.Short := by
  cases x with
  | error e => cases h
  | ok n =>
      cases h
      trivial

/-- A sum is measured before it is built. -/
theorem arith_short {op : Syntax.ArithOp} {v w u : Value} (h : v.arith op w = .ok u) :
    u.Short := by
  unfold arith at h
  split at h
  · exact concat_short h
  · cases h
  · exact concat_short h
  · exact int_short h
  · cases h

theorem unary_ne_str {op : Syntax.UnaryOp} {v u : Value} (h : v.unary op = .ok u) (s : String) :
    u ≠ .str s := by
  unfold unary at h
  split at h <;> cases h <;> simp

namespace Strings

theorem charAt_short {s c : String} {i : Int64} (h : charAt s i = .ok c) :
    (Value.str c).Short := by
  unfold charAt at h
  simp only at h
  split at h
  · cases h
    rw [← String.ofList_toList (s := Char.toString _)]
    exact short_of_length_le (by simp)
  · cases h

theorem substring_short {s t : String} {start stop : Int64} (hs : (Value.str s).Short)
    (h : substring s start stop = .ok t) : (Value.str t).Short := by
  unfold substring at h
  simp only at h
  split at h
  · cases h
  · cases h
    exact short_of_sublist hs ((List.take_sublist _ _).trans (List.drop_sublist _ _))

theorem utf8ByteSize_join_replicate (n : Nat) (s : String) :
    (String.join (List.replicate n s)).utf8ByteSize = s.utf8ByteSize * n := by
  induction n with
  | zero => rfl
  | succ n ih =>
      rw [List.replicate_succ, String.join_cons, String.utf8ByteSize_append, ih, Nat.mul_succ,
        Nat.add_comm]

theorem replicate_short {s t : String} {n : Int64} (h : replicate s n = .ok t) :
    (Value.str t).Short := by
  unfold replicate at h
  split at h
  · cases h
  · split at h
    · cases h
    · split at h <;> cases h
      · exact Nat.zero_le _
      · rw [Short, utf8ByteSize_join_replicate]
        omega

/-- The methods of a short string yield short values, but for the two that change the case. -/
theorem call_short {s : String} {m : StringMethod} {name : String} {args : List Value} {v : Value}
    (hs : (Value.str s).Short) (hupper : m ≠ .toUpperCase) (hlower : m ≠ .toLowerCase)
    (h : call s m name args = .ok v) : v.Short := by
  unfold call at h
  split at h
  · cases h
    trivial
  · cases h
    trivial
  · exact absurd rfl hupper
  · exact absurd rfl hlower
  · cases h
    exact short_of_sublist hs (trim_sublist _)
  · obtain ⟨a, -, h⟩ := Machine.Run.ok_bind h
    cases h
    trivial
  · obtain ⟨a, -, h⟩ := Machine.Run.ok_bind h
    cases h
    trivial
  · obtain ⟨a, -, h⟩ := Machine.Run.ok_bind h
    cases h
    trivial
  · obtain ⟨a, -, h⟩ := Machine.Run.ok_bind h
    cases h
    trivial
  · obtain ⟨i, -, h⟩ := Machine.Run.ok_bind h
    obtain ⟨c, hc, h⟩ := Machine.Run.ok_bind h
    cases h
    exact charAt_short hc
  · obtain ⟨i, -, h⟩ := Machine.Run.ok_bind h
    obtain ⟨t, ht, h⟩ := Machine.Run.ok_bind h
    cases h
    exact substring_short hs ht
  · obtain ⟨i, -, h⟩ := Machine.Run.ok_bind h
    obtain ⟨j, -, h⟩ := Machine.Run.ok_bind h
    obtain ⟨t, ht, h⟩ := Machine.Run.ok_bind h
    cases h
    exact substring_short hs ht
  · obtain ⟨n, -, h⟩ := Machine.Run.ok_bind h
    obtain ⟨t, ht, h⟩ := Machine.Run.ok_bind h
    cases h
    exact replicate_short ht
  · cases h

end Strings
end Value

theorem Program.DeclaredType.default_short (type : DeclaredType) : type.default.Short := by
  unfold default
  split
  case h_2 => exact (by decide : (1 : Nat) ≤ 1048576)
  all_goals trivial

namespace Machine

/-- A file is measured before it is read. -/
theorem readString_short {files : Files.Tree} {p : Files.Path} {v : Value}
    (h : readString files p = .ok v) : v.Short := by
  unfold readString at h
  split at h
  · cases h
  · cases h
  · split at h
    · cases h
    · split at h
      · rename_i hlen _ cs hcs
        cases h
        have hsize := Text.Utf8.size_decode_le hcs
        exact Value.short_of_size_le (by omega)
      · cases h

theorem parseInt_short {s : String} {v : Value} (h : parseInt s = .ok v) : v.Short := by
  unfold parseInt at h
  split at h <;> cases h
  trivial

theorem systemProperty_short (key : String) : (systemProperty key).Short := by
  unfold systemProperty
  split
  · exact (by decide : (2 : Nat) ≤ 1048576)
  · exact (by decide : (1 : Nat) ≤ 1048576)
  · exact (by decide : (5 : Nat) ≤ 1048576)
  · trivial

theorem joinPaths_short {vs : List Value} {p : Files.Path} {v : Value}
    (h : joinPaths p vs = .ok v) : v.Short := by
  have hpath := Run.joinPaths_source h
  cases v with
  | str s => cases hpath
  | _ => trivial

end Machine
end GuardedRepl
