import GuardedRepl.Capture
import GuardedRepl.Proofs.Text.Utf8

/-!
# What a capture keeps

However the written bytes are cut into writes, and whichever sinks they go through, a capture keeps
the first bytes of all that was written since it was last emptied, and counts the others.  If the
written bytes are a text, what is taken out is the longest beginning of the text that fits under the
cap: the bytes of a character that the cap cuts in two are counted among the lost ones.

**Results.**
* `Holds.step`, `holds_after`: what one step keeps, and what a history of steps keeps.
* `unfinished_cut`: the scan for a character cut in two finds exactly its bytes.
* `capture_law`: the two together.
-/

namespace GuardedRepl
namespace Capture

open Text
open Text.Utf8 (encode Leads isTail isTail_iff)

/-! ## Histories -/

/-- What is done to a capture. -/
inductive Step where
  | write (k : Sink) (bytes : List UInt8)
  | drain
  | reset

/-- The capture after a step. -/
def step (c : Capture) : Step → Capture
  | .write k bytes => (c.receive k bytes).2
  | .drain => c.drain.2
  | .reset => c.reset

/-- The capture after a history of steps. -/
def after (c : Capture) (steps : List Step) : Capture :=
  steps.foldl step c

/-- A step that writes does so through this sink. -/
def Step.Through (k : Sink) : Step → Prop
  | .write j _ => j = k
  | .drain => True
  | .reset => True

/-- The bytes written since a capture was last emptied, given those before a step. -/
def Step.written (w : List UInt8) : Step → List UInt8
  | .write _ bytes => w ++ bytes
  | .drain => []
  | .reset => []

/-- The bytes written in a history since the capture was last emptied. -/
def written (steps : List Step) : List UInt8 :=
  steps.foldl Step.written []

/-- The capture has a cap and has been given these bytes since it was last emptied. -/
structure Holds (c : Capture) (cap : Nat) (w : List UInt8) : Prop where
  maxBytes : c.maxBytes = cap
  bytes : c.bytes.toList = w.take cap
  dropped : c.dropped = w.length - cap

theorem holds_empty (cap : Nat) : Holds (empty cap) cap [] :=
  ⟨rfl, by simp [empty], by simp [empty]⟩

section Steps

variable {c : Capture} {cap : Nat} {w : List UInt8}

theorem Holds.size_eq (h : Holds c cap w) : c.bytes.size = min cap w.length := by
  rw [← Array.length_toList, h.bytes, List.length_take]

theorem Holds.receive (h : Holds c cap w) (bytes : List UInt8) :
    Holds (c.receive ⟨cap⟩ bytes).2 cap (w ++ bytes) := by
  have hsize := h.size_eq
  have hdropped := h.dropped
  refine ⟨h.maxBytes, ?_, ?_⟩
  · simp only [Capture.receive, Array.toList_appendList, h.bytes, List.take_append, hsize]
    congr 2
    omega
  · simp only [Capture.receive, hsize, hdropped, List.length_append]
    omega

/-- What is lost in emptying a capture is everything but the cap. -/
theorem Holds.reset (h : Holds c cap w) : c.reset = empty cap := by
  rw [Capture.reset, h.maxBytes]

theorem Holds.step (h : Holds c cap w) {s : Step} (hsink : s.Through ⟨cap⟩) :
    Holds (c.step s) cap (s.written w) := by
  cases s with
  | write k bytes =>
      obtain rfl : k = ⟨cap⟩ := hsink
      exact h.receive bytes
  | drain =>
      rw [Capture.step, drain, h.reset]
      exact holds_empty cap
  | reset =>
      rw [Capture.step, h.reset]
      exact holds_empty cap

end Steps

/-- After any history a capture holds what was written since it was last emptied. -/
theorem holds_after {cap : Nat} {steps : List Step} (hsinks : ∀ s ∈ steps, s.Through ⟨cap⟩) :
    Holds ((empty cap).after steps) cap (written steps) := by
  have hrun : ∀ (steps : List Step) (c : Capture) (w : List UInt8), Holds c cap w →
      (∀ s ∈ steps, s.Through ⟨cap⟩) → Holds (c.after steps) cap (steps.foldl Step.written w) := by
    intro steps
    induction steps with
    | nil => exact fun c w h _ => h
    | cons s steps ih =>
        intro c w h hsinks
        exact ih _ _ (h.step (hsinks s List.mem_cons_self)) fun t ht =>
          hsinks t (List.mem_cons_of_mem _ ht)
  exact hrun steps _ _ (holds_empty cap) hsinks

/-! ## Characters cut in two -/

theorem unfinishedFrom_tails {ts more : List UInt8} {back : Nat} (hts : ∀ b ∈ ts, isTail b = true)
    (hback : back + ts.length < 4) :
    unfinishedFrom back (ts ++ more) = unfinishedFrom (back + ts.length) more := by
  induction ts generalizing back with
  | nil => rfl
  | cons b ts ih =>
      rw [List.length_cons] at hback ⊢
      obtain ⟨hge, hle⟩ := isTail_iff.mp (hts b List.mem_cons_self)
      rw [List.cons_append, unfinishedFrom, if_neg (by omega), if_pos,
        ih (fun b hb => hts b (List.mem_cons_of_mem _ hb)) (by omega)]
      · congr 1
        omega
      · simp only [UInt8.le_iff_toNat_le, UInt8.lt_iff_toNat_lt, UInt8.reduceToNat,
          Bool.and_eq_true, decide_eq_true_eq]
        omega

theorem unfinishedFrom_leads {a : UInt8} {more : List UInt8} {back n : Nat} (ha : Leads a n)
    (hback : back < 4) :
    unfinishedFrom back (a :: more) = if back < n then back + 1 else 0 := by
  have hannounced : announcedLength a = some (n + 1) := by
    unfold announcedLength
    simp only [UInt8.lt_iff_toNat_lt, UInt8.reduceToNat]
    cases ha with
    | one h => rw [if_pos h]
    | two hge hlt => rw [if_neg (by omega), if_neg (by omega), if_pos hlt]
    | three hge hlt => rw [if_neg (by omega), if_neg (by omega), if_neg (by omega), if_pos hlt]
    | four hge hlt =>
        rw [if_neg (by omega), if_neg (by omega), if_neg (by omega), if_neg (by omega), if_pos hlt]
  have hleading : ¬ (0x80 ≤ a && a < 0xC0) = true := by
    simp only [UInt8.le_iff_toNat_le, UInt8.lt_iff_toNat_lt, UInt8.reduceToNat, Bool.and_eq_true,
      decide_eq_true_eq]
    cases ha <;> omega
  rw [unfinishedFrom, if_neg (by omega), if_neg hleading, hannounced]
  simp only [Nat.add_lt_add_iff_right]

/-- The beginning of a character at the end of some bytes is found unless it is all of it. -/
theorem unfinished_append_take (c : Char) (front : List UInt8) {k : Nat} (hk : 0 < k)
    (hle : k ≤ c.utf8Size) :
    unfinished (front ++ (String.utf8EncodeChar c).take k) = if k < c.utf8Size then k else 0 := by
  obtain ⟨a, bs, hbytes, hspells⟩ := Utf8.next_encodeChar c
  have hsize : c.utf8Size = bs.length + 1 := by
    rw [← String.length_utf8EncodeChar, hbytes, List.length_cons]
  have hshort : bs.length < 4 := by
    have := c.utf8Size_le_four
    omega
  cases k with
  | zero => exact absurd hk (Nat.lt_irrefl 0)
  | succ k =>
      have hseen : (bs.take k).reverse.length = k := by
        rw [List.length_reverse, List.length_take]
        omega
      have htails : ∀ b ∈ (bs.take k).reverse, isTail b = true := fun b hb =>
        hspells.tails b (List.mem_of_mem_take (List.mem_reverse.mp hb))
      rw [unfinished, hbytes, List.take_succ_cons, List.reverse_append, List.reverse_cons,
        List.append_assoc, List.singleton_append, unfinishedFrom_tails htails (by omega), hseen,
        Nat.zero_add, unfinishedFrom_leads hspells.leads (by omega), hsize]
      simp only [Nat.add_lt_add_iff_right]

/-- Whole characters are finished. -/
theorem unfinished_encode (cs : List Char) : unfinished (encode cs) = 0 := by
  rcases List.eq_nil_or_concat cs with rfl | ⟨ds, c, rfl⟩
  · rfl
  · have hlast := unfinished_append_take c (encode ds) c.utf8Size_pos (Nat.le_refl _)
    rw [← String.length_utf8EncodeChar, List.take_length] at hlast
    simpa using hlast

/-- Where a character is cut in two, exactly its bytes are found. -/
theorem unfinished_cut (cs : List Char) (c : Char) {k : Nat} (hk : k < c.utf8Size) :
    unfinished (encode cs ++ (String.utf8EncodeChar c).take k) = k := by
  rcases Nat.eq_zero_or_pos k with rfl | hpos
  · rw [List.take_zero, List.append_nil, unfinished_encode]
  · rw [unfinished_append_take c _ hpos (Nat.le_of_lt hk), if_pos hk]

/-! ## Taking the text out -/

section Texts

variable {c : Capture} {cap : Nat} {cs : List Char}

theorem Holds.text_of_le (h : Holds c cap (encode cs)) (hle : (encode cs).length ≤ cap) :
    c.text = cs := by
  have hkept : c.dropped = 0 := by
    rw [h.dropped]
    omega
  rw [text, if_pos hkept, h.bytes, List.take_of_length_le hle, Utf8.decodeReplacing_encode]

theorem Holds.text_of_lt {p rest : List Char} {d : Char} (h : Holds c cap (encode (p ++ d :: rest)))
    (hp : Utf8.size p ≤ cap) (hd : cap < Utf8.size p + d.utf8Size) :
    c.text = p ++ lossNotice ((encode (p ++ d :: rest)).length - Utf8.size p) := by
  -- The cap falls on the character `d`, of which `k` bytes are kept.
  obtain ⟨k, rfl⟩ := Nat.exists_eq_add_of_le hp
  have hlen : (encode p).length = Utf8.size p := Utf8.length_encode p
  have hk : k < d.utf8Size := Nat.lt_of_add_lt_add_left hd
  have hkept : (encode (p ++ d :: rest)).take (Utf8.size p + k) =
      encode p ++ (String.utf8EncodeChar d).take k := by
    rw [Utf8.encode_append, Utf8.encode_cons, ← hlen, List.take_length_add_append,
      List.take_append_of_le_length (by rw [String.length_utf8EncodeChar]; omega)]
  have htotal : Utf8.size p + k < (encode (p ++ d :: rest)).length := by
    rw [Utf8.length_encode, Utf8.size_append, Utf8.size_cons]
    omega
  have hcut : ((encode p ++ (String.utf8EncodeChar d).take k).length) - k = (encode p).length := by
    rw [List.length_append, List.length_take, String.length_utf8EncodeChar]
    omega
  have hlost : c.dropped ≠ 0 := by
    rw [h.dropped]
    omega
  rw [text, if_neg hlost, h.bytes, hkept]
  simp only [unfinished_cut p d hk]
  rw [hcut, List.take_left, Utf8.decodeReplacing_encode, h.dropped,
    show (encode (p ++ d :: rest)).length - (Utf8.size p + k) + k =
      (encode (p ++ d :: rest)).length - Utf8.size p by omega]

theorem ofList_append_lossNotice (p : List Char) (n : Nat) :
    String.ofList (p ++ lossNotice n) =
      String.ofList p ++ ("\n... [output truncated: " ++ toString n ++ " bytes dropped]") := by
  rw [lossNotice, String.ofList_append, String.ofList_toList]

end Texts

/-- **What a capture keeps.**  After any history of writes through its sinks, of emptyings and of
takings-out, a capture has kept the first bytes of all bytes `w` written since it was last emptied.
Every write is reported as complete.  If these bytes are a text, it is taken out whole or up to the
longest beginning that fits under the cap, with the number of all missing bytes; and a capture that
has been emptied is a new one. -/
theorem capture_law (cap : Nat) (steps : List Step)
    (hsinks : ∀ s ∈ steps, s.Through (empty cap).sink) :
    let c := (empty cap).after steps
    let w := written steps
    (∀ k bytes, (c.receive k bytes).1 = bytes.length) ∧
      c.bytes.toList = w.take (min w.length cap) ∧
      (∀ cs, w = encode cs →
        (w.length ≤ cap → c.drain.1 = String.ofList cs) ∧
          (cap < w.length → ∃ p, p <+: cs ∧ Utf8.size p ≤ cap ∧
            (∀ q, q <+: cs → Utf8.size q ≤ cap → q <+: p) ∧
            c.drain.1 = String.ofList p ++ ("\n... [output truncated: " ++
              toString (w.length - Utf8.size p) ++ " bytes dropped]"))) ∧
      c.drain.2 = empty cap ∧ c.reset = empty cap := by
  intro c w
  have h : Holds c cap w := holds_after hsinks
  refine ⟨fun _ _ => rfl, ?_, ?_, h.reset, h.reset⟩
  · rw [h.bytes, Nat.min_comm, ← List.take_eq_take_min]
  · intro cs hw
    rw [hw] at h ⊢
    refine ⟨fun hle => congrArg String.ofList (h.text_of_le hle), fun hlt => ?_⟩
    rw [Utf8.length_encode] at hlt
    obtain ⟨p, d, rest, rfl, hp, hd⟩ := Utf8.exists_cut hlt
    refine ⟨p, List.prefix_append p _, hp, fun q => Utf8.prefix_of_size_le hd, ?_⟩
    rw [← ofList_append_lossNotice]
    exact congrArg String.ofList (h.text_of_lt hp hd)

/-- Six bytes of a text of eight, written in two pieces that meet inside a character: the cap cuts
the last character in two. -/
theorem capture_law_cut :
    let early : Step := .write (empty 6).sink (encode "lost".toList)
    let front : Step := .write (empty 6).sink ((encode "ab✓✓".toList).take 3)
    let back : Step := .write (empty 6).sink ((encode "ab✓✓".toList).drop 3)
    (∀ s ∈ [early, .drain, front, back], s.Through (empty 6).sink) ∧
      written [early, .drain, front, back] = encode "ab✓✓".toList ∧
      ∃ p, p <+: "ab✓✓".toList ∧ Utf8.size p ≤ 6 ∧
        (∀ q, q <+: "ab✓✓".toList → Utf8.size q ≤ 6 → q <+: p) ∧
        ((empty 6).after [early, .drain, front, back]).drain.1 = String.ofList p ++
          ("\n... [output truncated: " ++ toString (8 - Utf8.size p) ++ " bytes dropped]") := by
  intro early front back
  have hsinks : ∀ s ∈ [early, .drain, front, back], s.Through (empty 6).sink := by
    simp only [early, front, back, List.forall_mem_cons, Step.Through, true_and]
    exact List.forall_mem_nil _
  have hw : written [early, .drain, front, back] = encode "ab✓✓".toList := by decide
  have hlaw := ((capture_law 6 [early, .drain, front, back] hsinks).2.2.1 _ hw).2 (by decide)
  exact ⟨hsinks, hw, hlaw⟩

end Capture
end GuardedRepl
