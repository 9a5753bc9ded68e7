/-!
# UTF-8

Sizes of texts in bytes, cuts at a number of bytes that leave every character whole, and the
decoding of bytes.  A decoder reads one character at a time; where the bytes are no character it
names the longest stretch that is the beginning of one, and at least one byte.

**Results.**
* `size_append`: the size is additive.
-/

namespace GuardedRepl
namespace Text
namespace Utf8

/-- The number of bytes of a text. -/
def size (cs : List Char) : Nat :=
  cs.foldr (fun c n => c.utf8Size + n) 0

@[simp] theorem size_nil : size [] = 0 := rfl

@[simp] theorem size_cons (c : Char) (cs : List Char) : size (c :: cs) = c.utf8Size + size cs := rfl

@[simp] theorem size_append (cs ds : List Char) : size (cs ++ ds) = size cs + size ds := by
  induction cs with
  | nil => simp
  | cons c cs ih => simp only [List.cons_append, size_cons, ih]; omega

/-- The bytes of a text. -/
def encode (cs : List Char) : List UInt8 :=
  cs.flatMap String.utf8EncodeChar

/-- The longest beginning of a text that has at most `limit` bytes. -/
def takeBytes (limit : Nat) (cs : List Char) : List Char :=
  go limit [] cs
where
  /-- Goes on with `limit` bytes left and the characters of `taken`, last one first. -/
  go (limit : Nat) (taken : List Char) : List Char → List Char
    | [] => taken.reverse
    | c :: cs =>
      if c.utf8Size ≤ limit then go (limit - c.utf8Size) (c :: taken) cs else taken.reverse

/-- The longest end of a text that has at most `limit` bytes. -/
def takeLastBytes (limit : Nat) (cs : List Char) : List Char :=
  (takeBytes limit cs.reverse).reverse

theorem size_reverse (cs : List Char) : size cs.reverse = size cs := by
  induction cs with
  | nil => rfl
  | cons c cs ih => simp only [List.reverse_cons, size_append, size_cons, size_nil, ih]; omega

/-- What the bytes begin with. -/
inductive Chunk where
  /-- A character, and the bytes after it. -/
  | char (c : Char) (rest : List UInt8)
  /-- A number of bytes that belong to no character, and the bytes after them. -/
  | invalid (length : Nat) (rest : List UInt8)
  /-- The beginning of a character that the end of the bytes cuts off. -/
  | incomplete

/-- A byte that continues a character. -/
def isTail (b : UInt8) : Bool :=
  0x80 ≤ b && b ≤ 0xBF

/-- A second byte that may follow the first byte of a character of three bytes. -/
def secondOfThree (a b : UInt8) : Bool :=
  if a = 0xE0 then 0xA0 ≤ b && b ≤ 0xBF
  else if a = 0xED then 0x80 ≤ b && b ≤ 0x9F
  else isTail b

/-- A second byte that may follow the first byte of a character of four bytes. -/
def secondOfFour (a b : UInt8) : Bool :=
  if a = 0xF0 then 0x90 ≤ b && b ≤ 0xBF
  else if a = 0xF4 then 0x80 ≤ b && b ≤ 0x8F
  else isTail b

/-- The six payload bits of a continuation byte. -/
def payload (b : UInt8) : Nat :=
  b.toNat % 0x40

/-- Reads one character at the front of the bytes `a :: bs`. -/
def next (a : UInt8) (bs : List UInt8) : Chunk :=
  if a < 0x80 then .char (Char.ofNat a.toNat) bs
  else if a < 0xC2 then .invalid 1 bs
  else if a < 0xE0 then
    match bs with
    | [] => .incomplete
    | b :: bs =>
      if isTail b then .char (Char.ofNat (a.toNat % 0x20 * 0x40 + payload b)) bs
      else .invalid 1 (b :: bs)
  else if a < 0xF0 then
    match bs with
    | [] => .incomplete
    | b :: bs =>
      if secondOfThree a b then
        match bs with
        | [] => .incomplete
        | c :: bs =>
          if isTail c then
            .char (Char.ofNat ((a.toNat % 0x10 * 0x40 + payload b) * 0x40 + payload c)) bs
          else .invalid 2 (c :: bs)
      else .invalid 1 (b :: bs)
  else if a < 0xF5 then
    match bs with
    | [] => .incomplete
    | b :: bs =>
      if secondOfFour a b then
        match bs with
        | [] => .incomplete
        | c :: bs =>
          if isTail c then
            match bs with
            | [] => .incomplete
            | d :: bs =>
              if isTail d then
                .char (Char.ofNat
                  (((a.toNat % 0x08 * 0x40 + payload b) * 0x40 + payload c) * 0x40 + payload d)) bs
              else .invalid 3 (d :: bs)
          else .invalid 2 (c :: bs)
      else .invalid 1 (b :: bs)
  else .invalid 1 bs

/-- The bytes left after the front chunk. -/
def Chunk.rest : Chunk → List UInt8
  | .char _ rest => rest
  | .invalid _ rest => rest
  | .incomplete => []

theorem length_rest_next_le (a : UInt8) (bs : List UInt8) :
    (next a bs).rest.length ≤ bs.length := by
  unfold next
  repeat' split
  all_goals (simp only [Chunk.rest, List.length_cons, List.length_nil]; omega)

/-- Where and how bytes fail to be text: the number of bytes before the fault, and the length of
the fault unless the bytes just end too early. -/
structure Fault where
  index : Nat
  length : Option Nat
deriving DecidableEq, Repr

/-- The text of the bytes, or the first fault. -/
def decode (bytes : List UInt8) : Except Fault (List Char) :=
  go 0 [] bytes
where
  /-- Goes on at offset `index` after the characters of `done`, last one first. -/
  go (index : Nat) (done : List Char) : List UInt8 → Except Fault (List Char)
    | [] => .ok done.reverse
    | a :: bs =>
      match h : next a bs with
      | .char c rest => go (index + (bs.length + 1 - rest.length)) (c :: done) rest
      | .invalid n _ => .error ⟨index, some n⟩
      | .incomplete => .error ⟨index, none⟩
  termination_by bytes => bytes.length
  decreasing_by
    have := length_rest_next_le a bs
    simp only [h, Chunk.rest] at this
    simp only [List.length_cons]
    omega

/-- The text of the bytes, with one replacement character for each stretch that is no text. -/
def decodeReplacing (bytes : List UInt8) : List Char :=
  go [] bytes
where
  /-- Goes on after the characters of `done`, last one first. -/
  go (done : List Char) : List UInt8 → List Char
    | [] => done.reverse
    | a :: bs =>
      match _h : next a bs with
      | .char c rest => go (c :: done) rest
      | .invalid _ rest => go ('\uFFFD' :: done) rest
      | .incomplete => ('\uFFFD' :: done).reverse
  termination_by bytes => bytes.length
  decreasing_by
    all_goals
      have := length_rest_next_le a bs
      simp only [_h, Chunk.rest] at this
      simp only [List.length_cons]
      omega

end Utf8
end Text
end GuardedRepl
