import GuardedRepl.Proofs.Syntax.Brackets
import GuardedRepl.Proofs.Syntax.Reading

/-!
# What readers take

A reader that succeeds has taken tokens from the front.  Those of an expression leave the brackets
as they are and have no mark of an end outside them, those of a statement are cut nowhere before a
semicolon that belongs to it, and the strings of a tree are literals among the tokens taken for it.

**Results.**
* `Takes.bind`, `Takes.peek`, `TakesAt.advance`: one reader after another.
* `taken_layer`: what the readers of a layer take.
* `takes_snippet`: the tokens of a snippet.
-/

namespace GuardedRepl
namespace Syntax

open Source

variable {α β : Type}

/-! ## Strings -/

mutual

/-- The string literals of an expression. -/
@[simp] def Expr.strings : Expr α → List String
  | .str _ s => [s]
  | .int _ _ => []
  | .bool _ _ => []
  | .null _ => []
  | .name _ _ => []
  | .field _ target _ => target.strings
  | .call _ target _ args => target.strings ++ Expr.listStrings args
  | .bareCall _ _ args => Expr.listStrings args
  | .new _ _ args => Expr.listStrings args
  | .unary _ _ operand => operand.strings
  | .binary _ _ left right => left.strings ++ right.strings
  | .ternary _ cond yes no => cond.strings ++ yes.strings ++ no.strings
  | .assign _ _ _ value => value.strings
  | .step _ _ _ => []

/-- The string literals of expressions. -/
@[simp] def Expr.listStrings : List (Expr α) → List String
  | [] => []
  | e :: es => e.strings ++ Expr.listStrings es

end

/-- The string literals of an expression that may be absent. -/
def Expr.optionStrings (e : Option (Expr α)) : List String :=
  e.elim [] Expr.strings

/-- The string literals of a statement without parts that are statements. -/
def Simple.strings : Simple α → List String
  | .declare d => Expr.optionStrings d.init
  | .expr e => e.strings

/-- The string literals of a simple statement that may be absent. -/
def Simple.optionStrings (s : Option (Simple α)) : List String :=
  s.elim [] Simple.strings

mutual

/-- The string literals of a statement. -/
@[simp] def Stmt.strings : Stmt α → List String
  | .simple s => s.strings
  | .block body => Stmt.listStrings body
  | .ifThen cond yes => cond.strings ++ yes.strings
  | .ifElse cond yes no => cond.strings ++ yes.strings ++ no.strings
  | .while cond body => cond.strings ++ body.strings
  | .for init cond update body =>
    Simple.optionStrings init ++ Expr.optionStrings cond ++ Expr.optionStrings update ++
      body.strings
  | .break _ => []
  | .continue _ => []
  | .empty => []

/-- The string literals of statements. -/
@[simp] def Stmt.listStrings : List (Stmt α) → List String
  | [] => []
  | s :: ss => s.strings ++ Stmt.listStrings ss

end

/-- The string literals of a snippet. -/
def TopLevel.strings : TopLevel α → List String
  | .importing _ _ => []
  | .stmt s => s.strings

theorem Expr.strings_retag (t : α) (e : Expr α) : (e.retag t).strings = e.strings := by
  cases e <;> rfl

theorem Expr.mem_listStrings {s : String} {es : List (Expr α)} :
    s ∈ Expr.listStrings es ↔ ∃ e ∈ es, s ∈ e.strings := by
  induction es with
  | nil => simp [Expr.listStrings]
  | cons e es ih => simp [Expr.listStrings, ih]

theorem Stmt.mem_listStrings {s : String} {ss : List (Stmt α)} :
    s ∈ Stmt.listStrings ss ↔ ∃ t ∈ ss, s ∈ t.strings := by
  induction ss with
  | nil => simp [Stmt.listStrings]
  | cons t ts ih => simp [Stmt.listStrings, ih]

/-! ## Rules -/

/-- The kinds of the tokens ahead. -/
def Cursor.kinds (c : Cursor) : List TokenKind :=
  c.ahead.map Token.kind

/-- What the token ahead is. -/
def Cursor.kind (c : Cursor) : TokenKind :=
  c.kinds.headD .endOfSource

/-- A statement that needs a semicolon after it. -/
def Stmt.needsSemicolon : Stmt α → Bool
  | .simple _ | .break _ | .continue _ | .empty => true
  | _ => false

namespace Reader

/-- Whenever a reader begins at such a token and succeeds, it has taken tokens from the front, not
beyond the end of the source, and these go with its result. -/
def TakesAt (k : TokenKind) (x : Reader α) (P : α → List TokenKind → Prop) : Prop :=
  ∀ c a c', c.kind = k → x c = .ok (a, c') →
    ∃ taken, c.kinds = taken ++ c'.kinds ∧ .endOfSource ∉ taken ∧ P a taken

/-- The same wherever the reader begins. -/
def Takes (x : Reader α) (P : α → List TokenKind → Prop) : Prop :=
  ∀ k, TakesAt k x P

section Rules

variable {k : TokenKind} {p : Punct} {x : Reader α} {f : α → Reader β}
  {P Q : α → List TokenKind → Prop} {R : β → List TokenKind → Prop}

theorem TakesAt.mono (hx : TakesAt k x P) (h : ∀ a u, P a u → Q a u) : TakesAt k x Q :=
  fun c a c' hc heq => by
    obtain ⟨u, hu, hend, hP⟩ := hx c a c' hc heq
    exact ⟨u, hu, hend, h a u hP⟩

theorem Takes.mono (hx : Takes x P) (h : ∀ a u, P a u → Q a u) : Takes x Q :=
  fun k => (hx k).mono h

theorem Takes.pure {a : α} (h : P a []) : Takes (pure a) P := by
  intro k c b c' _ heq
  cases heq
  exact ⟨[], rfl, List.not_mem_nil, h⟩

theorem bind_eq_ok {c c' : Cursor} {b : β} (h : (x >>= f) c = .ok (b, c')) :
    ∃ a d, x c = .ok (a, d) ∧ f a d = .ok (b, c') := by
  change (x c >>= fun r => f r.1 r.2) = .ok (b, c') at h
  rcases hxc : x c with e | ⟨a, d⟩
  · rw [hxc] at h
    cases h
  · rw [hxc] at h
    exact ⟨a, d, rfl, h⟩

theorem TakesAt.bind (hx : TakesAt k x P)
    (hf : ∀ a u, P a u → Takes (f a) fun b v => R b (u ++ v)) : TakesAt k (x >>= f) R := by
  intro c b c' hc heq
  obtain ⟨a, d, hxc, hfd⟩ := bind_eq_ok heq
  obtain ⟨u, hu, hend, hP⟩ := hx c a d hc hxc
  obtain ⟨v, hv, hend', hR⟩ := hf a u hP _ d b c' rfl hfd
  exact ⟨u ++ v, by rw [hu, hv, List.append_assoc], by simp [hend, hend'], hR⟩

theorem Takes.bind (hx : Takes x P)
    (hf : ∀ a u, P a u → Takes (f a) fun b v => R b (u ++ v)) : Takes (x >>= f) R :=
  fun k => (hx k).bind hf

theorem Takes.map {g : α → β} (hx : Takes x fun a u => R (g a) u) : Takes (g <$> x) R := by
  rw [map_eq_pure_bind]
  exact hx.bind fun a u ha => .pure (by rwa [List.append_nil])

theorem takes_failAt {s : Span} {cause : Cause} : Takes (failAt s cause) P := by
  intro k c a c' _ heq
  cases heq

/-- Looking at the state takes nothing. -/
theorem TakesAt.get {f : Cursor → Reader β} (hf : ∀ c, TakesAt k (f c) R) :
    TakesAt k (get >>= f) R :=
  fun c b c' hc heq => hf c c b c' hc heq

theorem kind_headD (c : Cursor) :
    (c.ahead.headD ⟨.endOfSource, c.behind⟩).kind = c.kind := by
  rw [Cursor.kind, Cursor.kinds]
  cases c.ahead <;> rfl

theorem Takes.get {f : Cursor → Reader β} (hf : ∀ c, Takes (f c) R) : Takes (get >>= f) R :=
  fun k => .get fun c => hf c k

theorem Takes.remaining {f : Nat → Reader β} (hf : ∀ n, Takes (f n) R) :
    Takes (remaining >>= f) R :=
  .get fun c => hf c.ahead.length

theorem peek_eq (c : Cursor) : peek c = .ok (c.kind, c) := by
  rw [← kind_headD]
  rfl

theorem peek_eq_ok {c c' : Cursor} (h : peek c = .ok (k, c')) : k = c.kind ∧ c' = c := by
  rw [peek_eq] at h
  cases h
  exact ⟨rfl, rfl⟩

theorem TakesAt.next {f : Token → Reader β} (hf : ∀ t, t.kind = k → TakesAt k (f t) R) :
    TakesAt k (next >>= f) R :=
  fun c b c' hc heq => hf _ ((kind_headD c).trans hc) c b c' hc heq

theorem Takes.next {f : Token → Reader β} (hf : ∀ t, TakesAt t.kind (f t) R) :
    Takes (next >>= f) R := by
  intro k
  refine .next fun t ht => ?_
  rw [← ht]
  exact hf t

theorem takes_fail {cause : Cause} : Takes (fail cause) P :=
  .next fun _ => takes_failAt _

theorem TakesAt.peek {f : TokenKind → Reader β} (hf : TakesAt k (f k) R) :
    TakesAt k (peek >>= f) R := by
  intro c b c' hc heq
  refine hf c b c' hc ?_
  rw [← hc, ← kind_headD]
  exact heq

theorem Takes.peek {f : TokenKind → Reader β} (hf : ∀ k, TakesAt k (f k) R) :
    Takes (peek >>= f) R :=
  fun k => .peek (hf k)

theorem Takes.sees {f : Bool → Reader β} (hyes : TakesAt (.punct p) (f true) R)
    (hno : Takes (f false) R) : Takes (sees p >>= f) R := by
  rw [Reader.sees, bind_assoc]
  refine .peek fun k => ?_
  rw [pure_bind]
  by_cases hk : k = .punct p
  · subst hk
    rwa [decide_eq_true rfl]
  · rw [decide_eq_false hk]
    exact hno k

/-- A token other than the end of the source is taken. -/
theorem TakesAt.advance {f : Token → Reader β} (hk : k ≠ .endOfSource)
    (hf : ∀ t, Takes (f t) fun b v => R b (k :: v)) : TakesAt k (advance >>= f) R := by
  rintro ⟨ahead, behind⟩ b c' hc heq
  cases ahead with
  | nil => exact absurd hc.symm hk
  | cons t rest =>
      obtain rfl : t.kind = k := hc
      obtain ⟨v, hv, hend, hR⟩ := hf t _ ⟨rest, t.span⟩ b c' rfl heq
      exact ⟨t.kind :: v, congrArg (List.cons t.kind) hv, by simp [hend, hk.symm], hR⟩

theorem Takes.eat {f : Bool → Reader β} (hyes : Takes (f true) fun b v => R b (.punct p :: v))
    (hno : Takes (f false) R) : Takes (eat p >>= f) R := by
  rw [Reader.eat, bind_assoc]
  refine .sees ?_ hno
  rw [if_pos rfl, bind_assoc]
  exact .advance (by simp) fun _ => hyes

theorem Takes.expect {f : Span → Reader β}
    (hf : ∀ s, Takes (f s) fun b v => R b (.punct p :: v)) : Takes (expect p >>= f) R := by
  rw [Reader.expect, bind_assoc]
  refine .sees ?_ ?_
  · rw [if_pos rfl, bind_assoc]
    exact .advance (by simp) fun t => hf t.span
  · rw [if_neg (by simp)]
    exact takes_fail.bind (P := fun _ _ => False) fun _ _ h => h.elim

theorem Takes.ident {f : Ident Span → Reader β}
    (hf : ∀ i, Takes (f i) fun b v => R b (.ident i.name :: v)) : Takes (ident >>= f) R := by
  rw [Reader.ident, bind_assoc]
  refine .next fun t => ?_
  split
  · next name hname =>
      rw [hname, bind_assoc]
      exact .advance (by simp) fun _ => hf ⟨name, t.span⟩
  · exact (takes_fail _).bind (P := fun _ _ => False) fun _ _ h => h.elim

end Rules

/-! ## Expressions -/

/-- The tokens fit in outside brackets, and the strings are among `held` or literals of theirs. -/
structure Phrase (held strings : List String) (u : List TokenKind) : Prop where
  fits : Fits 0 u
  strings : ∀ s ∈ strings, s ∈ held ∨ .str s ∈ u

/-- The tokens of a whole expression. -/
structure Clause (e : Expr Span) (u : List TokenKind) : Prop extends Phrase [] e.strings u where
  nonempty : u ≠ []

/-- The tokens of a statement without the semicolon after it, and its strings are literals of
theirs. -/
structure Sentence (s : Stmt Span) (u : List TokenKind) : Prop where
  whole : Whole u
  strings : ∀ x ∈ s.strings, .str x ∈ u
  flat : s.needsSemicolon = true → Fits 0 u
  empty : u = [] → s = .empty

/-- What the readers of a layer take.  A chain and a member go on behind an expression that was read
before. -/
structure Taken (l : Layer) : Prop where
  statement : Takes l.statement Sentence
  expr : Takes l.expr Clause
  branches : Takes l.branches fun r => Phrase [] (r.1.strings ++ r.2.strings)
  operand : Takes l.operand Clause
  chain (rank : Nat) (left : Expr Span) :
    Takes (l.chain rank left) fun e => Phrase left.strings e.strings
  member (target : Expr Span) : Takes (l.member target) fun e => Phrase target.strings e.strings

theorem taken_closed : Taken .closed where
  statement := takes_fail
  expr := takes_fail
  branches := takes_fail
  operand := takes_fail
  chain _ _ := takes_fail
  member _ := takes_fail

theorem takes_dottedTail (star : Bool) (n : Nat) (done : List (Ident Span)) :
    Takes (dottedTail star n done) fun _ u => Fits 0 u := by
  induction n generalizing done with
  | zero => exact .pure .nil
  | succ n ih =>
      have hdot : IsPlain (.punct .dot) := isPlain_punct (by decide)
      have hmore : Takes (ident >>= fun i => dottedTail star n (i :: done))
          fun _ u => Fits 0 (.punct .dot :: u) :=
        .ident fun i => (ih _).mono fun _ u hu => .cons hdot (.cons isPlain_ident hu)
      rw [dottedTail]
      refine .eat ?_ (.pure .nil)
      rw [if_pos rfl]
      refine .sees ?_ ?_
      · split_ifs
        · exact .advance (by simp) fun _ => .pure
            (.cons hdot (.plain (isPlain_punct (by decide))))
        · exact hmore _
      · rw [Bool.and_false, if_neg (by simp)]
        exact hmore

theorem takes_dotted : Takes dotted fun _ u => Fits 0 u := by
  unfold dotted
  exact .ident fun i => .remaining fun n => (takes_dottedTail _ _ _).bind fun r u hu =>
    .pure (.cons isPlain_ident (hu.append .nil))

section Layers

variable {inner : Layer}

theorem Taken.argumentTail (h : Taken inner) (n : Nat) (done : List (Expr Span)) :
    Takes (argumentTail inner n done) fun es u => ∃ v, u = v ++ [.punct .closeParen] ∧ Fits 0 v ∧
      ∀ s ∈ Expr.listStrings es, s ∈ Expr.listStrings done ∨ .str s ∈ v := by
  induction n generalizing done with
  | zero => exact takes_fail
  | succ n ih =>
      rw [Reader.argumentTail]
      refine h.expr.bind fun e u hu => .eat ?_ (.expect fun _ => ?_)
      · rw [if_pos rfl]
        refine .pure ⟨u, rfl, hu.fits, fun s hs => ?_⟩
        have hstrings := hu.strings s
        simp only [Expr.mem_listStrings, List.mem_reverse, List.exists_mem_cons_iff] at hs ⊢
        grind
      · refine (ih (e :: done)).mono fun es w hw => ?_
        obtain ⟨v, rfl, hv, hstrings⟩ := hw
        refine ⟨u ++ .punct .comma :: v, by simp,
          hu.fits.append (.cons (isPlain_punct (by decide)) hv), fun s hs => ?_⟩
        have hfirst := hu.strings s
        have hrest := hstrings s hs
        simp only [Expr.listStrings] at hrest
        grind

theorem Taken.arguments (h : Taken inner) :
    Takes (arguments inner) fun es => Phrase [] (Expr.listStrings es) := by
  unfold Reader.arguments
  refine .expect fun _ => .eat ?_ ?_
  · rw [if_pos rfl]
    exact .pure ⟨Fits.nil.parens, by simp [Expr.listStrings]⟩
  · rw [if_neg (by simp)]
    refine .remaining fun n => (h.argumentTail n []).mono fun es u hu => ?_
    obtain ⟨v, rfl, hv, hstrings⟩ := hu
    refine ⟨(hv.mono (Nat.zero_le 1)).parens, fun s hs => ?_⟩
    have := hstrings s hs
    simp only [Expr.listStrings] at this
    grind

theorem Taken.construction (h : Taken inner) (start : Span) :
    TakesAt (.keyword .newWord) (construction inner start) Clause := by
  unfold Reader.construction
  refine .advance (by simp) fun _ => takes_dotted.bind fun cls u hu => ?_
  refine h.arguments.bind fun args v hv => .get fun c => .pure ⟨⟨?_, ?_⟩, by simp⟩
  · exact .cons isPlain_keyword (hu.append (hv.fits.append .nil))
  · have := hv.strings
    simp only [Expr.strings]
    grind

theorem Taken.named (h : Taken inner) : Takes (named inner) Clause := by
  unfold Reader.named
  refine .ident fun i => .sees ?_ ?_
  · rw [if_pos rfl]
    refine (h.arguments _).bind fun args u hu => .get fun c => .pure ⟨⟨?_, ?_⟩, by simp⟩
    · exact .cons isPlain_ident (hu.fits.append .nil)
    · have := hu.strings
      simp only [Expr.strings]
      grind
  · rw [if_neg (by simp)]
    exact .pure ⟨⟨.plain isPlain_ident, by simp [Expr.strings]⟩, by simp⟩

theorem Taken.bracketed (h : Taken inner) (start : Span) :
    TakesAt (.punct .openParen) (bracketed inner start) Clause := by
  unfold Reader.bracketed
  refine .advance (by simp) fun _ => h.expr.bind fun e u hu => .expect fun stop =>
    .pure ⟨⟨?_, ?_⟩, by simp⟩
  · exact (hu.fits.mono (Nat.zero_le 1)).parens
  · have := hu.strings
    rw [Expr.strings_retag]
    grind

theorem Taken.primary (h : Taken inner) : Takes (primary inner) Clause := by
  have hleaf {e : Expr Span} {k : TokenKind} (hk : IsPlain k)
      (hstrings : ∀ s ∈ e.strings, .str s = k) : Clause e [k] :=
    ⟨⟨.plain hk, fun s hs => Or.inr (hstrings s hs ▸ List.mem_singleton_self _)⟩, by simp⟩
  unfold Reader.primary
  refine .next fun t => ?_
  generalize hkind : t.kind = k
  split
  case h_1 => exact .advance (by simp) fun _ => .pure (hleaf isPlain_int (by simp [Expr.strings]))
  case h_2 => exact .advance (by simp) fun _ => .pure (hleaf isPlain_str (by simp [Expr.strings]))
  case h_3 =>
    exact .advance (by simp) fun _ => .pure (hleaf isPlain_keyword (by simp [Expr.strings]))
  case h_4 =>
    exact .advance (by simp) fun _ => .pure (hleaf isPlain_keyword (by simp [Expr.strings]))
  case h_5 =>
    exact .advance (by simp) fun _ => .pure (hleaf isPlain_keyword (by simp [Expr.strings]))
  case h_6 => exact h.construction _
  case h_7 => exact takes_fail _
  case h_8 => exact h.bracketed _
  case h_9 => exact takes_fail _
  case h_10 => exact h.named _
  case h_11 => exact takes_fail _

/-- The check of what is assigned to takes nothing. -/
theorem takesAt_assignable {R : β → List TokenKind → Prop} {k : TokenKind} {e : Expr Span}
    {f : Ident Span → Reader β} (hf : ∀ v, TakesAt k (f v) R) :
    TakesAt k (assignable e >>= f) R := by
  unfold assignable
  split
  · split
    · exact hf _
    · exact (takes_failAt _).bind (P := fun _ _ => False) fun _ _ h => h.elim
  · exact (takes_failAt _).bind (P := fun _ _ => False) fun _ _ h => h.elim

theorem takes_counted (e : Expr Span) :
    Takes (counted e) fun e' => Phrase e.strings e'.strings := by
  unfold counted
  refine .peek fun k => ?_
  split
  · exact takesAt_assignable fun v => .advance (by simp) fun t =>
      .pure ⟨.plain (isPlain_punct (by decide)), by simp [Expr.strings]⟩
  · exact takesAt_assignable fun v => .advance (by simp) fun t =>
      .pure ⟨.plain (isPlain_punct (by decide)), by simp [Expr.strings]⟩
  · exact Takes.pure ⟨.nil, fun s hs => Or.inl hs⟩ _

theorem Taken.suffixes (h : Taken inner) (e : Expr Span) :
    Takes (suffixes inner e) fun e' => Phrase e.strings e'.strings := by
  unfold Reader.suffixes
  refine (takes_counted e).bind fun e₁ u₁ h₁ => (takes_counted e₁).bind fun e₂ u₂ h₂ => ?_
  have hfirst := h₁.strings
  have hsecond := h₂.strings
  refine .eat ?_ ?_
  · rw [if_pos rfl]
    refine (h.member e₂).mono fun e' u hu => ⟨?_, ?_⟩
    · exact h₁.fits.append (h₂.fits.append (.cons (isPlain_punct (by decide)) hu.fits))
    · have hmember := hu.strings
      grind
  · rw [if_neg (by simp)]
    refine .pure ⟨h₁.fits.append (h₂.fits.append .nil), ?_⟩
    grind

theorem Taken.around_member (h : Taken inner) (target : Expr Span) :
    Takes (Reader.member inner target) fun e => Phrase target.strings e.strings := by
  unfold Reader.member
  refine .ident fun m => .sees ?_ ?_
  · rw [if_pos rfl]
    refine (h.arguments _).bind fun args u hu => .get fun c => ?_
    refine (h.suffixes _).mono fun e v hv => ⟨.cons isPlain_ident (hu.fits.append hv.fits), ?_⟩
    have hargs := hu.strings
    have hmember := hv.strings
    simp only [Expr.strings] at hmember
    grind
  · rw [if_neg (by simp)]
    refine (h.suffixes _).mono fun e v hv => ⟨.cons isPlain_ident hv.fits, fun s hs => ?_⟩
    have hmember := hv.strings s hs
    cases target <;> simp_all [Expr.strings]

theorem Taken.unary (h : Taken inner) : Takes (unary inner) Clause := by
  have hprefix {p : Punct} (hp : p ∉ bracketMarks) {e e' : Expr Span} {u : List TokenKind}
      (hu : Clause e u) (hstrings : e'.strings = e.strings) : Clause e' (.punct p :: u) :=
    ⟨⟨.cons (isPlain_punct hp) hu.fits, fun s hs => (hu.strings s (hstrings ▸ hs)).imp_right
      (List.mem_cons_of_mem _)⟩, by simp⟩
  unfold Reader.unary
  refine .next fun t => ?_
  generalize hkind : t.kind = k
  split
  case h_1 =>
    refine .advance (by simp) fun _ => h.operand.bind fun e u hu => .pure ?_
    rw [List.append_nil]
    exact hprefix (by decide) hu rfl
  case h_2 =>
    refine .advance (by simp) fun _ => h.operand.bind fun e u hu => .pure ?_
    rw [List.append_nil]
    exact hprefix (by decide) hu rfl
  case h_3 =>
    exact .advance (by simp) fun _ => h.operand.mono fun e u hu => hprefix (by decide) hu rfl
  case h_4 =>
    refine (h.primary _).bind fun e u hu => (h.suffixes e).mono fun e' v hv => ?_
    have hfirst := hu.strings
    have hmore := hv.strings
    exact ⟨⟨hu.fits.append hv.fits, by grind⟩, by simp [hu.nonempty]⟩

/-- The operator ahead is an operator token. -/
theorem Takes.operator? {R : β → List TokenKind → Prop} {rank : Nat}
    {f : Option BinaryOp → Reader β}
    (hsome : ∀ op p, p ∉ bracketMarks → TakesAt (.punct p) (f (some op)) R)
    (hnone : Takes (f none) R) : Takes (operator? rank >>= f) R := by
  rw [Reader.operator?, bind_assoc]
  refine .peek fun k => ?_
  rw [pure_bind]
  split
  · next p =>
      cases hop : BinaryOp.ofPunct? p with
      | none => exact hnone _
      | some op =>
          have hp : p ∉ bracketMarks := fun hmark => by
            cases p <;> first | exact absurd hmark (by decide) | cases hop
          rw [Option.filter_some]
          split
          · exact hsome op p hp
          · exact hnone _
  · exact hnone _

theorem Taken.binary (h : Taken inner) (ranks : Nat) :
    Takes (binary inner ranks) Clause := by
  induction ranks with
  | zero => simpa [Reader.binary] using h.unary
  | succ rank ih =>
      unfold Reader.binary
      refine ih.bind fun left u hu => ?_
      have hleft := hu.strings
      have hchain : Takes (inner.chain rank left) fun e v => Clause e (u ++ v) :=
        (h.chain rank left).mono fun e v hv => ⟨⟨hu.fits.append hv.fits, by
          have := hv.strings
          grind⟩, by simp [hu.nonempty]⟩
      refine .operator? (fun op p hp => hchain _) (.pure ?_)
      rwa [List.append_nil]

theorem Taken.around_chain (h : Taken inner) (rank : Nat) (left : Expr Span) :
    Takes (Reader.chain inner rank left) fun e => Phrase left.strings e.strings := by
  unfold Reader.chain
  refine .operator? (fun op p hp => ?_) (.pure ⟨.nil, fun s hs => Or.inl hs⟩)
  refine .advance (by simp) fun _ => (h.binary rank).bind fun right u hu => ?_
  have hright := hu.strings
  have hfits : Fits 0 (.punct p :: u) := .cons (isPlain_punct hp) hu.fits
  refine .operator? (fun op' p' hp' => ?_) ?_
  · refine (h.chain rank _).mono (fun e v hv => ⟨hfits.append hv.fits, ?_⟩) _
    have hmore := hv.strings
    simp only [Expr.strings] at hmore
    grind
  · refine .pure ⟨hfits.append .nil, ?_⟩
    simp only [Expr.strings]
    grind

theorem Taken.ternary (h : Taken inner) :
    Takes (ternary inner) Clause := by
  unfold Reader.ternary
  refine (h.binary _).bind fun cond u hu => .eat ?_ ?_
  · rw [if_pos rfl]
    refine h.branches.bind fun r v hv => .pure ⟨⟨?_, ?_⟩, by simp⟩
    · exact hu.fits.append (.cons (isPlain_punct (by decide)) (hv.fits.append .nil))
    · have hcond := hu.strings
      have hbranches := hv.strings
      simp only [Expr.strings]
      grind
  · rw [if_neg (by simp)]
    refine .pure ?_
    rwa [List.append_nil]

theorem Taken.around_branches (h : Taken inner) :
    Takes (Reader.branches inner) fun r => Phrase [] (r.1.strings ++ r.2.strings) := by
  unfold Reader.branches
  refine h.ternary.bind fun yes u hu => .expect fun _ => ?_
  refine h.ternary.bind fun no v hv => .pure ⟨?_, ?_⟩
  · exact hu.fits.append (.cons (isPlain_punct (by decide)) (hv.fits.append .nil))
  · have hyes := hu.strings
    have hno := hv.strings
    grind

theorem assignment?_eq_some {k : TokenKind} {op : Option ArithOp} (h : assignment? k = some op) :
    IsPlain k ∧ k ≠ .endOfSource := by
  unfold assignment? at h
  split at h
  all_goals first | exact ⟨isPlain_punct (by decide), by simp⟩ | cases h

theorem Taken.around_expr (h : Taken inner) :
    Takes (Reader.expr inner) Clause := by
  unfold Reader.expr
  refine h.ternary.bind fun left u hu => .peek fun k => ?_
  split
  · refine Takes.pure ?_ _
    rwa [List.append_nil]
  · next op hop =>
      obtain ⟨hplain, hend⟩ := assignment?_eq_some hop
      refine takesAt_assignable fun v => .advance hend fun _ => ?_
      refine h.expr.bind fun value w hw => .pure ⟨⟨?_, ?_⟩, by simp⟩
      · exact hu.fits.append (.cons hplain (hw.fits.append .nil))
      · have hvalue := hw.strings
        simp only [Expr.strings]
        grind

/-! ## Statements -/

theorem Taken.declaration (h : Taken inner) :
    Takes (declaration inner) fun d u => Phrase [] (Expr.optionStrings d.init) u ∧ u ≠ [] := by
  unfold Reader.declaration
  refine takes_dotted.bind fun path u hu => .ident fun name => .eat ?_ ?_
  · rw [if_pos rfl]
    refine h.expr.bind fun e v hv => .pure ⟨⟨?_, ?_⟩, by simp⟩
    · exact hu.append (.cons isPlain_ident (.cons (isPlain_punct (by decide))
        (hv.fits.append .nil)))
    · have hinit := hv.strings
      simp only [Expr.optionStrings, Option.elim_some]
      grind
  · rw [if_neg (by simp)]
    split
    · exact takes_failAt
    · exact .pure ⟨⟨hu.append (.plain isPlain_ident), by simp [Expr.optionStrings]⟩, by simp⟩

theorem Taken.simple (h : Taken inner) :
    Takes (simple inner) fun s u => Phrase [] s.strings u ∧ u ≠ [] := by
  unfold Reader.simple
  refine .get fun c => ?_
  split
  · exact h.declaration.bind fun d u hu => .pure (by rwa [List.append_nil])
  · exact h.expr.bind fun e u hu => .pure (by
      rw [List.append_nil]
      exact ⟨hu.toPhrase, hu.nonempty⟩)

theorem Taken.nested (h : Taken inner) : Takes (nested inner) fun s u =>
    Whole u ∧ (∀ x ∈ s.strings, .str x ∈ u) ∧ u ≠ [] := by
  unfold Reader.nested
  refine h.statement.bind fun s u hu => ?_
  have hclosed (hs : s ≠ .empty) : Takes (pure s : Reader (Stmt Span)) fun s v =>
      Whole (u ++ v) ∧ (∀ x ∈ s.strings, .str x ∈ u ++ v) ∧ u ++ v ≠ [] := by
    refine .pure ?_
    rw [List.append_nil]
    exact ⟨hu.whole, hu.strings, fun hnil => hs (hu.empty hnil)⟩
  have hsemicolon (hs : s.needsSemicolon = true) : Takes (pure s : Reader (Stmt Span)) fun s v =>
      Whole (u ++ .punct .semicolon :: v) ∧
        (∀ x ∈ s.strings, .str x ∈ u ++ .punct .semicolon :: v) ∧
        u ++ .punct .semicolon :: v ≠ [] :=
    .pure ⟨.semicolon (hu.flat hs), fun x hx => List.mem_append_left _ (hu.strings x hx), by simp⟩
  split
  any_goals exact hclosed (by simp)
  · exact .expect fun _ => hsemicolon rfl
  all_goals
    refine .eat (hsemicolon rfl) (.peek fun k => ?_)
    split
    any_goals exact hclosed (by simp) _
    exact takes_fail _

theorem Taken.blockTail (h : Taken inner) (n : Nat) (done : List (Stmt Span)) :
    Takes (blockTail inner n done) fun ss u => ∃ v, u = v ++ [.punct .closeBrace] ∧ Fits 1 v ∧
      ∀ x ∈ Stmt.listStrings ss, x ∈ Stmt.listStrings done ∨ .str x ∈ v := by
  induction n generalizing done with
  | zero => exact takes_fail
  | succ n ih =>
      rw [Reader.blockTail]
      refine .peek fun k => ?_
      split
      · refine .advance (by simp) fun _ => .pure ⟨[], rfl, .nil, fun x hx => Or.inl ?_⟩
        simpa only [Stmt.mem_listStrings, List.mem_reverse] using hx
      · exact takes_fail _
      · refine (h.nested _).bind fun s u hu => (ih (s :: done)).mono fun ss w hw => ?_
        obtain ⟨v, rfl, hv, hstrings⟩ := hw
        refine ⟨u ++ v, (List.append_assoc ..).symm, hu.1.fits.append hv, fun x hx => ?_⟩
        have hfirst := hu.2.1 x
        have hrest := hstrings x hx
        simp only [Stmt.listStrings] at hrest
        grind

theorem Taken.block (h : Taken inner) :
    TakesAt (.punct .openBrace) (block inner) Sentence := by
  unfold Reader.block
  refine .advance (by simp) fun _ => .remaining fun n => ?_
  refine (h.blockTail n []).bind fun body u hu => .pure ?_
  obtain ⟨v, rfl, hv, hstrings⟩ := hu
  rw [List.append_nil]
  refine ⟨.braces hv, fun x hx => ?_, by simp [Stmt.needsSemicolon], by simp⟩
  have := hstrings x hx
  simp only [Stmt.listStrings] at this
  grind

theorem Taken.condition (h : Taken inner) :
    Takes (condition inner) fun e => Phrase [] e.strings := by
  unfold Reader.condition
  refine .expect fun _ => h.expr.bind fun e u hu => .expect fun _ => .pure ⟨?_, ?_⟩
  · exact (hu.fits.mono (Nat.zero_le 1)).parens
  · have := hu.strings
    grind

theorem Taken.choice (h : Taken inner) :
    TakesAt (.keyword .ifWord) (choice inner) Sentence := by
  unfold Reader.choice
  refine .advance (by simp) fun _ => h.condition.bind fun cond u hu => ?_
  refine h.nested.bind fun yes v hv => ?_
  have hcond := hu.strings
  have hyes := hv.2.1
  have hhead : Fits 0 (.keyword .ifWord :: u) := .cons isPlain_keyword hu.fits
  refine .peek fun k => ?_
  split
  · next hk =>
      rw [hk]
      refine .advance (by simp) fun _ => h.nested.bind fun no w hw => .pure ⟨?_, ?_, ?_, by simp⟩
      · rw [List.append_nil]
        exact .branch hhead (.choice hv.1 hw.1)
      · have hno := hw.2.1
        simp only [Stmt.strings]
        grind
      · simp [Stmt.needsSemicolon]
  · refine Takes.pure ⟨?_, ?_, ?_, by simp⟩ _
    · rw [List.append_nil]
      exact .branch hhead hv.1
    · simp only [Stmt.strings]
      grind
    · simp [Stmt.needsSemicolon]

theorem Taken.whileLoop (h : Taken inner) :
    TakesAt (.keyword .whileWord) (whileLoop inner) Sentence := by
  unfold Reader.whileLoop
  refine .advance (by simp) fun _ => h.condition.bind fun cond u hu =>
    h.nested.bind fun body v hv => .pure ⟨?_, ?_, ?_, by simp⟩
  · rw [List.append_nil]
    exact .branch (.cons isPlain_keyword hu.fits) hv.1
  · have hcond := hu.strings
    have hbody := hv.2.1
    simp only [Stmt.strings]
    grind
  · simp [Stmt.needsSemicolon]

theorem Taken.optional (h : Taken inner) (stop : Punct) :
    Takes (optional inner stop) fun e => Phrase [] (Expr.optionStrings e) := by
  unfold Reader.optional
  refine .sees ?_ ?_
  · rw [if_pos rfl]
    exact Takes.pure ⟨.nil, by simp [Expr.optionStrings]⟩ _
  · rw [if_neg (by simp)]
    exact h.expr.bind fun e u hu => .pure (by
      rw [List.append_nil]
      exact hu.toPhrase)

theorem Taken.forLoop (h : Taken inner) :
    TakesAt (.keyword .forWord) (forLoop inner) Sentence := by
  unfold Reader.forLoop
  refine .advance (by simp) fun _ => .expect fun _ => ?_
  extract_lets rest
  have hrest (init : Option (Simple Span)) {u : List TokenKind}
      (hu : Phrase [] (Simple.optionStrings init) u) :
      Takes (rest init) fun s v =>
        Sentence s (.keyword .forWord :: .punct .openParen :: (u ++ v)) := by
    refine .expect fun _ => (h.optional _).bind fun cond v hv => .expect fun _ => ?_
    refine (h.optional _).bind fun update w hw => .expect fun _ => ?_
    refine h.nested.bind fun body z hz => .pure ?_
    -- The semicolons of the head stand inside its brackets.
    have hinside : Fits 1 (u ++ .punct .semicolon :: (v ++ .punct .semicolon :: w)) :=
      (hu.fits.mono (Nat.zero_le 1)).append (Fits.semicolon.append
        ((hv.fits.mono (Nat.zero_le 1)).append (Fits.semicolon.append
          (hw.fits.mono (Nat.zero_le 1)))))
    have hwhole := Whole.branch (.cons (@isPlain_keyword .forWord) hinside.parens) hz.1
    have hinit := hu.strings
    have hcond := hv.strings
    have hupdate := hw.strings
    have hbody := hz.2.1
    refine ⟨by simpa using hwhole, ?_, by simp [Stmt.needsSemicolon], by simp⟩
    simp only [Stmt.strings]
    grind
  refine .sees ?_ ?_
  · rw [if_pos rfl]
    exact hrest none ⟨.nil, by simp [Simple.optionStrings]⟩ _
  · rw [if_neg (by simp)]
    refine Takes.bind (P := fun init u => Phrase [] (Simple.optionStrings init) u) ?_
      fun init u hu => hrest init hu
    exact .map (R := fun init u => Phrase [] (Simple.optionStrings init) u)
      (h.simple.mono fun s u hu => hu.1)

theorem Taken.around_statement (h : Taken inner) :
    Takes (Reader.statement inner) Sentence := by
  unfold Reader.statement
  refine .next fun t => ?_
  generalize hkind : t.kind = k
  have hword {s : Stmt Span} {word : Keyword} (hs : s.strings = []) :
      Sentence s [.keyword word] :=
    ⟨.flat (.plain isPlain_keyword), by simp [hs], fun _ => .plain isPlain_keyword, by simp⟩
  split
  case h_1 => exact h.block
  case h_2 => exact Takes.pure ⟨.flat .nil, by simp [Stmt.strings], fun _ => .nil, fun _ => rfl⟩ _
  case h_3 => exact h.choice
  case h_4 => exact h.whileLoop
  case h_5 => exact h.forLoop
  case h_6 => exact .advance (by simp) fun _ => .pure (hword rfl)
  case h_7 => exact .advance (by simp) fun _ => .pure (hword rfl)
  case h_8 => exact takes_fail _
  case h_9 =>
    refine (h.simple _).bind fun s u hu => .pure ?_
    rw [List.append_nil]
    exact ⟨.flat hu.1.fits, fun x hx => (hu.1.strings x hx).resolve_left List.not_mem_nil,
      fun _ => hu.1.fits, fun hnil => absurd hnil hu.2⟩

/-- What the readers of one more layer take. -/
theorem Taken.around (h : Taken inner) : Taken (.around inner) where
  statement := h.around_statement
  expr := h.around_expr
  branches := h.around_branches
  operand := h.unary
  chain := h.around_chain
  member := h.around_member

end Layers

/-- What the readers of a layer take. -/
theorem taken_layer (n : Nat) : Taken (layer n) := by
  induction n with
  | zero => exact taken_closed
  | succ n ih => exact ih.around

/-! ## Snippets -/

/-- The tokens of a snippet: a statement, and perhaps a semicolon. -/
def Report (t : TopLevel Span) (u : List TokenKind) : Prop :=
  (∃ v tail, u = v ++ tail ∧ Whole v ∧ (tail = [] ∨ tail = [.punct .semicolon])) ∧
    ∀ x ∈ t.strings, .str x ∈ u

theorem takes_importing : TakesAt (.keyword .importWord) importing fun t u =>
    Whole u ∧ ∀ x ∈ t.strings, .str x ∈ u := by
  unfold importing
  refine .advance (by simp) fun _ => .ident fun first => .remaining fun n => ?_
  refine (takes_dottedTail _ _ _).bind fun r u hu => .pure ⟨.flat ?_, by simp [TopLevel.strings]⟩
  exact .cons isPlain_keyword (.cons isPlain_ident (hu.append .nil))

theorem takes_snippet : Takes snippet Report := by
  unfold snippet
  refine .peek fun k => ?_
  extract_lets rest
  have hrest (t : TopLevel Span) (u : List TokenKind)
      (hu : Whole u ∧ ∀ x ∈ t.strings, .str x ∈ u) :
      Takes (rest t) fun t v => Report t (u ++ v) := by
    refine .eat (.peek fun k => ?_) (.peek fun k => ?_)
    all_goals split
    · exact Takes.pure ⟨⟨u, _, rfl, hu.1, Or.inr rfl⟩, fun x hx =>
        List.mem_append_left _ (hu.2 x hx)⟩ _
    · exact takes_fail _
    · exact Takes.pure ⟨⟨u, _, rfl, hu.1, Or.inl rfl⟩, fun x hx =>
        List.mem_append_left _ (hu.2 x hx)⟩ _
    · exact takes_fail _
  split
  · exact takes_importing.bind hrest
  · exact (Takes.map ((taken_layer maxNesting).statement.mono fun s u hu =>
      ⟨hu.whole, hu.strings⟩) _).bind hrest

/-- A snippet is read up to the end of the source. -/
theorem snippet_ends {c c' : Cursor} {t : TopLevel Span} (h : snippet c = .ok (t, c')) :
    c'.kind = .endOfSource := by
  unfold snippet at h
  obtain ⟨k, c₁, -, h⟩ := bind_eq_ok h
  extract_lets rest at h
  have hrest {t' : TopLevel Span} {d : Cursor} (h : rest t' d = .ok (t, c')) :
      c'.kind = .endOfSource := by
    obtain ⟨eaten, c₂, -, heaten⟩ := bind_eq_ok h
    obtain ⟨k', c₃, hpeek, hlast⟩ := bind_eq_ok heaten
    obtain ⟨hk', rfl⟩ := peek_eq_ok hpeek
    split at hlast
    · cases hlast
      exact hk'.symm
    · cases hlast
  split at h
  · obtain ⟨t', d, -, h⟩ := bind_eq_ok h
    exact hrest h
  · obtain ⟨t', d, -, h⟩ := bind_eq_ok h
    exact hrest h

theorem append_endOfSource {ks taken rest : List TokenKind}
    (h : ks ++ [.endOfSource] = taken ++ rest) (hks : .endOfSource ∉ ks)
    (htaken : .endOfSource ∉ taken) (hrest : rest.headD .endOfSource = .endOfSource) :
    taken = ks := by
  induction ks generalizing taken with
  | nil =>
      cases taken with
      | nil => rfl
      | cons k taken =>
          rw [List.nil_append, List.cons_append, List.cons_eq_cons] at h
          exact absurd List.mem_cons_self (h.1 ▸ htaken)
  | cons k ks ih =>
      rw [List.mem_cons, not_or] at hks
      cases taken with
      | nil =>
          rw [List.cons_append, List.nil_append] at h
          subst h
          exact absurd hrest.symm hks.1
      | cons k' taken =>
          rw [List.cons_append, List.cons_append, List.cons_eq_cons] at h
          rw [List.mem_cons, not_or] at htaken
          rw [h.1, ih h.2 hks.2 htaken.2]

end Reader

/-- The tokens that a snippet is read from are those of a statement, and perhaps a semicolon, and
its strings are literals among them. -/
theorem report_of_parse {tokens : List Token} {t : TopLevel Span} {ks : List TokenKind}
    (h : parse tokens = .ok t) (hkinds : tokens.map Token.kind = ks ++ [.endOfSource])
    (hks : .endOfSource ∉ ks) : Reader.Report t ks := by
  rcases hrun : Reader.snippet ⟨tokens, ⟨0, 0⟩⟩ with f | ⟨t', c⟩
  · rw [parse, StateT.run, hrun] at h
    cases h
  · rw [parse, StateT.run, hrun] at h
    cases h
    obtain ⟨taken, htaken, hend, hreport⟩ := Reader.takes_snippet _ _ _ _ rfl hrun
    rw [Cursor.kinds, hkinds] at htaken
    rwa [Reader.append_endOfSource htaken hks hend (Reader.snippet_ends hrun)] at hreport

end Syntax
end GuardedRepl
