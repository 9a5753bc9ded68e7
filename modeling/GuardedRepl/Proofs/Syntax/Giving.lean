import GuardedRepl.Proofs.Syntax.Printing
import GuardedRepl.Proofs.Syntax.Twins

/-!
# What readers give

A reader that comes to known tokens gives a known result and leaves known tokens, unless it would
have to enter more layers than there are.  A layer is entered only for another token, so this does
not happen to few tokens.  There is one rule for each way in which readers are put together.

**Results.**
* `Gives.bind`, `Gives.peek`, `Gives.advance`, ...: one reader after another.
* `gives_dotted`, `gives_arguments`: names and arguments are read back.
-/

namespace GuardedRepl
namespace Syntax
namespace Reader

open Source

variable {α β : Type}

/-- Wherever such tokens are ahead, the reader gives such a result and leaves such tokens, or it
would have to go too deep.  This happens only if `deep` holds. -/
def Gives (deep : Prop) (x : Reader α) (ks : List TokenKind) (Q : α → List TokenKind → Prop) :
    Prop :=
  ∀ c : Cursor, c.kinds = ks →
    (∃ a c', x c = .ok (a, c') ∧ Q a c'.kinds) ∨ deep ∧ ∃ s, x c = .error ⟨s, .tooDeep⟩

section Rules

variable {deep : Prop} {x : Reader α} {f : α → Reader β} {ks : List TokenKind} {k : TokenKind} {p : Punct}
  {P Q : α → List TokenKind → Prop} {R : β → List TokenKind → Prop}

theorem Gives.mono (hx : Gives deep x ks P) (h : ∀ a ks', P a ks' → Q a ks') :
    Gives deep x ks Q := by
  intro c hc
  rcases hx c hc with ⟨a, c', hxc, hP⟩ | hdeep
  · exact Or.inl ⟨a, c', hxc, h a _ hP⟩
  · exact Or.inr hdeep

theorem Gives.pure {a : α} (h : Q a ks) : Gives deep (pure a) ks Q := by
  intro c hc
  subst hc
  exact Or.inl ⟨a, c, rfl, h⟩

theorem Gives.bind (hx : Gives deep x ks P) (hf : ∀ a ks', P a ks' → Gives deep (f a) ks' R) :
    Gives deep (x >>= f) ks R := by
  intro c hc
  rcases hx c hc with ⟨a, d, hxc, hP⟩ | ⟨hdeep, s, hxc⟩
  · rw [bind_of_ok hxc]
    exact hf a _ hP d rfl
  · refine Or.inr ⟨hdeep, s, ?_⟩
    change (x c >>= fun r => f r.1 r.2) = _
    rw [hxc]
    rfl

theorem Gives.map {g : α → β} (hx : Gives deep x ks fun a ks' => R (g a) ks') :
    Gives deep (g <$> x) ks R := by
  rw [map_eq_pure_bind]
  exact hx.bind fun a ks' ha => .pure ha

theorem gives_tooDeep (h : deep) : Gives deep (fail .tooDeep : Reader α) ks Q :=
  fun c _ => Or.inr ⟨h, (c.ahead.headD ⟨.endOfSource, c.behind⟩).span, rfl⟩

/-- A reader that looks at the state and goes on. -/
theorem Gives.get {f : Cursor → Reader β} (hf : ∀ c, c.kinds = ks → Gives deep (f c) ks R) :
    Gives deep (get >>= f) ks R :=
  fun c hc => hf c hc c hc

theorem Gives.remaining {f : Nat → Reader β} (hf : Gives deep (f ks.length) ks R) :
    Gives deep (remaining >>= f) ks R := by
  refine .get fun c hc => ?_
  rw [← hc, Cursor.kinds, List.length_map] at hf
  exact hc ▸ hf

theorem Gives.next {f : Token → Reader β} (hf : ∀ t, t.kind = front ks → Gives deep (f t) ks R) :
    Gives deep (next >>= f) ks R := by
  intro c hc
  obtain ⟨s, hnext⟩ := next_eq c
  rw [bind_of_ok hnext]
  exact hf _ (by rw [front, ← hc, Cursor.kind]) c hc

theorem Gives.peek {f : TokenKind → Reader β} (hf : Gives deep (f (front ks)) ks R) :
    Gives deep (peek >>= f) ks R := by
  intro c hc
  rw [bind_of_ok (peek_eq c), Cursor.kind, hc]
  exact hf c hc

theorem Gives.seesYes {f : Bool → Reader β} (hf : Gives deep (f true) (.punct p :: ks) R) :
    Gives deep (sees p >>= f) (.punct p :: ks) R := by
  intro c hc
  rw [bind_of_ok (sees_eq c), Cursor.kind, hc]
  simpa using hf c hc

theorem Gives.seesNo {f : Bool → Reader β} (hp : front ks ≠ .punct p)
    (hf : Gives deep (f false) ks R) : Gives deep (sees p >>= f) ks R := by
  intro c hc
  rw [front, ← hc, ← Cursor.kind] at hp
  rw [bind_of_ok (sees_eq c), decide_eq_false hp]
  exact hf c hc

theorem Gives.advance {f : Token → Reader β} (hf : ∀ t, Gives deep (f t) ks R) :
    Gives deep (advance >>= f) (k :: ks) R := by
  rintro ⟨ahead, behind⟩ hc
  cases ahead with
  | nil => cases hc
  | cons t rest => exact hf t ⟨rest, t.span⟩ (List.cons.inj hc).2

theorem Gives.eatYes {f : Bool → Reader β} (hf : Gives deep (f true) ks R) :
    Gives deep (eat p >>= f) (.punct p :: ks) R := by
  rw [Reader.eat, bind_assoc]
  refine .seesYes ?_
  rw [if_pos rfl, bind_assoc]
  exact .advance fun _ => hf

theorem Gives.eatNo {f : Bool → Reader β} (hp : front ks ≠ .punct p)
    (hf : Gives deep (f false) ks R) : Gives deep (eat p >>= f) ks R := by
  rw [Reader.eat, bind_assoc]
  refine .seesNo hp ?_
  rw [if_neg (by simp)]
  exact hf

theorem Gives.expect {f : Span → Reader β} (hf : ∀ s, Gives deep (f s) ks R) :
    Gives deep (expect p >>= f) (.punct p :: ks) R := by
  rw [Reader.expect, bind_assoc]
  refine .seesYes ?_
  rw [if_pos rfl, bind_assoc]
  exact .advance fun t => hf t.span

theorem Gives.ident {f : Ident Span → Reader β} {name : String}
    (hf : ∀ s, Gives deep (f ⟨name, s⟩) ks R) :
    Gives deep (ident >>= f) (.ident name :: ks) R := by
  rw [Reader.ident, bind_assoc]
  refine .next fun t ht => ?_
  rw [ht]
  change Gives deep ((do let _ ← Reader.advance; return (⟨name, t.span⟩ : Ident Span)) >>= f) _ _
  rw [bind_assoc]
  exact .advance fun _ => hf t.span

end Rules

/-! ## Names -/

theorem gives_dottedTail {deep : Prop} {rest : List TokenKind} (hrest : front rest ≠ .punct .dot)
    (parts : List (Ident Unit)) (hparts : ∀ i ∈ parts, i.IsFree) {n : Nat} (hn : parts.length ≤ n)
    (done : List (Ident Span)) :
    Gives deep (dottedTail false n done) (Dotted.printTail parts ++ rest) fun r ks =>
      r.1.map Ident.shape = done.reverse.map Ident.shape ++ parts ∧ ks = rest := by
  induction parts generalizing n done with
  | nil =>
      have hend : Gives deep (pure (done.reverse, false) : Reader (List (Ident Span) × Bool)) rest
          fun r ks => r.1.map Ident.shape = done.reverse.map Ident.shape ++ [] ∧ ks = rest :=
        .pure ⟨(List.append_nil _).symm, rfl⟩
      cases n with
      | zero => exact hend
      | succ n => exact .eatNo hrest hend
  | cons i parts ih =>
      obtain ⟨n, rfl⟩ := Nat.exists_eq_add_one_of_ne_zero (Nat.ne_zero_of_lt hn)
      rw [List.forall_mem_cons] at hparts
      change Gives deep _ (.punct .dot :: i.print :: (Dotted.printTail parts ++ rest)) _
      rw [Ident.print_eq hparts.1, dottedTail]
      refine .eatYes ?_
      rw [if_pos rfl]
      refine .seesNo (by simp [front]) ?_
      rw [Bool.and_false, if_neg (by simp)]
      refine .ident fun s => ?_
      refine (ih hparts.2 (Nat.le_of_succ_le_succ hn) _).mono fun r ks hr => ⟨?_, hr.2⟩
      rw [hr.1, List.reverse_cons, List.map_append, List.append_assoc]
      rfl

theorem length_printTail (parts : List (Ident α)) :
    (Dotted.printTail parts).length = 2 * parts.length := by
  induction parts with
  | nil => rfl
  | cons i parts ih =>
      rw [Dotted.printTail, List.flatMap_cons, List.length_append, ← Dotted.printTail, ih,
        List.length_cons, List.length_cons, List.length_cons, List.length_nil]
      omega

/-- A dotted name is read back. -/
theorem gives_dotted {deep : Prop} {path : Dotted Unit} (hpath : path.IsFree)
    {rest : List TokenKind} (hrest : front rest ≠ .punct .dot) :
    Gives deep dotted (path.print ++ rest) fun d ks => d.shape = path ∧ ks = rest := by
  obtain ⟨first, tail⟩ := path
  obtain ⟨hfirst, htail⟩ := List.forall_mem_cons.mp hpath
  change Gives deep _ (first.print :: (Dotted.printTail tail ++ rest)) _
  rw [Ident.print_eq hfirst, dotted]
  refine .ident fun s => .remaining ?_
  refine (gives_dottedTail hrest tail htail ?_ []).bind fun r ks hr => .pure ⟨?_, hr.2⟩
  · rw [List.length_append, length_printTail]
    omega
  · rw [Dotted.shape, hr.1]
    rfl

/-! ## Arguments -/

/-- The reader has given this expression and left these tokens. -/
def Is (e : Expr Unit) (rest : List TokenKind) (e' : Expr Span) (ks : List TokenKind) : Prop :=
  e'.shape = e ∧ ks = rest

/-- The expression is read back as an argument. -/
structure IsArgument (e : Expr Unit) : Prop where
  begun : Begun e.print
  gives {deep : Prop} {n : Nat} (hdeep : n ≤ e.print.length → deep) (rest : List TokenKind) :
    front rest = .punct .comma ∨ front rest = .punct .closeParen →
      Gives deep (layer n).expr (e.print ++ rest) (Is e rest)

theorem length_listPrint_cons (e e' : Expr α) (es : List (Expr α)) :
    (Expr.listPrint (e :: e' :: es)).length =
      e.print.length + 1 + (Expr.listPrint (e' :: es)).length := by
  rw [Expr.listPrint, List.length_append, List.length_cons]
  omega

theorem gives_argumentTail {deep : Prop} {e : Expr Unit} {es : List (Expr Unit)}
    (hargs : ∀ a ∈ e :: es, IsArgument a) {n : Nat}
    (hdeep : n ≤ (Expr.listPrint (e :: es)).length → deep) {m : Nat} (hm : es.length < m)
    (done : List (Expr Span)) (rest : List TokenKind) :
    Gives deep (argumentTail (layer n) m done)
      (Expr.listPrint (e :: es) ++ .punct .closeParen :: rest) fun as ks =>
        as.map Expr.shape = done.reverse.map Expr.shape ++ e :: es ∧ ks = rest := by
  induction es generalizing e m done with
  | nil =>
      obtain ⟨m, rfl⟩ := Nat.exists_eq_add_one_of_ne_zero (Nat.ne_zero_of_lt hm)
      rw [List.forall_mem_cons] at hargs
      rw [argumentTail, Expr.listPrint]
      refine (hargs.1.gives hdeep (.punct .closeParen :: rest) (Or.inr rfl)).bind ?_
      rintro e' ks ⟨rfl, rfl⟩
      refine .eatYes ?_
      rw [if_pos rfl]
      exact .pure ⟨by simp, rfl⟩
  | cons a es ih =>
      obtain ⟨m, rfl⟩ := Nat.exists_eq_add_one_of_ne_zero (Nat.ne_zero_of_lt hm)
      rw [List.forall_mem_cons] at hargs
      rw [length_listPrint_cons] at hdeep
      rw [argumentTail, Expr.listPrint, List.append_assoc]
      refine (hargs.1.gives (fun h => hdeep (by omega)) _ (Or.inl rfl)).bind ?_
      rintro e' ks ⟨rfl, rfl⟩
      refine .eatNo (by simp [front]) ?_
      rw [if_neg (by simp)]
      refine .expect fun _ => ?_
      have hrest := ih hargs.2 (fun h => hdeep (by omega)) (Nat.lt_of_succ_lt_succ hm) (e' :: done)
      refine hrest.mono fun as ks has => ⟨?_, has.2⟩
      rw [has.1, List.reverse_cons, List.map_append, List.append_assoc]
      rfl

theorem length_le_length_listPrint (es : List (Expr α)) :
    es.length ≤ (Expr.listPrint es).length + 1 := by
  induction es with
  | nil => exact Nat.zero_le _
  | cons e es ih =>
      cases es with
      | nil => simp
      | cons e' es =>
          rw [length_listPrint_cons]
          simp only [List.length_cons] at ih ⊢
          omega

theorem begun_listPrint {e : Expr α} (h : Begun e.print) (es : List (Expr α)) :
    Begun (Expr.listPrint (e :: es)) := by
  cases es with
  | nil => exact h
  | cons e' es => exact h.append _

/-- Arguments are read back. -/
theorem gives_arguments {deep : Prop} {args : List (Expr Unit)}
    (hargs : ∀ a ∈ args, IsArgument a) {n : Nat}
    (hdeep : n ≤ (Expr.listPrint args).length → deep) (rest : List TokenKind) :
    Gives deep (arguments (layer n)) (bracket (Expr.listPrint args) ++ rest) fun as ks =>
      Expr.listShape as = args ∧ ks = rest := by
  rw [bracket, List.cons_append, List.append_assoc, arguments]
  refine .expect fun _ => ?_
  cases args with
  | nil =>
      refine .eatYes ?_
      rw [if_pos rfl]
      exact .pure ⟨rfl, rfl⟩
  | cons e es =>
      have hlength := length_le_length_listPrint (e :: es)
      have hfirst := begun_listPrint (hargs e List.mem_cons_self).begun es
      refine .eatNo ((hfirst.append _).front_ne rfl) (.remaining ?_)
      refine (gives_argumentTail hargs hdeep ?_ [] rest).mono fun as ks has => ⟨?_, has.2⟩
      · rw [List.length_append, List.length_append, List.length_singleton]
        rw [List.length_cons] at hlength
        omega
      · rw [Expr.listShape_eq_map, has.1]
        rfl

end Reader
end Syntax
end GuardedRepl
