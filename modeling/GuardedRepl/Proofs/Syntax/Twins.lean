import GuardedRepl.Proofs.Syntax.Shape
import GuardedRepl.Proofs.Syntax.Taking

/-!
# Twins

Two sources have the same words, but there are semicolons at the end of the first one that the
second one lacks.  A reader does the same in both and yields trees of one shape.  Only a statement
that ends with an empty statement needs its semicolon.

**Results.**
* `Mimics.bind`, `Mimics.next`, ...: one reader after another.
* `echoing_layer`: the readers of a layer do the same in twins.
* `parse_twin`: a snippet can be read without the semicolons at its end.
-/

namespace GuardedRepl
namespace Syntax

open Source

namespace Reader

variable {α β γ δ : Type}

/-! ## Twins -/

/-- The second source lacks semicolons that the first one has at its end. -/
def Twin (c d : Cursor) : Prop :=
  ∃ u semicolons, c.kinds = u ++ semicolons ++ [.endOfSource] ∧ d.kinds = u ++ [.endOfSource] ∧
    ∀ k ∈ semicolons, k = .punct .semicolon

/-- There are only semicolons ahead. -/
def Spent (c : Cursor) : Prop :=
  ∀ k ∈ c.kinds, k = .punct .semicolon ∨ k = .endOfSource

/-- Twins have the same token ahead, or the second source is at its end and the first one is not. -/
theorem Twin.kinds {c d : Cursor} (h : Twin c d) :
    d.kind = c.kind ∨ (c.kind = .punct .semicolon ∧ d.kind = .endOfSource ∧ Spent c) := by
  obtain ⟨u, semicolons, hc, hd, hsemicolons⟩ := h
  cases u with
  | cons k u =>
      left
      rw [Cursor.kind, Cursor.kind, hc, hd]
      rfl
  | nil =>
      cases semicolons with
      | nil =>
          left
          rw [Cursor.kind, Cursor.kind, hc, hd]
          rfl
      | cons k semicolons =>
          right
          refine ⟨?_, by rw [Cursor.kind, hd]; rfl, fun k' hk' => ?_⟩
          · rw [Cursor.kind, hc]
            exact hsemicolons k List.mem_cons_self
          · rw [hc, List.nil_append, List.mem_append, List.mem_singleton] at hk'
            exact hk'.imp_left (hsemicolons k')

theorem kinds_drop (c : Cursor) (s : Span) :
    Cursor.kinds ⟨c.ahead.drop 1, s⟩ = c.kinds.drop 1 :=
  List.map_drop

/-- After the same token the sources are twins again. -/
theorem Twin.drop {c d : Cursor} {s s' : Span} (h : Twin c d) (hkind : d.kind = c.kind)
    (hend : c.kind ≠ .endOfSource) : Twin ⟨c.ahead.drop 1, s⟩ ⟨d.ahead.drop 1, s'⟩ := by
  obtain ⟨u, semicolons, hc, hd, hsemicolons⟩ := h
  rw [Cursor.kind, Cursor.kind, hc, hd] at hkind
  rw [Cursor.kind, hc] at hend
  cases u with
  | nil => exact absurd hkind.symm hend
  | cons k u =>
      refine ⟨u, semicolons, ?_, ?_, hsemicolons⟩
      · rw [kinds_drop, hc]
        rfl
      · rw [kinds_drop, hd]
        rfl

/-- After a semicolon that the second source lacks the sources are twins again. -/
theorem Twin.dropLeft {c d : Cursor} {s : Span} (h : Twin c d) (hc : c.kind = .punct .semicolon)
    (hd : d.kind = .endOfSource) : Twin ⟨c.ahead.drop 1, s⟩ d := by
  obtain ⟨u, semicolons, hckinds, hdkinds, hsemicolons⟩ := h
  rw [Cursor.kind, hckinds] at hc
  rw [Cursor.kind, hdkinds] at hd
  cases u with
  | cons k u => exact absurd (hc.symm.trans hd) (by simp)
  | nil =>
      cases semicolons with
      | nil => cases hc
      | cons k semicolons =>
          refine ⟨[], semicolons, ?_, hdkinds, fun k' hk' => hsemicolons k' (.tail k hk')⟩
          rw [kinds_drop, hckinds]
          rfl

theorem Twin.length_pos {c d : Cursor} (h : Twin c d) :
    0 < c.ahead.length ∧ 0 < d.ahead.length := by
  obtain ⟨u, semicolons, hc, hd, -⟩ := h
  have hclength := congrArg List.length hc
  have hdlength := congrArg List.length hd
  simp only [Cursor.kinds, List.length_map, List.length_append,
    List.length_singleton] at hclength hdlength
  omega

theorem Spent.kind {c : Cursor} (h : Spent c) :
    c.kind = .punct .semicolon ∨ c.kind = .endOfSource := by
  rw [Cursor.kind]
  cases hkinds : c.kinds with
  | nil => exact Or.inr rfl
  | cons k ks => exact h k (hkinds ▸ List.mem_cons_self)

theorem Spent.rest {c c' : Cursor} {x : Reader α} {P : α → List TokenKind → Prop} {a : α}
    (h : Spent c) (hx : Takes x P) (hrun : x c = .ok (a, c')) : Spent c' := by
  obtain ⟨u, hu, -, -⟩ := hx _ c a c' rfl hrun
  exact fun k hk => h k (hu ▸ List.mem_append_right u hk)

/-! ## Rules -/

/-- Where only semicolons are left, a reader fails, or it leaves nothing else and its result has
the property. -/
def Dries (A : α → Prop) (x : Reader α) : Prop :=
  ∀ c a c', Spent c → x c = .ok (a, c') → A a ∧ Spent c'

/-- In twins with these tokens ahead the second reader does what the first one does: their results
are related and what is left are twins, or the result of the first reader has the property `A` and
only semicolons are left. -/
def MimicsAt (k k' : TokenKind) (R : α → β → Prop) (A : α → Prop) (x : Reader α) (y : Reader β) :
    Prop :=
  ∀ c d a c', Twin c d → c.kind = k → d.kind = k' → x c = .ok (a, c') →
    (∃ b d', y d = .ok (b, d') ∧ R a b ∧ Twin c' d') ∨ (A a ∧ Spent c')

/-- The same in all twins. -/
def Mimics (R : α → β → Prop) (A : α → Prop) (x : Reader α) (y : Reader β) : Prop :=
  ∀ k k', MimicsAt k k' R A x y

/-- The same in twins with at most so many tokens. -/
def MimicsFor (n n' : Nat) (R : α → β → Prop) (A : α → Prop) (x : Reader α) (y : Reader β) : Prop :=
  ∀ c d a c', Twin c d → c.ahead.length ≤ n → d.ahead.length ≤ n' → x c = .ok (a, c') →
    (∃ b d', y d = .ok (b, d') ∧ R a b ∧ Twin c' d') ∨ (A a ∧ Spent c')

/-- A property that no result has. -/
def never : α → Prop :=
  fun _ => False

section Rules

variable {k k' : TokenKind} {p : Punct} {n n' : Nat} {x : Reader α} {y : Reader β}
  {f : α → Reader γ} {g : β → Reader δ} {R : α → β → Prop} {S : γ → δ → Prop}
  {A : α → Prop} {B : γ → Prop} {P : α → List TokenKind → Prop}

theorem bind_of_ok {c d : Cursor} {a : α} (h : x c = .ok (a, d)) : (x >>= f) c = f a d := by
  change (x c >>= fun r => f r.1 r.2) = _
  rw [h]
  rfl

theorem Dries.pure {a : α} (h : A a) : Dries A (pure a) := by
  intro c b c' hc heq
  cases heq
  exact ⟨h, hc⟩

theorem Dries.after (hx : Takes x P) (hf : ∀ a, Dries B (f a)) : Dries B (x >>= f) := by
  intro c b c' hc heq
  obtain ⟨a, d, hxc, hfd⟩ := bind_eq_ok heq
  exact hf a d b c' (hc.rest hx hxc) hfd

theorem Dries.left (hx : Dries never x) : Dries B (x >>= f) := by
  intro c b c' hc heq
  obtain ⟨a, d, hxc, -⟩ := bind_eq_ok heq
  exact (hx c a d hc hxc).1.elim

theorem Dries.failAt {s : Span} {cause : Cause} : Dries A (failAt s cause) := by
  intro c b c' _ heq
  cases heq

theorem Dries.next {f : Token → Reader γ} (hf : ∀ t, t.kind = .punct .semicolon ∨
    t.kind = .endOfSource → Dries B (f t)) : Dries B (next >>= f) := by
  intro c b c' hc heq
  refine hf _ ?_ c b c' hc heq
  rw [kind_headD]
  exact hc.kind

theorem Dries.fail {cause : Cause} : Dries A (fail cause) :=
  .next fun _ _ => .failAt

theorem Dries.peek {f : TokenKind → Reader γ} (hsemicolon : Dries B (f (.punct .semicolon)))
    (hend : Dries B (f .endOfSource)) : Dries B (peek >>= f) := by
  intro c b c' hc heq
  obtain ⟨k, d, hpeek, hfd⟩ := bind_eq_ok heq
  obtain ⟨rfl, rfl⟩ := peek_eq_ok hpeek
  rcases hc.kind with hk | hk
  · rw [hk] at hfd
    exact hsemicolon d b c' hc hfd
  · rw [hk] at hfd
    exact hend d b c' hc hfd

theorem Dries.advance {f : Token → Reader γ} (hf : ∀ t, Dries B (f t)) :
    Dries B (advance >>= f) :=
  fun c b c' hc heq => hf _ ⟨c.ahead.drop 1, _⟩ b c'
    (fun k hk => hc k (List.mem_of_mem_drop (kinds_drop c _ ▸ hk))) heq

theorem Dries.expect {f : Span → Reader γ} (hp : p ≠ .semicolon) : Dries B (expect p >>= f) := by
  refine .left ?_
  rw [Reader.expect, Reader.sees, bind_assoc]
  refine .peek ?_ ?_
  · rw [pure_bind, decide_eq_false (by simpa using hp.symm), if_neg (by simp)]
    exact .fail
  · rw [pure_bind, decide_eq_false (by simp), if_neg (by simp)]
    exact .fail

theorem Mimics.pure {a : α} {b : β} (h : R a b) : Mimics R A (pure a) (pure b) := by
  intro k k' c d a' c' hcd _ _ heq
  cases heq
  exact Or.inl ⟨b, d, rfl, h, hcd⟩

theorem mimics_failAt {s : Span} {cause : Cause} : Mimics R A (failAt s cause) y := by
  intro k k' c d a' c' hcd _ _ heq
  cases heq

theorem mimics_fail {cause : Cause} : Mimics R A (fail cause) y := by
  intro k k' c d a' c' hcd _ _ heq
  cases heq

theorem mimics_fail_bind {cause : Cause} {y : Reader δ} :
    Mimics S B (fail cause >>= f) y := by
  intro k k' c d b c' hcd _ _ heq
  obtain ⟨a, c₁, hfail, -⟩ := bind_eq_ok heq
  cases hfail

/-- Where the first reader has an excuse the rest must not need what is missing. -/
theorem MimicsAt.bindExcused (hx : MimicsAt k k' R A x y)
    (hf : ∀ a b, R a b → Mimics S B (f a) (g b))
    (hdries : ∀ a, A a → Dries B (f a)) : MimicsAt k k' S B (x >>= f) (y >>= g) := by
  intro c d b c' hcd hk hk' heq
  obtain ⟨a, c₁, hxc, hfc⟩ := bind_eq_ok heq
  rcases hx c d a c₁ hcd hk hk' hxc with ⟨b', d₁, hyd, hR, htwin⟩ | ⟨hA, hspent⟩
  · rcases hf a b' hR _ _ c₁ d₁ b c' htwin rfl rfl hfc with ⟨e, d', hgd, hS, htwin'⟩ | hexcuse
    · exact Or.inl ⟨e, d', (bind_of_ok hyd).trans hgd, hS, htwin'⟩
    · exact Or.inr hexcuse
  · exact Or.inr (hdries a hA c₁ b c' hspent hfc)

theorem MimicsAt.bind (hx : MimicsAt k k' R never x y)
    (hf : ∀ a b, R a b → Mimics S B (f a) (g b)) : MimicsAt k k' S B (x >>= f) (y >>= g) :=
  hx.bindExcused hf fun _ h => h.elim

theorem Mimics.bind (hx : Mimics R never x y) (hf : ∀ a b, R a b → Mimics S B (f a) (g b)) :
    Mimics S B (x >>= f) (y >>= g) :=
  fun k k' => (hx k k').bind hf

theorem Mimics.get {f : Cursor → Reader γ} {g : Cursor → Reader δ}
    (hf : ∀ c d, Twin c d → Mimics S B (f c) (g d)) : Mimics S B (get >>= f) (get >>= g) :=
  fun _ _ c d b c' hcd hk hk' heq => hf c d hcd _ _ c d b c' hcd hk hk' heq

theorem next_eq (c : Cursor) : ∃ s, next c = .ok (⟨c.kind, s⟩, c) := by
  refine ⟨(c.ahead.headD ⟨.endOfSource, c.behind⟩).span, ?_⟩
  rw [← kind_headD]
  rfl

theorem Mimics.next {f : Token → Reader γ} {g : Token → Reader δ}
    (hf : ∀ k s s', MimicsAt k k S B (f ⟨k, s⟩) (g ⟨k, s'⟩))
    (hend : ∀ s s', MimicsAt (.punct .semicolon) .endOfSource S B (f ⟨.punct .semicolon, s⟩)
      (g ⟨.endOfSource, s'⟩)) : Mimics S B (next >>= f) (next >>= g) := by
  intro k k' c d b c' hcd _ _ hfc
  obtain ⟨s, hc⟩ := next_eq c
  obtain ⟨s', hd⟩ := next_eq d
  rw [bind_of_ok hc] at hfc
  rw [bind_of_ok hd]
  rcases hcd.kinds with hkind | ⟨hsemicolon, heos, -⟩
  · rw [hkind]
    exact hf _ _ _ c d b c' hcd rfl hkind hfc
  · rw [hsemicolon] at hfc
    rw [heos]
    exact hend _ _ c d b c' hcd hsemicolon heos hfc

theorem Mimics.peek {f : TokenKind → Reader γ} {g : TokenKind → Reader δ}
    (hf : ∀ k, MimicsAt k k S B (f k) (g k))
    (hend : MimicsAt (.punct .semicolon) .endOfSource S B (f (.punct .semicolon))
      (g .endOfSource)) : Mimics S B (peek >>= f) (peek >>= g) := by
  rw [Reader.peek, bind_assoc, bind_assoc]
  exact .next (fun k _ _ => hf k) fun _ _ => hend

theorem Mimics.sees {f : Bool → Reader γ} {g : Bool → Reader δ} (hp : p ≠ .semicolon)
    (hyes : MimicsAt (.punct p) (.punct p) S B (f true) (g true))
    (hno : Mimics S B (f false) (g false)) : Mimics S B (sees p >>= f) (sees p >>= g) := by
  rw [Reader.sees, bind_assoc, bind_assoc]
  refine .peek (fun k => ?_) ?_
  · rw [pure_bind, pure_bind]
    by_cases hk : k = .punct p
    · subst hk
      rwa [decide_eq_true rfl]
    · rw [decide_eq_false hk]
      exact hno k k
  · rw [pure_bind, pure_bind, decide_eq_false (by simpa using hp.symm), decide_eq_false (by simp)]
    exact hno _ _

/-- A semicolon that the second source lacks must not be needed. -/
theorem Mimics.seesSemicolon {f : Bool → Reader γ} {g : Bool → Reader δ}
    (hyes : MimicsAt (.punct .semicolon) (.punct .semicolon) S B (f true) (g true))
    (hno : Mimics S B (f false) (g false)) (hdries : Dries B (f true)) :
    Mimics S B (Reader.sees .semicolon >>= f) (Reader.sees .semicolon >>= g) := by
  rw [Reader.sees, bind_assoc, bind_assoc]
  refine .peek (fun k => ?_) ?_
  · rw [pure_bind, pure_bind]
    by_cases hk : k = .punct .semicolon
    · subst hk
      rwa [decide_eq_true rfl]
    · rw [decide_eq_false hk]
      exact hno k k
  · rw [pure_bind, decide_eq_true rfl]
    intro c d b c' hcd hc hd heq
    rcases hcd.kinds with hkind | ⟨-, -, hspent⟩
    · rw [hc, hd] at hkind
      cases hkind
    · exact Or.inr (hdries c b c' hspent heq)

theorem MimicsAt.advance {f : Token → Reader γ} {g : Token → Reader δ} (hk : k ≠ .endOfSource)
    (hf : ∀ t t', Mimics S B (f t) (g t')) :
    MimicsAt k k S B (advance >>= f) (advance >>= g) := by
  intro c d b c' hcd hc hd heq
  subst hc
  exact hf _ _ _ _ ⟨c.ahead.drop 1, _⟩ ⟨d.ahead.drop 1, _⟩ b c' (hcd.drop hd hk) rfl rfl heq

theorem Mimics.eat {f : Bool → Reader γ} {g : Bool → Reader δ} (hp : p ≠ .semicolon)
    (hyes : Mimics S B (f true) (g true)) (hno : Mimics S B (f false) (g false)) :
    Mimics S B (eat p >>= f) (eat p >>= g) := by
  rw [Reader.eat, bind_assoc, bind_assoc]
  refine .sees hp ?_ hno
  rw [if_pos rfl, bind_assoc, bind_assoc]
  exact .advance (by simp) fun _ _ => hyes

/-- Where the second source lacks the semicolon it is at its end. -/
theorem Mimics.eatSemicolon {f : Bool → Reader γ} {g : Bool → Reader δ}
    (hyes : Mimics S B (f true) (g true)) (hno : Mimics S B (f false) (g false))
    (hlast : ∀ k, MimicsAt k .endOfSource S B (f true) (g false)) :
    Mimics S B (Reader.eat .semicolon >>= f) (Reader.eat .semicolon >>= g) := by
  rw [Reader.eat, Reader.sees, bind_assoc, bind_assoc, bind_assoc, bind_assoc]
  refine .peek (fun k => ?_) ?_
  · rw [pure_bind, pure_bind]
    by_cases hk : k = .punct .semicolon
    · subst hk
      rw [decide_eq_true rfl, if_pos rfl, bind_assoc, bind_assoc]
      exact .advance (by simp) fun _ _ => hyes
    · rw [decide_eq_false hk, if_neg (by simp), pure_bind, pure_bind]
      exact hno k k
  · rw [pure_bind, pure_bind, decide_eq_true rfl, if_pos rfl, bind_assoc, decide_eq_false (by simp),
      if_neg (by simp), pure_bind]
    intro c d b c' hcd hc hd heq
    exact hlast _ ⟨c.ahead.drop 1, _⟩ d b c' (hcd.dropLeft hc hd) rfl hd heq

theorem Mimics.expect {f : Span → Reader γ} {g : Span → Reader δ} (hp : p ≠ .semicolon)
    (hf : ∀ s s', Mimics S B (f s) (g s')) : Mimics S B (expect p >>= f) (expect p >>= g) := by
  rw [Reader.expect, bind_assoc, bind_assoc]
  refine .sees hp ?_ ?_
  · rw [if_pos rfl, bind_assoc, bind_assoc]
    exact .advance (by simp) fun t t' => hf t.span t'.span
  · rw [if_neg (by simp)]
    exact Mimics.bind (R := fun _ _ => True) mimics_fail fun s s' _ => hf s s'

/-- A semicolon that the second source lacks must not be followed by what is missing. -/
theorem Mimics.expectSemicolon {f : Span → Reader γ} {g : Span → Reader δ}
    (hf : ∀ s s', Mimics S B (f s) (g s')) (hdries : ∀ s, Dries B (f s)) :
    Mimics S B (Reader.expect .semicolon >>= f) (Reader.expect .semicolon >>= g) := by
  rw [Reader.expect, bind_assoc, bind_assoc]
  refine .seesSemicolon ?_ ?_ ?_
  · rw [if_pos rfl, bind_assoc, bind_assoc]
    exact .advance (by simp) fun t t' => hf t.span t'.span
  · rw [if_neg (by simp)]
    exact mimics_fail_bind
  · rw [if_pos rfl, bind_assoc]
    exact .advance fun t => hdries t.span

theorem Mimics.ident {f : Ident Span → Reader γ} {g : Ident Span → Reader δ}
    (hf : ∀ i j, i.shape = j.shape → Mimics S B (f i) (g j)) :
    Mimics S B (ident >>= f) (ident >>= g) := by
  rw [Reader.ident, bind_assoc, bind_assoc]
  refine .next (fun k s s' => ?_) fun s s' => mimics_fail_bind _ _
  cases k with
  | ident name =>
      simp only [bind_assoc, pure_bind]
      exact .advance (by simp) fun _ _ => hf ⟨name, s⟩ ⟨name, s'⟩ rfl
  | _ => exact mimics_fail_bind _ _

/-- Where the token ahead is no name, none is read. -/
theorem mimicsAt_ident {f : Ident Span → Reader γ} {y : Reader δ}
    (hk : ∀ name, k ≠ .ident name) : MimicsAt k k' S B (Reader.ident >>= f) y := by
  intro c d b c' _ hc _ heq
  obtain ⟨s, hnext⟩ := next_eq c
  obtain ⟨i, c₁, hident, -⟩ := bind_eq_ok heq
  rw [Reader.ident, bind_of_ok hnext, hc] at hident
  cases k with
  | ident name => exact absurd rfl (hk name)
  | _ => cases hident

/-! ### Bounded sources -/

theorem Mimics.bounded {x : Reader γ} {y : Reader δ} (h : Mimics S B x y) :
    MimicsFor n n' S B x y :=
  fun c d b c' hcd _ _ heq => h _ _ c d b c' hcd rfl rfl heq

/-- A source has at least one token. -/
theorem mimicsFor_zero_left {x : Reader γ} {y : Reader δ} : MimicsFor 0 n' S B x y :=
  fun _ _ _ _ hcd hn _ _ => absurd hcd.length_pos.1 (Nat.not_lt.mpr hn)

theorem mimicsFor_zero_right {x : Reader γ} {y : Reader δ} : MimicsFor n 0 S B x y :=
  fun _ _ _ _ hcd _ hn' _ => absurd hcd.length_pos.2 (Nat.not_lt.mpr hn')

theorem Mimics.remaining {f : Nat → Reader γ} {g : Nat → Reader δ}
    (hf : ∀ n n', MimicsFor n n' S B (f n) (g n')) :
    Mimics S B (remaining >>= f) (remaining >>= g) :=
  fun _ _ c d b c' hcd _ _ heq => hf _ _ c d b c' hcd le_rfl le_rfl heq

theorem Takes.length_le {c c' : Cursor} {a : α} (hx : Takes x P) (hrun : x c = .ok (a, c')) :
    ∃ u, P a u ∧ c'.ahead.length + u.length = c.ahead.length := by
  obtain ⟨u, hu, -, hP⟩ := hx _ c a c' rfl hrun
  have hlength := congrArg List.length hu
  simp only [Cursor.kinds, List.length_map, List.length_append] at hlength
  exact ⟨u, hP, by omega⟩

/-- Where the first readers take `m` tokens, so many fewer are left for the next ones. -/
theorem MimicsFor.bindExcused {P' : β → List TokenKind → Prop} (m : Nat)
    (hx : MimicsFor (n + m) (n' + m) R A x y)
    (htakes : Takes x P) (htakes' : Takes y P') (hP : ∀ a u, P a u → m ≤ u.length)
    (hP' : ∀ b u, P' b u → m ≤ u.length) (hf : ∀ a b, R a b → MimicsFor n n' S B (f a) (g b))
    (hdries : ∀ a, A a → Dries B (f a)) :
    MimicsFor (n + m) (n' + m) S B (x >>= f) (y >>= g) := by
  intro c d b c' hcd hn hn' heq
  obtain ⟨a, c₁, hxc, hfc⟩ := bind_eq_ok heq
  obtain ⟨u, hu, hlength⟩ := htakes.length_le hxc
  have hm := hP a u hu
  rcases hx c d a c₁ hcd hn hn' hxc with ⟨b', d₁, hyd, hR, htwin⟩ | ⟨hA, hspent⟩
  · obtain ⟨v, hv, hlength'⟩ := htakes'.length_le hyd
    have hm' := hP' b' v hv
    rcases hf a b' hR c₁ d₁ b c' htwin (by omega) (by omega) hfc with ⟨e, d', hgd, hS, htwin'⟩ | h
    · exact Or.inl ⟨e, d', (bind_of_ok hyd).trans hgd, hS, htwin'⟩
    · exact Or.inr h
  · exact Or.inr (hdries a hA c₁ b c' hspent hfc)

theorem MimicsFor.bind {P' : β → List TokenKind → Prop} (m : Nat)
    (hx : MimicsFor (n + m) (n' + m) R never x y)
    (htakes : Takes x P) (htakes' : Takes y P') (hP : ∀ a u, P a u → m ≤ u.length)
    (hP' : ∀ b u, P' b u → m ≤ u.length) (hf : ∀ a b, R a b → MimicsFor n n' S B (f a) (g b)) :
    MimicsFor (n + m) (n' + m) S B (x >>= f) (y >>= g) :=
  .bindExcused m hx htakes htakes' hP hP' hf fun _ h => h.elim

/-- What comes next may have as many tokens ahead. -/
theorem MimicsFor.andThen {P' : β → List TokenKind → Prop} (hx : MimicsFor n n' R never x y)
    (htakes : Takes x P) (htakes' : Takes y P')
    (hf : ∀ a b, R a b → MimicsFor n n' S B (f a) (g b)) :
    MimicsFor n n' S B (x >>= f) (y >>= g) :=
  .bind 0 hx htakes htakes' (fun _ _ _ => Nat.zero_le _) (fun _ _ _ => Nat.zero_le _) hf

theorem mimics_ident :
    Mimics (fun i j : Ident Span => i.shape = j.shape) never Reader.ident Reader.ident := by
  rw [← bind_pure Reader.ident]
  exact .ident fun i j h => .pure h

theorem takes_ident : Takes Reader.ident fun _ _ => True := by
  rw [← bind_pure Reader.ident]
  exact .ident fun i => .pure trivial

theorem mimics_eat (hp : p ≠ .semicolon) :
    Mimics (fun b b' : Bool => b = b') never (Reader.eat p) (Reader.eat p) := by
  rw [← bind_pure (Reader.eat p)]
  exact .eat hp (.pure rfl) (.pure rfl)

theorem takes_eat : Takes (Reader.eat p) fun _ _ => True := by
  rw [← bind_pure (Reader.eat p)]
  exact .eat (.pure trivial) (.pure trivial)

theorem mimics_expect (hp : p ≠ .semicolon) :
    Mimics (fun _ _ : Span => True) never (Reader.expect p) (Reader.expect p) := by
  rw [← bind_pure (Reader.expect p)]
  exact .expect hp fun _ _ => .pure trivial

theorem takes_expect : Takes (Reader.expect p) fun _ _ => True := by
  rw [← bind_pure (Reader.expect p)]
  exact .expect fun _ => .pure trivial

theorem sees_eq (c : Cursor) : sees p c = .ok (decide (c.kind = .punct p), c) := by
  rw [← kind_headD]
  rfl

theorem MimicsFor.sees {f : Bool → Reader γ} {g : Bool → Reader δ} (hp : p ≠ .semicolon)
    (hyes : MimicsAt (.punct p) (.punct p) S B (f true) (g true))
    (hno : MimicsFor n n' S B (f false) (g false)) :
    MimicsFor n n' S B (Reader.sees p >>= f) (Reader.sees p >>= g) := by
  intro c d b c' hcd hn hn' hfc
  rw [bind_of_ok (sees_eq c)] at hfc
  rw [bind_of_ok (sees_eq d)]
  rcases hcd.kinds with hkind | ⟨hsemicolon, heos, -⟩
  · rw [hkind]
    by_cases hk : c.kind = .punct p
    · rw [decide_eq_true hk] at hfc ⊢
      exact hyes c d b c' hcd hk (hkind.trans hk) hfc
    · rw [decide_eq_false hk] at hfc ⊢
      exact hno c d b c' hcd hn hn' hfc
  · rw [hsemicolon, decide_eq_false (by simpa using hp.symm)] at hfc
    rw [heos, decide_eq_false (by simp)]
    exact hno c d b c' hcd hn hn' hfc

theorem eat_eq (p : Punct) (c : Cursor) :
    ∃ s, eat p c =
      if c.kind = .punct p then .ok (true, ⟨c.ahead.drop 1, s⟩) else .ok (false, c) := by
  refine ⟨(c.ahead.headD ⟨.endOfSource, c.behind⟩).span, ?_⟩
  change (sees p c >>= fun r => (if r.1 = true then _ else _ : Reader Bool) r.2) = _
  rw [sees_eq]
  by_cases hk : c.kind = .punct p
  · rw [if_pos hk, decide_eq_true hk]
    rfl
  · rw [if_neg hk, decide_eq_false hk]
    rfl

/-- Where the second source lacks the semicolon ahead, only semicolons are ahead. -/
theorem MimicsFor.peek {f : TokenKind → Reader γ} {g : TokenKind → Reader δ}
    (hf : ∀ k, MimicsAt k k S B (f k) (g k) ∨ MimicsFor n n' S B (f k) (g k))
    (hdries : Dries B (f (.punct .semicolon))) :
    MimicsFor n n' S B (Reader.peek >>= f) (Reader.peek >>= g) := by
  intro c d b c' hcd hn hn' heq
  rw [bind_of_ok (peek_eq c)] at heq
  rw [bind_of_ok (peek_eq d)]
  rcases hcd.kinds with hkind | ⟨hsemicolon, -, hspent⟩
  · rw [hkind]
    rcases hf c.kind with h | h
    · exact h c d b c' hcd rfl hkind heq
    · exact h c d b c' hcd hn hn' heq
  · rw [hsemicolon] at heq
    exact Or.inr (hdries c b c' hspent heq)

theorem MimicsFor.eat {f : Bool → Reader γ} {g : Bool → Reader δ} (hp : p ≠ .semicolon)
    (hyes : MimicsFor n n' S B (f true) (g true)) (hno : Mimics S B (f false) (g false)) :
    MimicsFor (n + 1) (n' + 1) S B (Reader.eat p >>= f) (Reader.eat p >>= g) := by
  intro c d b c' hcd hn hn' heq
  obtain ⟨s, hc⟩ := eat_eq p c
  obtain ⟨s', hd⟩ := eat_eq p d
  by_cases hk : c.kind = .punct p
  · have hkind : d.kind = c.kind := by
      refine hcd.kinds.resolve_right fun h => hp ?_
      simpa using hk.symm.trans h.1
    rw [if_pos hk] at hc
    rw [if_pos (hkind.trans hk)] at hd
    rw [bind_of_ok hc] at heq
    rw [bind_of_ok hd]
    refine hyes _ _ b c' (hcd.drop hkind (by simp [hk])) ?_ ?_ heq
    · simpa using hn
    · simpa using hn'
  · have hk' : d.kind ≠ .punct p := by
      rcases hcd.kinds with hkind | ⟨-, heos, -⟩
      · rwa [hkind]
      · simp [heos]
    rw [if_neg hk] at hc
    rw [if_neg hk'] at hd
    rw [bind_of_ok hc] at heq
    rw [bind_of_ok hd]
    exact hno _ _ c d b c' hcd rfl rfl heq

end Rules

/-! ## Expressions -/

/-- The readers of a layer do the same in twins.  A statement that ends with an empty one is
excused. -/
structure Echoing (l : Layer) : Prop where
  taken : Taken l
  statement : Mimics Stmt.Alike (fun s => s.endsEmpty = true)
    l.statement l.statement
  expr : Mimics Expr.Alike never l.expr l.expr
  branches : Mimics (fun r r' => r.1.shape = r'.1.shape ∧ r.2.shape = r'.2.shape) never
    l.branches l.branches
  operand : Mimics Expr.Alike never l.operand l.operand
  chain (rank : Nat) {left left' : Expr Span} : left.Alike left' →
    Mimics Expr.Alike never (l.chain rank left) (l.chain rank left')
  member {target target' : Expr Span} : target.Alike target' →
    Mimics Expr.Alike never (l.member target) (l.member target')

theorem echoing_closed : Echoing .closed where
  taken := taken_closed
  statement := mimics_fail
  expr := mimics_fail
  branches := mimics_fail
  operand := mimics_fail
  chain _ _ _ _ := mimics_fail
  member _ := mimics_fail

theorem mimics_dottedTail (star : Bool) (n n' : Nat) {done done' : List (Ident Span)}
    (hdone : done.map Ident.shape = done'.map Ident.shape) :
    MimicsFor n n' (fun r r' => r.1.map Ident.shape = r'.1.map Ident.shape ∧ r.2 = r'.2) never
      (dottedTail star n done) (dottedTail star n' done') := by
  have hend (b : Bool) : Mimics (fun r r' : List (Ident Span) × Bool =>
      r.1.map Ident.shape = r'.1.map Ident.shape ∧ r.2 = r'.2) never
      (pure (done.reverse, b)) (pure (done'.reverse, b)) :=
    .pure ⟨by rw [List.map_reverse, List.map_reverse, hdone], rfl⟩
  induction n generalizing n' done done' with
  | zero => exact mimicsFor_zero_left
  | succ n ih =>
      cases n' with
      | zero => exact mimicsFor_zero_right
      | succ n' =>
          rw [dottedTail, dottedTail]
          refine .eat (by simp) ?_ (hend false)
          have hmore : MimicsFor n n' (fun r r' : List (Ident Span) × Bool =>
              r.1.map Ident.shape = r'.1.map Ident.shape ∧ r.2 = r'.2) never
              (ident >>= fun i => dottedTail star n (i :: done))
              (ident >>= fun i => dottedTail star n' (i :: done')) := by
            refine mimics_ident.bounded.andThen takes_ident takes_ident fun i j hij => ?_
            refine ih n' (by simp [hij, hdone]) fun b => .pure ⟨by simp [hij, hdone], rfl⟩
          rw [if_pos rfl, if_pos rfl]
          refine .sees (by simp) ?_ ?_
          · cases star with
            | true => exact .advance (by simp) fun _ _ => hend true
            | false => exact mimicsAt_ident (by simp)
          · rw [Bool.and_false, if_neg (by simp), if_neg (by simp)]
            exact hmore

theorem mimics_dotted :
    Mimics (fun path path' : Dotted Span => path.shape = path'.shape) never dotted dotted := by
  unfold dotted
  refine .ident fun i j hij => .remaining fun n n' => ?_
  refine (mimics_dottedTail false n n' rfl).andThen (takes_dottedTail _ _ _)
    (takes_dottedTail _ _ _) fun r r' hr => Mimics.bounded (.pure ?_)
  rw [Dotted.shape, Dotted.shape, hij, hr.1]

section Layers

variable {inner : Layer}

theorem Echoing.arguments (h : Echoing inner) :
    Mimics (fun es es' : List (Expr Span) => es.map Expr.shape = es'.map Expr.shape) never
      (arguments inner) (arguments inner) := by
  have htail (n n' : Nat) (done done' : List (Expr Span))
      (hdone : done.map Expr.shape = done'.map Expr.shape) :
      MimicsFor n n' (fun es es' : List (Expr Span) => es.map Expr.shape = es'.map Expr.shape) never
        (argumentTail inner n done) (argumentTail inner n' done') := by
    induction n generalizing n' done done' with
    | zero => exact mimicsFor_zero_left
    | succ n ih =>
        cases n' with
        | zero => exact mimicsFor_zero_right
        | succ n' =>
            rw [argumentTail, argumentTail]
            refine .bind 1 h.expr.bounded h.taken.expr h.taken.expr
              (fun e u hu => List.length_pos_of_ne_nil hu.nonempty)
              (fun e u hu => List.length_pos_of_ne_nil hu.nonempty) fun e e' he => ?_
            refine (mimics_eat (by simp)).bounded.andThen takes_eat takes_eat fun b b' hb => ?_
            subst hb
            split
            · exact Mimics.bounded (.pure (by simp [he, hdone]))
            · refine (mimics_expect (by simp)).bounded.andThen takes_expect takes_expect
                fun _ _ _ => ?_
              exact ih n' _ _ (by simp [he, hdone])
  unfold Reader.arguments
  refine .expect (by simp) fun _ _ => .eat (by simp) (.pure rfl) ?_
  exact .remaining fun n n' => htail n n' [] [] rfl

theorem Echoing.construction (h : Echoing inner) (start start' : Span) :
    MimicsAt (.keyword .newWord) (.keyword .newWord) Expr.Alike never
      (construction inner start) (construction inner start') := by
  unfold Reader.construction
  refine .advance (by simp) fun _ _ => mimics_dotted.bind fun cls cls' hcls => ?_
  refine h.arguments.bind fun args args' hargs => .get fun c d _ => .pure ?_
  simp [Expr.Alike, Expr.shape, Expr.listShape_eq_map, hcls, hargs]

theorem Echoing.named (h : Echoing inner) :
    Mimics Expr.Alike never (named inner) (named inner) := by
  unfold Reader.named
  refine .ident fun i j hij => .sees (by simp) ?_ ?_
  · refine (h.arguments _ _).bind fun args args' hargs => .get fun c d _ => .pure ?_
    simp [Expr.Alike, Expr.shape, Expr.listShape_eq_map, hij, hargs]
  · refine .pure ?_
    simp [Expr.Alike, Expr.shape, Dotted.shape, Dotted.single, hij]

theorem Echoing.bracketed (h : Echoing inner) (start start' : Span) :
    MimicsAt (.punct .openParen) (.punct .openParen) Expr.Alike never
      (bracketed inner start) (bracketed inner start') := by
  unfold Reader.bracketed
  refine .advance (by simp) fun _ _ => h.expr.bind fun e e' he => .expect (by simp) fun s s' => ?_
  exact .pure (by rw [Expr.Alike, Expr.shape_retag, Expr.shape_retag, he])

theorem Echoing.primary (h : Echoing inner) :
    Mimics Expr.Alike never (primary inner) (primary inner) := by
  unfold Reader.primary
  refine .next (fun k s s' => ?_) fun s s' => mimics_fail _ _
  cases k with
  | int n => exact .advance (by simp) fun _ _ => .pure rfl
  | str v => exact .advance (by simp) fun _ _ => .pure rfl
  | ident name => exact h.named _ _
  | keyword word =>
      cases word
      case trueWord | falseWord | nullWord => exact .advance (by simp) fun _ _ => .pure rfl
      case newWord => exact h.construction s s'
      all_goals exact mimics_fail _ _
  | punct p =>
      cases p
      case openParen => exact h.bracketed s s'
      all_goals exact mimics_fail _ _
  | endOfSource => exact mimics_fail _ _

theorem mimicsAt_assignable {γ δ : Type} {S : γ → δ → Prop} {B : γ → Prop} {k : TokenKind}
    {e e' : Expr Span} {f : Ident Span → Reader γ} {g : Ident Span → Reader δ}
    (he : e.Alike e')
    (hf : ∀ v v', v.shape = v'.shape → MimicsAt k k S B (f v) (g v')) :
    MimicsAt k k S B (assignable e >>= f) (assignable e' >>= g) := by
  have hfail {s : Span} {cause : Cause} {y : Reader δ} :
      MimicsAt k k S B (failAt s cause >>= f) y := by
    intro c d b c' _ _ _ heq
    cases heq
  cases e with
  | name t path =>
      cases e' <;> simp only [Expr.Alike, Expr.shape, Expr.name.injEq, true_and, reduceCtorEq] at he
      next t' path' =>
        rw [Dotted.shape, Dotted.shape, Dotted.mk.injEq] at he
        obtain ⟨first, rest⟩ := path
        obtain ⟨first', rest'⟩ := path'
        rw [assignable, assignable]
        cases rest with
        | cons i rest => exact hfail
        | nil =>
            obtain rfl : rest' = [] := by simpa using he.2.symm
            exact hf first first' he.1
  | _ => exact hfail

theorem mimics_counted {e e' : Expr Span} (he : e.Alike e') :
    Mimics Expr.Alike never (counted e) (counted e') := by
  have hsame (k k' : TokenKind) : MimicsAt k k' Expr.Alike never
      (pure e) (pure e') :=
    Mimics.pure he k k'
  unfold counted
  refine .peek (fun k => ?_) ?_
  · cases k with
    | punct p =>
        cases p
        case increment | decrement =>
          exact mimicsAt_assignable he fun v v' hv => .advance (by simp) fun t t' =>
            .pure (by simp [Expr.Alike, Expr.shape, hv])
        all_goals exact hsame _ _
    | _ => exact hsame _ _
  · exact hsame _ _

theorem Echoing.suffixes (h : Echoing inner) {e e' : Expr Span} (he : e.Alike e') :
    Mimics Expr.Alike never (suffixes inner e) (suffixes inner e') := by
  unfold Reader.suffixes
  refine (mimics_counted he).bind fun e₁ e₁' h₁ => (mimics_counted h₁).bind fun e₂ e₂' h₂ => ?_
  exact .eat (by simp) (h.member h₂) (.pure h₂)

theorem Echoing.around_member (h : Echoing inner) {target target' : Expr Span}
    (htarget : target.Alike target') :
    Mimics Expr.Alike never
      (Reader.member inner target) (Reader.member inner target') := by
  unfold Reader.member
  refine .ident fun m m' hm => .sees (by simp) ?_ ?_
  · refine (h.arguments _ _).bind fun args args' hargs => .get fun c d _ => h.suffixes ?_
    simp [Expr.Alike, Expr.shape, Expr.listShape_eq_map, htarget, hm, hargs]
  · refine h.suffixes ?_
    cases target <;> cases target' <;>
      simp_all [Expr.Alike, Expr.shape, Dotted.shape, Dotted.snoc]

theorem Echoing.unary (h : Echoing inner) :
    Mimics Expr.Alike never (unary inner) (unary inner) := by
  have hprimary (k k' : TokenKind) : MimicsAt k k' Expr.Alike never
      (Reader.primary inner >>= Reader.suffixes inner)
      (Reader.primary inner >>= Reader.suffixes inner) :=
    (h.primary k k').bind fun e e' he => h.suffixes he
  unfold Reader.unary
  refine .next (fun k s s' => ?_) fun s s' => hprimary _ _
  cases k with
  | punct p =>
      cases p
      case minus | bang =>
        exact .advance (by simp) fun _ _ => h.operand.bind fun e e' he =>
          .pure (by simp [Expr.Alike, Expr.shape, he])
      case plus => exact .advance (by simp) fun _ _ => h.operand
      all_goals exact hprimary _ _
  | _ => exact hprimary _ _

/-- Twins have the same operator ahead. -/
theorem Mimics.operator? {γ δ : Type} {S : γ → δ → Prop} {B : γ → Prop} {rank : Nat}
    {f : Option BinaryOp → Reader γ} {g : Option BinaryOp → Reader δ}
    (hsome : ∀ op p, MimicsAt (.punct p) (.punct p) S B (f (some op)) (g (some op)))
    (hnone : Mimics S B (f none) (g none)) :
    Mimics S B (Reader.operator? rank >>= f) (Reader.operator? rank >>= g) := by
  rw [Reader.operator?, bind_assoc, bind_assoc]
  refine .peek (fun k => ?_) (hnone _ _)
  rw [pure_bind, pure_bind]
  cases k with
  | punct p =>
      simp only
      generalize (BinaryOp.ofPunct? p).filter _ = op
      cases op with
      | none => exact hnone _ _
      | some op => exact hsome op p
  | _ => exact hnone _ _

theorem Echoing.binary (h : Echoing inner) (ranks : Nat) :
    Mimics Expr.Alike never (binary inner ranks) (binary inner ranks) := by
  induction ranks with
  | zero => simpa [Reader.binary] using h.unary
  | succ rank ih =>
      unfold Reader.binary
      refine ih.bind fun left left' hleft => ?_
      exact .operator? (fun op p => h.chain rank hleft _ _) (.pure hleft)

theorem Echoing.around_chain (h : Echoing inner) (rank : Nat) {left left' : Expr Span}
    (hleft : left.Alike left') :
    Mimics Expr.Alike never
      (Reader.chain inner rank left) (Reader.chain inner rank left') := by
  unfold Reader.chain
  refine .operator? (fun op p => ?_) (.pure hleft)
  refine .advance (by simp) fun _ _ => (h.binary rank).bind fun right right' hright => ?_
  have hboth (t t' : Span) : (Expr.binary t op left right).shape =
      (Expr.binary t' op left' right').shape := by
    simp [Expr.shape, hleft, hright]
  exact .operator? (fun op' p' => h.chain rank (hboth _ _) _ _) (.pure (hboth _ _))

theorem Echoing.ternary (h : Echoing inner) :
    Mimics Expr.Alike never (ternary inner) (ternary inner) := by
  unfold Reader.ternary
  refine (h.binary _).bind fun cond cond' hcond => .eat (by simp) ?_ (.pure hcond)
  exact h.branches.bind fun r r' hr => .pure (by simp [Expr.Alike, Expr.shape, hcond, hr])

theorem Echoing.around_branches (h : Echoing inner) :
    Mimics (fun r r' => r.1.shape = r'.1.shape ∧ r.2.shape = r'.2.shape) never
      (Reader.branches inner) (Reader.branches inner) := by
  unfold Reader.branches
  exact h.ternary.bind fun yes yes' hyes => .expect (by simp) fun _ _ =>
    h.ternary.bind fun no no' hno => .pure ⟨hyes, hno⟩

theorem Echoing.around_expr (h : Echoing inner) :
    Mimics Expr.Alike never (Reader.expr inner) (Reader.expr inner) := by
  unfold Reader.expr
  refine h.ternary.bind fun left left' hleft => ?_
  have hsame (k k' : TokenKind) : MimicsAt k k' Expr.Alike never
      (pure left) (pure left') :=
    Mimics.pure hleft k k'
  refine .peek (fun k => ?_) (hsame _ _)
  cases hop : assignment? k with
  | none => exact hsame _ _
  | some op =>
      refine mimicsAt_assignable hleft fun v v' hv =>
        .advance (assignment?_eq_some hop).2 fun _ _ => ?_
      exact h.expr.bind fun value value' hvalue =>
        .pure (by simp [Expr.Alike, Expr.shape, hv, hvalue])

/-! ## Statements -/

/-- What makes tokens go on like a declaration are their kinds. -/
def declaresKinds : List TokenKind → Bool
  | .punct .dot :: .ident _ :: ks => declaresKinds ks
  | [.ident _] => true
  | .ident _ :: k :: _ => k = .punct .assign || k = .punct .semicolon || k = .endOfSource
  | _ => false

theorem declaresAfterName_eq (ts : List Token) :
    declaresAfterName ts = declaresKinds (ts.map Token.kind) := by
  fun_induction declaresAfterName ts with
  | case1 s name s' rest ih => simpa [declaresKinds] using ih
  | case2 => rfl
  | case3 => simp [declaresKinds]
  | case4 ts hdot hlast hname =>
      cases ts with
      | nil => rfl
      | cons t rest =>
          obtain ⟨k, s⟩ := t
          cases k with
          | ident name =>
              cases rest with
              | nil => exact absurd rfl (hlast name s)
              | cons t' rest => exact absurd rfl (hname name s t' rest)
          | punct p =>
              cases p with
              | dot =>
                  cases rest with
                  | nil => rfl
                  | cons t' rest =>
                      obtain ⟨k', s'⟩ := t'
                      cases k' with
                      | ident name => exact absurd rfl (hdot s name s' rest)
                      | _ => rfl
              | _ => rfl
          | _ => rfl

theorem declaresKinds_twin (u : List TokenKind) {semicolons : List TokenKind}
    (h : ∀ k ∈ semicolons, k = .punct .semicolon) :
    declaresKinds (u ++ semicolons ++ [.endOfSource]) = declaresKinds (u ++ [.endOfSource]) := by
  induction u using List.twoStepInduction with
  | nil =>
      cases semicolons with
      | nil => rfl
      | cons k ks => rw [h k List.mem_cons_self]; rfl
  | singleton k =>
      cases semicolons with
      | nil => rfl
      | cons k' ks =>
          rw [h k' List.mem_cons_self]
          cases k with
          | punct p => cases p <;> rfl
          | _ => rfl
  | cons_cons k k' u ih _ =>
      cases k with
      | punct p =>
          cases p with
          | dot =>
              cases k' with
              | ident => exact ih
              | _ => rfl
          | _ => rfl
      | _ => rfl

theorem not_declares {c : Cursor} (h : ∀ name, c.kind ≠ .ident name) :
    declares c.ahead = false := by
  obtain ⟨ahead, behind⟩ := c
  cases ahead with
  | nil => rfl
  | cons t rest =>
      obtain ⟨k, s⟩ := t
      cases k with
      | ident name => exact absurd rfl (h name)
      | _ => rfl

/-- Twins begin declarations alike. -/
theorem Twin.declares {c d : Cursor} (h : Twin c d) :
    Reader.declares d.ahead = Reader.declares c.ahead := by
  rcases h.kinds with hkind | ⟨hsemicolon, heos, -⟩
  · by_cases hname : ∃ name, c.kind = .ident name
    · obtain ⟨name, hname⟩ := hname
      obtain ⟨u, semicolons, hc, hd, hsemicolons⟩ := h
      obtain ⟨ahead, behind⟩ := c
      obtain ⟨ahead', behind'⟩ := d
      cases u with
      | nil =>
          rw [hname, Cursor.kind, hd] at hkind
          cases hkind
      | cons k u =>
          rw [Cursor.kinds, List.cons_append, List.cons_append, List.map_eq_cons_iff] at hc
          rw [Cursor.kinds, List.cons_append, List.map_eq_cons_iff] at hd
          obtain ⟨⟨_, s⟩, rest, rfl, rfl, hrest⟩ := hc
          obtain ⟨⟨_, s'⟩, rest', rfl, rfl, hrest'⟩ := hd
          obtain rfl := hname
          change declaresAfterName rest' = declaresAfterName rest
          rw [declaresAfterName_eq, declaresAfterName_eq, hrest, hrest',
            declaresKinds_twin u hsemicolons]
    · rw [not_exists] at hname
      rw [not_declares hname, not_declares (hkind ▸ hname)]
  · rw [not_declares (by simp [heos]), not_declares (by simp [hsemicolon])]

theorem typeName_shape {path path' : Dotted Span} (h : path.shape = path'.shape) :
    (typeName path).shape = (typeName path').shape := by
  obtain ⟨first, rest⟩ := path
  obtain ⟨first', rest'⟩ := path'
  have hparts := h
  rw [Dotted.shape, Dotted.shape, Dotted.mk.injEq] at hparts
  have hname : first.name = first'.name := congrArg (Ident.name (α := Unit)) hparts.1
  cases rest with
  | nil =>
      obtain rfl : rest' = [] := by simpa using hparts.2.symm
      simp only [typeName, hname]
      split_ifs
      · rfl
      · split
        · rfl
        · exact congrArg TypeName.cls h
  | cons i rest =>
      cases rest' with
      | nil => simp at hparts
      | cons i' rest' => exact congrArg TypeName.cls h

theorem Echoing.declaration (h : Echoing inner) :
    Mimics (fun d d' : Declaration Span => d.shape = d'.shape) never
      (declaration inner) (declaration inner) := by
  unfold Reader.declaration
  refine mimics_dotted.bind fun path path' hpath => .ident fun i j hij => ?_
  have htype := typeName_shape hpath
  refine .eat (by simp) ?_ ?_
  · exact h.expr.bind fun e e' he => .pure (by simp [Declaration.shape, htype, hij, he])
  · rw [if_neg (by simp), if_neg (by simp)]
    cases hfirst : typeName path <;> cases hsecond : typeName path' <;>
      simp only [hfirst, hsecond, TypeName.shape, reduceCtorEq] at htype
    · exact mimics_failAt
    · exact .pure (by simp [Declaration.shape, TypeName.shape, htype, hij])
    · exact .pure (by simp [Declaration.shape, TypeName.shape, htype, hij])

theorem Echoing.simple (h : Echoing inner) :
    Mimics (fun s s' : Simple Span => s.shape = s'.shape) never (simple inner) (simple inner) := by
  unfold Reader.simple
  refine .get fun c d hcd => ?_
  rw [hcd.declares]
  split
  · exact h.declaration.bind fun d d' hd => .pure (by simp [Simple.shape, hd])
  · exact h.expr.bind fun e e' he => .pure (by simp [Simple.shape, he])

/-- What is left for the second reader where the first one has taken the last semicolon. -/
theorem MimicsAt.peekRight {γ δ : Type} {S : γ → δ → Prop} {B : γ → Prop} {k k' : TokenKind}
    {x : Reader γ} {g : TokenKind → Reader δ} (h : MimicsAt k k' S B x (g k')) :
    MimicsAt k k' S B x (peek >>= g) := by
  intro c d b c' hcd hc hd heq
  rw [bind_of_ok (peek_eq d), hd]
  exact h c d b c' hcd hc hd heq

theorem Echoing.nested (h : Echoing inner) :
    Mimics Stmt.Alike (fun s => s.endsEmpty = true) (nested inner) (nested inner) := by
  unfold Reader.nested
  refine fun k k' => (h.statement k k').bindExcused (fun s t hst => ?_) fun s hs => ?_
  · have hsame : Mimics Stmt.Alike (fun s => s.endsEmpty = true) (pure s : Reader (Stmt Span))
        (pure t) := .pure hst
    cases s <;> cases t <;> simp only [Stmt.Alike, Stmt.shape, reduceCtorEq] at hst
    case block | ifThen | ifElse | «while» | «for» => exact hsame
    case empty => exact .expectSemicolon (fun _ _ => hsame) fun _ => .pure rfl
    all_goals
      refine .eatSemicolon hsame ?_ fun k => .peekRight (hsame _ _)
      refine .peek (fun k => ?_) (mimics_fail _ _)
      cases k with
      | endOfSource => exact hsame _ _
      | punct p =>
          cases p
          case closeBrace => exact hsame _ _
          all_goals exact mimics_fail _ _
      | keyword word =>
          cases word
          case elseWord => exact hsame _ _
          all_goals exact mimics_fail _ _
      | _ => exact mimics_fail _ _
  · have hdone : Dries (fun s => s.endsEmpty = true) (pure s : Reader (Stmt Span)) := .pure hs
    cases s
    case block | ifThen | ifElse | «while» | «for» => exact hdone
    case empty => exact .after takes_expect fun _ => hdone
    all_goals cases hs

/-- The closing brace of a block is not among semicolons. -/
theorem Taken.dries_blockTail (h : Taken inner) (n : Nat) (done : List (Stmt Span)) :
    Dries never (Reader.blockTail inner n done) := by
  induction n generalizing done with
  | zero => exact .fail
  | succ n ih =>
      rw [Reader.blockTail]
      exact .peek (.after h.nested fun s => ih _) .fail

theorem Echoing.blockTail (h : Echoing inner) (n n' : Nat) {done done' : List (Stmt Span)}
    (hdone : done.map Stmt.shape = done'.map Stmt.shape) :
    MimicsFor n n' (fun ss ss' : List (Stmt Span) => ss.map Stmt.shape = ss'.map Stmt.shape) never
      (Reader.blockTail inner n done) (Reader.blockTail inner n' done') := by
  induction n generalizing n' done done' with
  | zero => exact mimicsFor_zero_left
  | succ n ih =>
      cases n' with
      | zero => exact mimicsFor_zero_right
      | succ n' =>
          have hmore : MimicsFor (n + 1) (n' + 1)
              (fun ss ss' : List (Stmt Span) => ss.map Stmt.shape = ss'.map Stmt.shape) never
              (Reader.nested inner >>= fun s => Reader.blockTail inner n (s :: done))
              (Reader.nested inner >>= fun s => Reader.blockTail inner n' (s :: done')) := by
            refine .bindExcused 1 h.nested.bounded h.taken.nested h.taken.nested
              (fun s u hu => List.length_pos_of_ne_nil hu.2.2)
              (fun s u hu => List.length_pos_of_ne_nil hu.2.2)
              (fun s s' hs => ih n' (by simp [hs, hdone])) fun s _ => h.taken.dries_blockTail n _
          rw [Reader.blockTail, Reader.blockTail]
          refine .peek (fun k => ?_) (.after h.taken.nested fun s => h.taken.dries_blockTail n _)
          cases k with
          | punct p =>
              cases p
              case closeBrace =>
                exact Or.inl (.advance (by simp) fun _ _ => .pure (by simp [hdone]))
              all_goals exact Or.inr hmore
          | endOfSource => exact Or.inl (mimics_fail _ _)
          | _ => exact Or.inr hmore

theorem Echoing.block (h : Echoing inner) :
    MimicsAt (.punct .openBrace) (.punct .openBrace) Stmt.Alike (fun s => s.endsEmpty = true)
      (block inner) (block inner) := by
  unfold Reader.block
  refine .advance (by simp) fun _ _ => .remaining fun n n' => ?_
  refine (@Echoing.blockTail _ h n n' [] [] rfl).andThen (h.taken.blockTail _ _)
    (h.taken.blockTail _ _) fun ss ss' hss => Mimics.bounded (.pure ?_)
  simp [Stmt.Alike, Stmt.shape, Stmt.listShape_eq_map, hss]

theorem Echoing.condition (h : Echoing inner) :
    Mimics Expr.Alike never (condition inner) (condition inner) := by
  unfold Reader.condition
  exact .expect (by simp) fun _ _ => h.expr.bind fun e e' he =>
    .expect (by simp) fun _ _ => .pure he

/-- A statement that ends with another one is excused if that is. -/
theorem Echoing.ending (h : Echoing inner) {f g : Stmt Span → Stmt Span}
    (hshape : ∀ s s', s.Alike s' → (f s).Alike (g s'))
    (hempty : ∀ s, s.endsEmpty = true → (f s).endsEmpty = true) :
    Mimics Stmt.Alike (fun s => s.endsEmpty = true) (Reader.nested inner >>= fun s => pure (f s))
      (Reader.nested inner >>= fun s => pure (g s)) :=
  fun k k' => (h.nested k k').bindExcused (fun s s' hs => .pure (hshape s s' hs))
    fun s hs => .pure (hempty s hs)

theorem Echoing.choice (h : Echoing inner) :
    MimicsAt (.keyword .ifWord) (.keyword .ifWord) Stmt.Alike (fun s => s.endsEmpty = true)
      (choice inner) (choice inner) := by
  unfold Reader.choice
  refine .advance (by simp) fun _ _ => h.condition.bind fun cond cond' hcond => ?_
  refine fun k k' => (h.nested k k').bindExcused (fun yes yes' hyes => ?_) fun yes hyes => ?_
  · have hsame : Mimics Stmt.Alike (fun s => s.endsEmpty = true)
        (pure (.ifThen cond yes) : Reader (Stmt Span)) (pure (.ifThen cond' yes')) :=
      .pure (by simp [Stmt.Alike, Stmt.shape, hcond, hyes])
    refine .peek (fun k => ?_) (hsame _ _)
    by_cases hk : k = .keyword .elseWord
    · subst hk
      rw [if_pos rfl, if_pos rfl]
      exact .advance (by simp) fun _ _ => h.ending (f := .ifElse cond yes) (g := .ifElse cond' yes')
        (fun no no' hno => by simp [Stmt.Alike, Stmt.shape, hcond, hyes, hno]) fun no hno => hno
    · rw [if_neg hk, if_neg hk]
      exact hsame _ _
  · exact .peek (.pure hyes) (.pure hyes)

theorem Echoing.whileLoop (h : Echoing inner) :
    MimicsAt (.keyword .whileWord) (.keyword .whileWord) Stmt.Alike (fun s => s.endsEmpty = true)
      (whileLoop inner) (whileLoop inner) := by
  unfold Reader.whileLoop
  exact .advance (by simp) fun _ _ => h.condition.bind fun cond cond' hcond =>
    h.ending (f := .while cond) (g := .while cond')
      (fun body body' hbody => by simp [Stmt.Alike, Stmt.shape, hcond, hbody])
      fun body hbody => hbody

theorem Echoing.optional (h : Echoing inner) {stop : Punct} (hstop : stop ≠ .semicolon) :
    Mimics (fun e e' : Option (Expr Span) => e.map Expr.shape = e'.map Expr.shape) never
      (optional inner stop) (optional inner stop) := by
  have hnone : Mimics (fun e e' : Option (Expr Span) => e.map Expr.shape = e'.map Expr.shape) never
      (pure none) (pure none) := .pure rfl
  unfold Reader.optional
  refine .sees hstop (hnone _ _) ?_
  exact h.expr.bind fun e e' he => .pure (by simp [he])

/-- Behind the condition of a head comes a semicolon, and a bracket further on. -/
theorem Echoing.optionalSemicolon (h : Echoing inner) {γ δ : Type} {S : γ → δ → Prop}
    {B : γ → Prop} {f : Option (Expr Span) → Reader γ} {g : Option (Expr Span) → Reader δ}
    (hf : ∀ e e', e.map Expr.shape = e'.map Expr.shape → Mimics S B (f e) (g e'))
    (hdries : ∀ e, Dries B (f e)) :
    Mimics S B (Reader.optional inner .semicolon >>= f)
      (Reader.optional inner .semicolon >>= g) := by
  rw [Reader.optional, bind_assoc, bind_assoc]
  refine .seesSemicolon (hf none none rfl _ _) ?_ (hdries none)
  change Mimics S B ((inner.expr >>= fun e => pure (some e)) >>= f)
    ((inner.expr >>= fun e => pure (some e)) >>= g)
  rw [bind_assoc, bind_assoc]
  exact h.expr.bind fun e e' he => hf (some e) (some e') (by simp [he])

theorem Echoing.forLoop (h : Echoing inner) :
    MimicsAt (.keyword .forWord) (.keyword .forWord) Stmt.Alike (fun s => s.endsEmpty = true)
      (forLoop inner) (forLoop inner) := by
  unfold Reader.forLoop
  refine .advance (by simp) fun _ _ => .expect (by simp) fun _ _ => ?_
  extract_lets rest
  have hdries (init : Option (Simple Span)) : Dries (fun s => s.endsEmpty = true) (rest init) :=
    .after takes_expect fun _ => .after (h.taken.optional _) fun _ => .after takes_expect fun _ =>
      .after (h.taken.optional _) fun _ => .expect (by simp)
  have hrest (init init' : Option (Simple Span))
      (hinit : init.map Simple.shape = init'.map Simple.shape) :
      Mimics Stmt.Alike (fun s => s.endsEmpty = true) (rest init) (rest init') := by
    refine .expectSemicolon (fun _ _ => h.optionalSemicolon (fun cond cond' hcond => ?_) ?_) ?_
    · refine .expectSemicolon (fun _ _ => ?_) fun _ => .after (h.taken.optional _) fun _ =>
        .expect (by simp)
      refine (h.optional (by simp)).bind fun update update' hupdate =>
        .expect (by simp) fun _ _ => ?_
      exact h.ending (f := .for init cond update) (g := .for init' cond' update')
        (fun body body' hbody => by
          simp [Stmt.Alike, Stmt.shape, hinit, hcond, hupdate, hbody]) fun body hbody => hbody
    · exact fun _ => .after takes_expect fun _ => .after (h.taken.optional _) fun _ =>
        .expect (by simp)
    · exact fun _ => .after (h.taken.optional _) fun _ => .after takes_expect fun _ =>
        .after (h.taken.optional _) fun _ => .expect (by simp)
  refine .seesSemicolon (hrest none none rfl _ _) ?_ (hdries none)
  have hinit : Mimics (fun init init' : Option (Simple Span) =>
      init.map Simple.shape = init'.map Simple.shape) never
      (some <$> Reader.simple inner) (some <$> Reader.simple inner) := by
    rw [map_eq_pure_bind]
    exact h.simple.bind fun s s' hs => .pure (by simp [hs])
  exact hinit.bind hrest

theorem Echoing.around_statement (h : Echoing inner) :
    Mimics Stmt.Alike (fun s => s.endsEmpty = true) (Reader.statement inner)
      (Reader.statement inner) := by
  have hsimple (k k' : TokenKind) : MimicsAt k k' Stmt.Alike (fun s => s.endsEmpty = true)
      (Reader.simple inner >>= fun s => pure (.simple s))
      (Reader.simple inner >>= fun s => pure (.simple s)) :=
    (h.simple k k').bind fun s s' hs => .pure (by simp [Stmt.Alike, Stmt.shape, hs])
  unfold Reader.statement
  refine .next (fun k s s' => ?_) fun s s' => ?_
  · cases k with
    | punct p =>
        cases p
        case openBrace => exact h.block
        case semicolon => exact Mimics.pure (R := Stmt.Alike) rfl _ _
        all_goals exact hsimple _ _
    | keyword word =>
        cases word
        case ifWord => exact h.choice
        case whileWord => exact h.whileLoop
        case forWord => exact h.forLoop
        case breakWord | continueWord => exact .advance (by simp) fun _ _ => .pure rfl
        case elseWord => exact mimics_fail _ _
        all_goals exact hsimple _ _
    | _ => exact hsimple _ _
  · intro c d b c' hcd hc hd heq
    cases heq
    rcases hcd.kinds with hkind | ⟨-, -, hspent⟩
    · rw [hc, hd] at hkind
      cases hkind
    · exact Or.inr ⟨rfl, hspent⟩

/-- The readers of one more layer do the same in twins. -/
theorem Echoing.around (h : Echoing inner) : Echoing (.around inner) where
  taken := h.taken.around
  statement := h.around_statement
  expr := h.around_expr
  branches := h.around_branches
  operand := h.unary
  chain := h.around_chain
  member := h.around_member

end Layers

/-- The readers of a layer do the same in twins. -/
theorem echoing_layer (n : Nat) : Echoing (layer n) := by
  induction n with
  | zero => exact echoing_closed
  | succ n ih => exact ih.around

/-! ## Snippets -/

theorem mimicsAt_importing : MimicsAt (.keyword .importWord) (.keyword .importWord)
    (fun t t' => t.shape = t'.shape) (fun t => t.endsEmpty = true) importing importing := by
  unfold importing
  refine .advance (by simp) fun _ _ => .ident fun i j hij => .remaining fun n n' => ?_
  refine (mimics_dottedTail true n n' rfl).andThen (takes_dottedTail _ _ _)
    (takes_dottedTail _ _ _) fun r r' hr => Mimics.bounded (.pure ?_)
  simp [TopLevel.shape, Dotted.shape, hij, hr]

theorem mimics_snippet : Mimics (fun t t' => t.shape = t'.shape) (fun t => t.endsEmpty = true)
    snippet snippet := by
  unfold snippet
  extract_lets rest
  have hrest (t t' : TopLevel Span) (ht : t.shape = t'.shape) :
      Mimics (fun t t' => t.shape = t'.shape) (fun t => t.endsEmpty = true) (rest t) (rest t') := by
    have hsame : Mimics (fun t t' : TopLevel Span => t.shape = t'.shape)
        (fun t => t.endsEmpty = true) (pure t) (pure t') := .pure ht
    refine .eatSemicolon (.peek (fun k => ?_) (mimics_fail _ _))
      (.peek (fun k => ?_) (mimics_fail _ _)) fun _ =>
        Mimics.peek (fun k => ?_) (mimics_fail _ _) _ _
    all_goals
      cases k with
      | endOfSource => exact hsame _ _
      | _ => exact mimics_fail _ _
  have hdries (t : TopLevel Span) (ht : t.endsEmpty = true) :
      Dries (fun t => t.endsEmpty = true) (rest t) :=
    .after takes_eat fun _ => .peek .fail (.pure ht)
  have hstmt (k k' : TokenKind) : MimicsAt k k' (fun t t' => t.shape = t'.shape)
      (fun t => t.endsEmpty = true) (TopLevel.stmt <$> (layer maxNesting).statement >>= rest)
      (TopLevel.stmt <$> (layer maxNesting).statement >>= rest) := by
    rw [map_eq_pure_bind, bind_assoc]
    refine ((echoing_layer maxNesting).statement k k').bindExcused (fun s s' hs => ?_)
      fun s hs => ?_
    · exact hrest (.stmt s) (.stmt s') (congrArg TopLevel.stmt hs)
    · exact hdries (.stmt s) hs
  refine .peek (fun k => ?_) (hstmt _ _)
  cases k with
  | keyword word =>
      cases word
      case importWord => exact mimicsAt_importing.bindExcused hrest hdries
      all_goals exact hstmt _ _
  | _ => exact hstmt _ _

end Reader

/-- A snippet that does not end with an empty statement can be read without the semicolons at its
end, and it says the same then. -/
theorem parse_twin {tokens tokens' : List Token} {t : TopLevel Span}
    {ks semicolons : List TokenKind} (h : parse tokens = .ok t)
    (hkinds : tokens.map Token.kind = ks ++ semicolons ++ [.endOfSource])
    (hkinds' : tokens'.map Token.kind = ks ++ [.endOfSource])
    (hsemicolons : ∀ k ∈ semicolons, k = .punct .semicolon) (hempty : t.endsEmpty = false) :
    ∃ t', parse tokens' = .ok t' ∧ t'.shape = t.shape := by
  rcases hrun : Reader.snippet ⟨tokens, ⟨0, 0⟩⟩ with f | ⟨t₁, c⟩
  · rw [parse, StateT.run, hrun] at h
    cases h
  · rw [parse, StateT.run, hrun] at h
    cases h
    have htwin : Reader.Twin ⟨tokens, ⟨0, 0⟩⟩ ⟨tokens', ⟨0, 0⟩⟩ :=
      ⟨ks, semicolons, hkinds, hkinds', hsemicolons⟩
    rcases Reader.mimics_snippet _ _ _ _ _ _ htwin rfl rfl hrun with
      ⟨t', c', hrun', hshape, -⟩ | ⟨hexcuse, -⟩
    · refine ⟨t', ?_, hshape.symm⟩
      rw [parse, StateT.run, hrun']
      rfl
    · rw [hempty] at hexcuse
      cases hexcuse

end Syntax
end GuardedRepl
