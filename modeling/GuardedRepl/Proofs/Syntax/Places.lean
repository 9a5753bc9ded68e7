import GuardedRepl.Proofs.Source.Places
import GuardedRepl.Syntax.Parser

/-!
# Places in a tree

A reader takes its spans from the tokens, and where it makes new ones they reach from one span to
another.  So what holds of the spans of all tokens, and passes on to such stretches, holds of every
tag in the tree and of the place of a fault.

**Results.**
* `Marks.bind`, `marks_advance`, …: one reader after another.
* `marking_layer`: what the readers of a layer mark.
* `tagged_of_parse`, `place_of_parse_fault`: the tags of a snippet, and the place of a fault.
-/

namespace GuardedRepl
namespace Syntax

open Source

variable {α β : Type}

/-! ## Tags -/

/-- The tags of a dotted name are of some kind. -/
def Dotted.Tagged (G : α → Prop) (path : Dotted α) : Prop :=
  ∀ i ∈ path.parts, G i.tag

/-- The tags of an expression are of some kind. -/
inductive Expr.Tagged (G : α → Prop) : Expr α → Prop
  | int {t : α} {n : Int64} : G t → Tagged G (.int t n)
  | str {t : α} {s : String} : G t → Tagged G (.str t s)
  | bool {t : α} {b : Bool} : G t → Tagged G (.bool t b)
  | null {t : α} : G t → Tagged G (.null t)
  | name {t : α} {path : Dotted α} : G t → path.Tagged G → Tagged G (.name t path)
  | field {t : α} {target : Expr α} {member : Ident α} :
      G t → Tagged G target → G member.tag → Tagged G (.field t target member)
  | call {t : α} {target : Expr α} {method : Ident α} {args : List (Expr α)} :
      G t → Tagged G target → G method.tag → (∀ e ∈ args, Tagged G e) →
      Tagged G (.call t target method args)
  | bareCall {t : α} {method : Ident α} {args : List (Expr α)} :
      G t → G method.tag → (∀ e ∈ args, Tagged G e) → Tagged G (.bareCall t method args)
  | new {t : α} {cls : Dotted α} {args : List (Expr α)} :
      G t → cls.Tagged G → (∀ e ∈ args, Tagged G e) → Tagged G (.new t cls args)
  | unary {t : α} {op : UnaryOp} {operand : Expr α} :
      G t → Tagged G operand → Tagged G (.unary t op operand)
  | binary {t : α} {op : BinaryOp} {left right : Expr α} :
      G t → Tagged G left → Tagged G right → Tagged G (.binary t op left right)
  | ternary {t : α} {cond yes no : Expr α} :
      G t → Tagged G cond → Tagged G yes → Tagged G no → Tagged G (.ternary t cond yes no)
  | assign {t : α} {target : Ident α} {op : Option ArithOp} {value : Expr α} :
      G t → G target.tag → Tagged G value → Tagged G (.assign t target op value)
  | step {t : α} {target : Ident α} {op : StepOp} :
      G t → G target.tag → Tagged G (.step t target op)

/-- The tags of the type in a declaration are of some kind. -/
def TypeName.Tagged (G : α → Prop) : TypeName α → Prop
  | .cls path => path.Tagged G
  | .inferred | .primitive _ => True

/-- The tags of a declaration are of some kind. -/
structure Declaration.Tagged (G : α → Prop) (d : Declaration α) : Prop where
  type : d.type.Tagged G
  name : G d.name.tag
  init : ∀ e ∈ d.init, e.Tagged G

/-- The tags of a statement without parts that are statements are of some kind. -/
inductive Simple.Tagged (G : α → Prop) : Simple α → Prop
  | declare {d : Declaration α} : d.Tagged G → Tagged G (.declare d)
  | expr {e : Expr α} : e.Tagged G → Tagged G (.expr e)

/-- The tags of a statement are of some kind. -/
inductive Stmt.Tagged (G : α → Prop) : Stmt α → Prop
  | simple {s : Simple α} : s.Tagged G → Tagged G (.simple s)
  | block {body : List (Stmt α)} : (∀ s ∈ body, Tagged G s) → Tagged G (.block body)
  | ifThen {cond : Expr α} {yes : Stmt α} :
      cond.Tagged G → Tagged G yes → Tagged G (.ifThen cond yes)
  | ifElse {cond : Expr α} {yes no : Stmt α} :
      cond.Tagged G → Tagged G yes → Tagged G no → Tagged G (.ifElse cond yes no)
  | while {cond : Expr α} {body : Stmt α} :
      cond.Tagged G → Tagged G body → Tagged G (.while cond body)
  | for {init : Option (Simple α)} {cond update : Option (Expr α)} {body : Stmt α} :
      (∀ s ∈ init, s.Tagged G) → (∀ e ∈ cond, e.Tagged G) → (∀ e ∈ update, e.Tagged G) →
      Tagged G body → Tagged G (.for init cond update body)
  | break {t : α} : G t → Tagged G (.break t)
  | continue {t : α} : G t → Tagged G (.continue t)
  | empty : Tagged G .empty

/-- The tags of a snippet are of some kind. -/
inductive TopLevel.Tagged (G : α → Prop) : TopLevel α → Prop
  | importing {path : Dotted α} {wildcard : Bool} :
      path.Tagged G → Tagged G (.importing path wildcard)
  | stmt {s : Stmt α} : s.Tagged G → Tagged G (.stmt s)

theorem Dotted.Tagged.single {G : α → Prop} {i : Ident α} (h : G i.tag) :
    (Dotted.single i).Tagged G :=
  List.forall_mem_singleton.mpr h

theorem Dotted.Tagged.snoc {G : α → Prop} {path : Dotted α} {i : Ident α} (h : path.Tagged G)
    (hi : G i.tag) : (path.snoc i).Tagged G :=
  List.forall_mem_append.mpr ⟨h, List.forall_mem_singleton.mpr hi⟩

theorem Expr.Tagged.tag {G : α → Prop} {e : Expr α} (h : e.Tagged G) : G e.tag := by
  cases h <;> assumption

theorem Expr.Tagged.retag {G : α → Prop} {e : Expr α} {t : α} (h : e.Tagged G) (ht : G t) :
    (e.retag t).Tagged G := by
  cases h with
  | int _ => exact .int ht
  | str _ => exact .str ht
  | bool _ => exact .bool ht
  | null _ => exact .null ht
  | name _ hpath => exact .name ht hpath
  | field _ htarget hmember => exact .field ht htarget hmember
  | call _ htarget hmethod hargs => exact .call ht htarget hmethod hargs
  | bareCall _ hmethod hargs => exact .bareCall ht hmethod hargs
  | new _ hcls hargs => exact .new ht hcls hargs
  | unary _ he => exact .unary ht he
  | binary _ hl hr => exact .binary ht hl hr
  | ternary _ hc hy hn => exact .ternary ht hc hy hn
  | assign _ hv he => exact .assign ht hv he
  | step _ hv => exact .step ht hv

/-! ## Rules -/

/-- All spans that a reader comes by at a cursor are of some kind. -/
structure Cursor.Placed (G : Span → Prop) (c : Cursor) : Prop where
  ahead : ∀ t ∈ c.ahead, G t.span
  behind : G c.behind

namespace Reader

/-- A reader that begins where all spans are of some kind marks only such spans, in a fault and in
its result, and it stops where all spans are of that kind. -/
def Marks (G : Span → Prop) (x : Reader α) (P : α → Prop) : Prop :=
  ∀ c, c.Placed G → (∀ f, x c = .error f → G f.span) ∧
    ∀ a c', x c = .ok (a, c') → P a ∧ c'.Placed G

variable {G : Span → Prop}

section Rules

variable {x : Reader α} {f : α → Reader β} {P Q : α → Prop} {R : β → Prop}

theorem Marks.mono (hx : Marks G x P) (h : ∀ a, P a → Q a) : Marks G x Q :=
  fun c hc => ⟨(hx c hc).1, fun a c' heq => ((hx c hc).2 a c' heq).imp_left (h a)⟩

theorem Marks.pure {a : α} (h : P a) : Marks G (pure a) P := by
  refine fun c hc => ⟨fun f heq => (nomatch heq), fun b c' heq => ?_⟩
  cases heq
  exact ⟨h, hc⟩

theorem Marks.bind (hx : Marks G x P) (hf : ∀ a, P a → Marks G (f a) R) :
    Marks G (x >>= f) R := by
  intro c hc
  change (∀ e, (x c >>= fun r => f r.1 r.2) = .error e → G e.span) ∧
    ∀ b c', (x c >>= fun r => f r.1 r.2) = .ok (b, c') → R b ∧ c'.Placed G
  obtain ⟨herror, hok⟩ := hx c hc
  rcases hxc : x c with e | ⟨a, d⟩
  · refine ⟨fun e' heq => ?_, fun b c' heq => nomatch heq⟩
    cases heq
    exact herror e hxc
  · obtain ⟨ha, hd⟩ := hok a d hxc
    exact hf a ha d hd

theorem Marks.map {g : α → β} (hx : Marks G x fun a => R (g a)) : Marks G (g <$> x) R := by
  rw [map_eq_pure_bind]
  exact hx.bind fun a ha => .pure ha

theorem marks_failAt {s : Span} {cause : Cause} (hs : G s) : Marks G (failAt s cause) P := by
  refine fun c hc => ⟨fun f heq => ?_, fun b c' heq => nomatch heq⟩
  cases heq
  exact hs

theorem marks_get : Marks G get (Cursor.Placed G) := by
  refine fun c hc => ⟨fun f heq => (nomatch heq), fun b c' heq => ?_⟩
  cases heq
  exact ⟨hc, hc⟩

theorem placed_headD {c : Cursor} (hc : c.Placed G) :
    G (c.ahead.headD ⟨.endOfSource, c.behind⟩).span := by
  obtain ⟨hahead, hbehind⟩ := hc
  rcases c with ⟨_ | ⟨t, rest⟩, behind⟩
  · exact hbehind
  · exact hahead t List.mem_cons_self

theorem marks_next : Marks G next fun t => G t.span :=
  marks_get.bind fun _ hc => .pure (placed_headD hc)

theorem marks_advance : Marks G advance fun t => G t.span := by
  refine fun c hc => ⟨fun f heq => (nomatch heq), fun t c' heq => ?_⟩
  cases heq
  exact ⟨placed_headD hc, fun t ht => hc.ahead t (List.mem_of_mem_drop ht), placed_headD hc⟩

theorem marks_peek : Marks G peek fun _ => True :=
  marks_next.bind fun _ _ => .pure trivial

theorem marks_sees (p : Punct) : Marks G (sees p) fun _ => True :=
  marks_peek.bind fun _ _ => .pure trivial

theorem marks_fail {cause : Cause} : Marks G (fail cause) P :=
  marks_next.bind fun _ ht => marks_failAt ht

theorem marks_eat (p : Punct) : Marks G (eat p) fun _ => True := by
  refine (marks_sees p).bind fun b _ => ?_
  split
  · exact marks_advance.bind fun _ _ => .pure trivial
  · exact .pure trivial

theorem marks_expect (p : Punct) : Marks G (expect p) G := by
  refine (marks_sees p).bind fun b _ => ?_
  split
  · exact marks_advance.bind fun _ ht => .pure ht
  · exact marks_fail

theorem marks_ident : Marks G ident fun i => G i.tag := by
  refine marks_next.bind fun t ht => ?_
  split
  · exact marks_advance.bind fun _ _ => .pure ht
  · exact marks_fail

theorem marks_remaining : Marks G remaining fun _ => True :=
  marks_get.bind fun _ _ => .pure trivial

end Rules

theorem marks_dottedTail (star : Bool) (n : Nat) {done : List (Ident Span)}
    (hdone : ∀ i ∈ done, G i.tag) :
    Marks G (dottedTail star n done) fun r => ∀ i ∈ r.1, G i.tag := by
  have hend (b : Bool) : Marks G (pure (done.reverse, b) : Reader (List (Ident Span) × Bool))
      fun r => ∀ i ∈ r.1, G i.tag := .pure fun i hi => hdone i (List.mem_reverse.mp hi)
  induction n generalizing done with
  | zero => exact hend false
  | succ n ih =>
      have hmore : Marks G (ident >>= fun i => dottedTail star n (i :: done))
          fun r => ∀ i ∈ r.1, G i.tag := by
        refine marks_ident.bind fun i hi => ?_
        have hdone' : ∀ j ∈ i :: done, G j.tag := List.forall_mem_cons.mpr ⟨hi, hdone⟩
        exact ih hdone' fun b => .pure fun j hj => hdone' j (List.mem_reverse.mp hj)
      rw [dottedTail]
      refine (marks_eat .dot).bind fun b _ => ?_
      split
      · refine (marks_sees .times).bind fun b _ => ?_
        split
        · exact marks_advance.bind fun _ _ => hend true
        · exact hmore
      · exact hend false

theorem marks_dotted : Marks G dotted (Dotted.Tagged G) := by
  refine marks_ident.bind fun first hfirst => marks_remaining.bind fun n _ => ?_
  exact (marks_dottedTail false n fun _ hi => absurd hi List.not_mem_nil).bind fun r hr =>
    .pure (List.forall_mem_cons.mpr ⟨hfirst, hr⟩)

theorem marks_importing : Marks G importing (TopLevel.Tagged G) := by
  refine marks_advance.bind fun _ _ => marks_ident.bind fun first hfirst => ?_
  refine marks_remaining.bind fun n _ => ?_
  exact (marks_dottedTail true n fun _ hi => absurd hi List.not_mem_nil).bind fun r hr =>
    .pure (.importing (List.forall_mem_cons.mpr ⟨hfirst, hr⟩))

/-! ## Expressions -/

/-- What the readers of a layer mark. -/
structure Marking (G : Span → Prop) (l : Layer) : Prop where
  statement : Marks G l.statement (Stmt.Tagged G)
  expr : Marks G l.expr (Expr.Tagged G)
  branches : Marks G l.branches fun r => r.1.Tagged G ∧ r.2.Tagged G
  operand : Marks G l.operand (Expr.Tagged G)
  chain (rank : Nat) {left : Expr Span} :
    left.Tagged G → Marks G (l.chain rank left) (Expr.Tagged G)
  member {target : Expr Span} : target.Tagged G → Marks G (l.member target) (Expr.Tagged G)

theorem marking_closed : Marking G .closed where
  statement := marks_fail
  expr := marks_fail
  branches := marks_fail
  operand := marks_fail
  chain _ _ _ := marks_fail
  member _ := marks_fail

theorem marks_assignable {e : Expr Span} (he : e.Tagged G) :
    Marks G (assignable e) fun i => G i.tag := by
  unfold assignable
  split
  · next t path =>
      cases he with
      | name ht hpath =>
          split
          · exact .pure (hpath path.first List.mem_cons_self)
          · exact marks_failAt ht
  · exact marks_failAt he.tag

theorem marks_operator? (rank : Nat) : Marks G (operator? rank) fun _ => True :=
  marks_peek.bind fun _ _ => .pure trivial

section Layers

variable {inner : Layer}

theorem Marking.argumentTail (h : Marking G inner) (n : Nat) {done : List (Expr Span)}
    (hdone : ∀ e ∈ done, e.Tagged G) :
    Marks G (argumentTail inner n done) fun es => ∀ e ∈ es, e.Tagged G := by
  induction n generalizing done with
  | zero => exact marks_fail
  | succ n ih =>
      rw [Reader.argumentTail]
      refine h.expr.bind fun e he => (marks_eat _).bind fun b _ => ?_
      have hdone' := List.forall_mem_cons.mpr ⟨he, hdone⟩
      split
      · exact .pure fun e he => hdone' e (List.mem_reverse.mp he)
      · exact (marks_expect _).bind fun _ _ => ih hdone'

theorem Marking.arguments (h : Marking G inner) :
    Marks G (arguments inner) fun es => ∀ e ∈ es, e.Tagged G := by
  have hnil : ∀ e ∈ ([] : List (Expr Span)), e.Tagged G := fun _ he => absurd he List.not_mem_nil
  refine (marks_expect _).bind fun _ _ => (marks_eat _).bind fun b _ => ?_
  split
  · exact .pure hnil
  · exact marks_remaining.bind fun n _ => h.argumentTail n hnil

section Stretches

variable [Span.Closed G]

theorem Marking.construction (h : Marking G inner) {start : Span} (hstart : G start) :
    Marks G (construction inner start) (Expr.Tagged G) :=
  marks_advance.bind fun _ _ => marks_dotted.bind fun _ hcls => h.arguments.bind fun _ hargs =>
    marks_get.bind fun _ hc => .pure (.new (Span.Closed.through hstart hc.behind) hcls hargs)

theorem Marking.named (h : Marking G inner) : Marks G (named inner) (Expr.Tagged G) := by
  refine marks_ident.bind fun i hi => (marks_sees _).bind fun b _ => ?_
  split
  · exact h.arguments.bind fun _ hargs => marks_get.bind fun _ hc =>
      .pure (.bareCall (Span.Closed.through hi hc.behind) hi hargs)
  · exact .pure (.name hi (.single hi))

theorem Marking.bracketed (h : Marking G inner) {start : Span} (hstart : G start) :
    Marks G (bracketed inner start) (Expr.Tagged G) :=
  marks_advance.bind fun _ _ => h.expr.bind fun _ he => (marks_expect _).bind fun _ hstop =>
    .pure (he.retag (Span.Closed.through hstart hstop))

theorem Marking.primary (h : Marking G inner) : Marks G (primary inner) (Expr.Tagged G) := by
  unfold Reader.primary
  refine marks_next.bind fun t ht => ?_
  split
  · exact marks_advance.bind fun _ _ => .pure (.int ht)
  · exact marks_advance.bind fun _ _ => .pure (.str ht)
  · exact marks_advance.bind fun _ _ => .pure (.bool ht)
  · exact marks_advance.bind fun _ _ => .pure (.bool ht)
  · exact marks_advance.bind fun _ _ => .pure (.null ht)
  · exact h.construction ht
  · exact marks_fail
  · exact h.bracketed ht
  · exact marks_fail
  · exact h.named
  · exact marks_fail

theorem marks_counted {e : Expr Span} (he : e.Tagged G) :
    Marks G (counted e) (Expr.Tagged G) := by
  refine marks_peek.bind fun k _ => ?_
  extract_lets op
  clear_value op
  split
  · exact .pure he
  · exact (marks_assignable he).bind fun v hv => marks_advance.bind fun t ht =>
      .pure (.step (Span.Closed.through he.tag ht) hv)

theorem Marking.suffixes (h : Marking G inner) {e : Expr Span} (he : e.Tagged G) :
    Marks G (suffixes inner e) (Expr.Tagged G) := by
  refine (marks_counted he).bind fun e he => (marks_counted he).bind fun e he => ?_
  refine (marks_eat _).bind fun b _ => ?_
  split
  · exact h.member he
  · exact .pure he

theorem Marking.around_member (h : Marking G inner) {target : Expr Span}
    (htarget : target.Tagged G) : Marks G (Reader.member inner target) (Expr.Tagged G) := by
  refine marks_ident.bind fun m hm => (marks_sees _).bind fun b _ => ?_
  split
  · exact h.arguments.bind fun _ hargs => marks_get.bind fun _ hc =>
      h.suffixes (.call (Span.Closed.through htarget.tag hc.behind) htarget hm hargs)
  · have hspan := Span.Closed.through htarget.tag hm
    refine h.suffixes ?_
    split
    · cases htarget with
      | name _ hpath => exact .name hspan (hpath.snoc hm)
    · exact .field hspan htarget hm

theorem Marking.unary (h : Marking G inner) : Marks G (unary inner) (Expr.Tagged G) := by
  refine marks_next.bind fun t ht => ?_
  split
  · exact marks_advance.bind fun _ _ => h.operand.bind fun e he =>
      .pure (.unary (Span.Closed.through ht he.tag) he)
  · exact marks_advance.bind fun _ _ => h.operand.bind fun e he =>
      .pure (.unary (Span.Closed.through ht he.tag) he)
  · exact marks_advance.bind fun _ _ => h.operand
  · exact (h.primary).bind fun e he => h.suffixes he

theorem Marking.binary (h : Marking G inner) (ranks : Nat) :
    Marks G (binary inner ranks) (Expr.Tagged G) := by
  induction ranks with
  | zero => exact h.unary
  | succ rank ih =>
      refine ih.bind fun left hleft => (marks_operator? rank).bind fun op _ => ?_
      split
      · exact h.chain rank hleft
      · exact .pure hleft

theorem Marking.around_chain (h : Marking G inner) (rank : Nat) {left : Expr Span}
    (hleft : left.Tagged G) : Marks G (Reader.chain inner rank left) (Expr.Tagged G) := by
  refine (marks_operator? rank).bind fun op _ => ?_
  split
  · exact .pure hleft
  · next op =>
      refine marks_advance.bind fun _ _ => (h.binary rank).bind fun right hright => ?_
      have he : (Expr.binary (left.tag.through right.tag) op left right).Tagged G :=
        .binary (Span.Closed.through hleft.tag hright.tag) hleft hright
      refine (marks_operator? rank).bind fun op' _ => ?_
      split
      · exact h.chain rank he
      · exact .pure he

theorem Marking.ternary (h : Marking G inner) : Marks G (ternary inner) (Expr.Tagged G) := by
  refine (h.binary _).bind fun cond hcond => (marks_eat _).bind fun b _ => ?_
  split
  · exact h.branches.bind fun r hr =>
      .pure (.ternary (Span.Closed.through hcond.tag hr.2.tag) hcond hr.1 hr.2)
  · exact .pure hcond

theorem Marking.around_branches (h : Marking G inner) :
    Marks G (Reader.branches inner) fun r => r.1.Tagged G ∧ r.2.Tagged G :=
  (h.ternary).bind fun _ hyes => (marks_expect _).bind fun _ _ =>
    (h.ternary).bind fun _ hno => .pure ⟨hyes, hno⟩

theorem Marking.around_expr (h : Marking G inner) :
    Marks G (Reader.expr inner) (Expr.Tagged G) := by
  refine (h.ternary).bind fun left hleft => marks_peek.bind fun k _ => ?_
  split
  · exact .pure hleft
  · exact (marks_assignable hleft).bind fun v hv => marks_advance.bind fun _ _ =>
      h.expr.bind fun value hvalue =>
        .pure (.assign (Span.Closed.through hleft.tag hvalue.tag) hv hvalue)

end Stretches

/-! ## Statements -/

theorem tagged_typeName {path : Dotted Span} (h : path.Tagged G) : (typeName path).Tagged G := by
  unfold typeName
  split
  · split
    · trivial
    · split
      · trivial
      · exact h
  · exact h

theorem Marking.declaration (h : Marking G inner) :
    Marks G (declaration inner) (Declaration.Tagged G) := by
  refine marks_dotted.bind fun path hpath => marks_ident.bind fun name hname => ?_
  have htype := tagged_typeName hpath
  refine (marks_eat _).bind fun b _ => ?_
  split
  · refine h.expr.bind fun e he => .pure ⟨htype, hname, fun e' he' => ?_⟩
    cases he'
    exact he
  · split
    · exact marks_failAt hname
    · exact .pure ⟨htype, hname, fun _ he => nomatch he⟩

theorem Marking.simple (h : Marking G inner) : Marks G (simple inner) (Simple.Tagged G) := by
  refine marks_get.bind fun c _ => ?_
  split
  · exact h.declaration.bind fun d hd => .pure (.declare hd)
  · exact h.expr.bind fun e he => .pure (.expr he)

theorem Marking.nested (h : Marking G inner) : Marks G (nested inner) (Stmt.Tagged G) := by
  refine h.statement.bind fun s hs => ?_
  split
  any_goals exact .pure hs
  · exact (marks_expect _).bind fun _ _ => .pure hs
  all_goals
    refine (marks_eat _).bind fun b _ => ?_
    split
    · exact .pure hs
    · refine marks_peek.bind fun k _ => ?_
      split
      any_goals exact .pure hs
      exact marks_fail

theorem Marking.blockTail (h : Marking G inner) (n : Nat) {done : List (Stmt Span)}
    (hdone : ∀ s ∈ done, s.Tagged G) :
    Marks G (blockTail inner n done) fun ss => ∀ s ∈ ss, s.Tagged G := by
  induction n generalizing done with
  | zero => exact marks_fail
  | succ n ih =>
      rw [Reader.blockTail]
      refine marks_peek.bind fun k _ => ?_
      split
      · exact marks_advance.bind fun _ _ =>
          .pure fun s hs => hdone s (List.mem_reverse.mp hs)
      · exact marks_fail
      · exact h.nested.bind fun s hs => ih (List.forall_mem_cons.mpr ⟨hs, hdone⟩)

theorem Marking.block (h : Marking G inner) : Marks G (block inner) (Stmt.Tagged G) :=
  marks_advance.bind fun _ _ => marks_remaining.bind fun n _ =>
    (h.blockTail n fun _ hs => absurd hs List.not_mem_nil).bind fun _ hbody =>
      .pure (.block hbody)

theorem Marking.condition (h : Marking G inner) : Marks G (condition inner) (Expr.Tagged G) :=
  (marks_expect _).bind fun _ _ => h.expr.bind fun _ he => (marks_expect _).bind fun _ _ =>
    .pure he

theorem Marking.choice (h : Marking G inner) : Marks G (choice inner) (Stmt.Tagged G) := by
  refine marks_advance.bind fun _ _ => h.condition.bind fun cond hcond => ?_
  refine h.nested.bind fun yes hyes => marks_peek.bind fun k _ => ?_
  split
  · exact marks_advance.bind fun _ _ => h.nested.bind fun no hno => .pure (.ifElse hcond hyes hno)
  · exact .pure (.ifThen hcond hyes)

theorem Marking.whileLoop (h : Marking G inner) : Marks G (whileLoop inner) (Stmt.Tagged G) :=
  marks_advance.bind fun _ _ => h.condition.bind fun _ hcond => h.nested.bind fun _ hbody =>
    .pure (.while hcond hbody)

theorem Marking.optional (h : Marking G inner) (stop : Punct) :
    Marks G (optional inner stop) fun e => ∀ e' ∈ e, e'.Tagged G := by
  refine (marks_sees stop).bind fun b _ => ?_
  split
  · exact .pure fun _ he => nomatch he
  · refine h.expr.bind fun e he => .pure fun e' he' => ?_
    cases he'
    exact he

theorem Marking.forLoop (h : Marking G inner) : Marks G (forLoop inner) (Stmt.Tagged G) := by
  refine marks_advance.bind fun _ _ => (marks_expect _).bind fun _ _ => ?_
  refine (marks_sees _).bind fun b _ => ?_
  extract_lets rest
  have hrest (init : Option (Simple Span)) (hinit : ∀ s ∈ init, s.Tagged G) :
      Marks G (rest init) (Stmt.Tagged G) :=
    (marks_expect _).bind fun _ _ => (h.optional _).bind fun cond hcond =>
      (marks_expect _).bind fun _ _ => (h.optional _).bind fun update hupdate =>
        (marks_expect _).bind fun _ _ => h.nested.bind fun body hbody =>
          .pure (.for hinit hcond hupdate hbody)
  split
  · exact hrest none fun _ hs => nomatch hs
  · refine Marks.bind (.map (h.simple.mono fun s hs => ?_)) hrest
    rintro s' ⟨⟩
    exact hs

theorem Marking.around_statement (h : Marking G inner) :
    Marks G (Reader.statement inner) (Stmt.Tagged G) := by
  refine marks_next.bind fun t ht => ?_
  split
  · exact h.block
  · exact .pure .empty
  · exact h.choice
  · exact h.whileLoop
  · exact h.forLoop
  · exact marks_advance.bind fun _ _ => .pure (.break ht)
  · exact marks_advance.bind fun _ _ => .pure (.continue ht)
  · exact marks_fail
  · exact h.simple.bind fun s hs => .pure (.simple hs)

/-- What the readers of one more layer mark. -/
theorem Marking.around [Span.Closed G] (h : Marking G inner) : Marking G (.around inner) where
  statement := h.around_statement
  expr := h.around_expr
  branches := h.around_branches
  operand := h.unary
  chain rank _ hleft := h.around_chain rank hleft
  member htarget := h.around_member htarget

end Layers

/-- What the readers of a layer mark. -/
theorem marking_layer [Span.Closed G] (n : Nat) : Marking G (layer n) := by
  induction n with
  | zero => exact marking_closed
  | succ n ih => exact ih.around

/-! ## Snippets -/

theorem marks_snippet [Span.Closed G] : Marks G snippet (TopLevel.Tagged G) := by
  unfold snippet
  refine marks_peek.bind fun k _ => ?_
  extract_lets rest
  have hrest (t : TopLevel Span) (ht : t.Tagged G) : Marks G (rest t) (TopLevel.Tagged G) := by
    refine (marks_eat _).bind fun _ _ => marks_peek.bind fun k _ => ?_
    split
    · exact .pure ht
    · exact marks_fail
  split
  · exact marks_importing.bind hrest
  · exact Marks.bind (.map ((marking_layer maxNesting).statement.mono fun s hs => .stmt hs)) hrest

end Reader

section Parse

variable {G : Span → Prop} [Span.Closed G] {tokens : List Token}

theorem placed_start (htokens : ∀ t ∈ tokens, G t.span) : Cursor.Placed G ⟨tokens, ⟨0, 0⟩⟩ :=
  ⟨htokens, Span.Closed.zero⟩

/-- All tags of a snippet are of a kind that the spans of the tokens are of. -/
theorem tagged_of_parse (htokens : ∀ t ∈ tokens, G t.span) {tree : TopLevel Span}
    (h : parse tokens = .ok tree) : tree.Tagged G := by
  obtain ⟨-, hok⟩ := Reader.marks_snippet _ (placed_start htokens)
  unfold parse at h
  rcases hrun : Reader.snippet.run ⟨tokens, ⟨0, 0⟩⟩ with f | ⟨t, c⟩ <;> rw [hrun] at h <;> cases h
  exact (hok _ _ hrun).1

/-- So is the place of a fault. -/
theorem place_of_parse_fault (htokens : ∀ t ∈ tokens, G t.span) {f : Fault}
    (h : parse tokens = .error f) : G f.span := by
  obtain ⟨herror, -⟩ := Reader.marks_snippet _ (placed_start htokens)
  unfold parse at h
  rcases hrun : Reader.snippet.run ⟨tokens, ⟨0, 0⟩⟩ with f | ⟨t, c⟩ <;> rw [hrun] at h <;> cases h
  exact herror _ hrun

end Parse

end Syntax
end GuardedRepl
