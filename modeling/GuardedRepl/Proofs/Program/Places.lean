import GuardedRepl.Program.Resolve
import GuardedRepl.Proofs.Syntax.Places

/-!
# Places of findings

The look-up of names points at tags of the tree, or at the stretch that a dotted name takes up.

**Results.**
* `Checked.placed_pure`, `Checked.Placed.seq`, …: the findings of one look-up after another.
* `placed_resolve`: the places of all findings in a snippet.
-/

namespace GuardedRepl
namespace Program

open Source (Span)
open Syntax (Ident Dotted)

/-! ## Rules -/

namespace Checked

variable {α β : Type} {G : Span → Prop}

/-- All places of findings are of some kind. -/
def Placed (G : Span → Prop) (x : Checked α) : Prop :=
  ∀ f ∈ x.findings, G f.span

theorem placed_pure (a : α) : Placed G (pure a : Checked α) :=
  fun _ hf => absurd hf List.not_mem_nil

theorem placed_reject {span : Span} {cause : Cause} (h : G span) :
    Placed G (reject span cause : Checked α) :=
  List.forall_mem_singleton.mpr h

theorem placed_warn {span : Span} {cause : Cause} (a : α) (h : G span) :
    Placed G (warn span cause a) :=
  List.forall_mem_singleton.mpr h

theorem Placed.seq {f : Checked (α → β)} {x : Checked α} (hf : f.Placed G) (hx : x.Placed G) :
    Placed G (f <*> x) :=
  List.forall_mem_append.mpr ⟨hf, hx⟩

theorem Placed.map {x : Checked α} (g : α → β) (hx : x.Placed G) : Placed G (g <$> x) :=
  (placed_pure g).seq hx

end Checked

open Checked

variable {G : Span → Prop}

/-! ## Names -/

theorem place_of_pathSpan [Span.Closed G] {path : Dotted Span} (h : path.Tagged G) :
    G (pathSpan path) := by
  have hfirst : G path.first.tag := h path.first List.mem_cons_self
  refine Span.Closed.through hfirst ?_
  cases hlast : path.rest.getLast? with
  | none => exact hfirst
  | some i => exact h i (List.mem_cons_of_mem _ (List.mem_of_getLast? hlast))

theorem placed_findName (env : Env) {tag : Span} {path : Dotted Span} (htag : G tag)
    (h : path.Tagged G) : (env.findName tag path).Placed G := by
  unfold Env.findName
  split
  · exact placed_pure _
  · split
    · exact placed_reject (h path.first List.mem_cons_self)
    · split
      · exact placed_reject htag
      · next m members hdrop =>
          split
          · exact placed_pure _
          · refine placed_reject (h m (List.mem_of_mem_drop (hdrop ▸ List.mem_cons_self)))

theorem placed_findVariable (env : Env) {i : Ident Span} (h : G i.tag) :
    (env.findVariable i).Placed G := by
  unfold Env.findVariable
  split
  · exact placed_pure _
  · exact placed_reject h

theorem placed_findConstructor [Span.Closed G] (env : Env) {path : Dotted Span}
    (h : path.Tagged G) : (env.findConstructor path).Placed G := by
  unfold Env.findConstructor
  split
  · split
    · exact placed_pure _
    · exact placed_reject (place_of_pathSpan h)
  · exact placed_reject (place_of_pathSpan h)

theorem placed_findClass [Span.Closed G] (env : Env) {path : Dotted Span} (h : path.Tagged G) :
    (env.findClass path).Placed G := by
  unfold Env.findClass
  split
  · exact placed_pure _
  · exact placed_reject (place_of_pathSpan h)

/-! ## Expressions -/

mutual

theorem placed_resolveExpr [Span.Closed G] (env : Env) :
    ∀ e : Syntax.Expr Span, e.Tagged G → (resolveExpr env e).Placed G
  | .int _ _, _ => placed_pure _
  | .str _ _, _ => placed_pure _
  | .bool _ _, _ => placed_pure _
  | .null _, _ => placed_pure _
  | .name tag path, .name htag hpath => by
      rw [resolveExpr]
      exact placed_findName env htag hpath
  | .field _ target _, .field _ htarget _ => by
      rw [resolveExpr]
      exact (placed_resolveExpr env target htarget).map _
  | .bareCall _ _ _, .bareCall _ hm _ => placed_reject hm
  | .call _ target m args, .call _ htarget hm hargs => by
      rw [resolveExpr]
      split
      · exact ((placed_resolveExprs env args hargs).map _).seq
          (placed_resolveExpr env target htarget)
      · refine ((placed_resolveExprs env args hargs).map _).seq ?_
        split
        · exact placed_pure _
        · exact placed_reject hm
  | .new _ path args, .new _ hpath hargs => by
      rw [resolveExpr]
      exact ((placed_resolveExprs env args hargs).map _).seq (placed_findConstructor env hpath)
  | .unary _ _ e, .unary _ he => by
      rw [resolveExpr]
      exact (placed_resolveExpr env e he).map _
  | .binary _ _ l r, .binary _ hl hr => by
      rw [resolveExpr]
      exact ((placed_resolveExpr env l hl).map _).seq (placed_resolveExpr env r hr)
  | .ternary _ c y n, .ternary _ hc hy hn => by
      rw [resolveExpr]
      exact (((placed_resolveExpr env c hc).map _).seq (placed_resolveExpr env y hy)).seq
        (placed_resolveExpr env n hn)
  | .assign _ v _ e, .assign _ hv he => by
      rw [resolveExpr]
      exact ((placed_findVariable env hv).map _).seq (placed_resolveExpr env e he)
  | .step _ v _, .step _ hv => by
      rw [resolveExpr]
      exact (placed_findVariable env hv).map _

theorem placed_resolveExprs [Span.Closed G] (env : Env) : ∀ es : List (Syntax.Expr Span),
    (∀ e ∈ es, e.Tagged G) → (resolveExprs env es).Placed G
  | [], _ => placed_pure _
  | e :: es, h => by
      obtain ⟨he, hes⟩ := List.forall_mem_cons.mp h
      rw [resolveExprs]
      exact ((placed_resolveExpr env e he).map _).seq (placed_resolveExprs env es hes)

end

theorem placed_resolveOptional [Span.Closed G] (env : Env) {e : Option (Syntax.Expr Span)}
    (h : ∀ e' ∈ e, e'.Tagged G) : (resolveOptional env e).Placed G := by
  cases e with
  | none => exact placed_pure _
  | some e => exact (placed_resolveExpr env e (h e rfl)).map _

/-! ## Statements -/

theorem placed_resolveDeclaration [Span.Closed G] (env : Env) {d : Syntax.Declaration Span}
    (h : d.Tagged G) : (resolveDeclaration env d).Placed G := by
  obtain ⟨htype, hname, hinit⟩ := h
  refine ((Placed.map _ ?_).seq (placed_resolveOptional env hinit)).seq ?_
  · rcases d with ⟨_ | p | path, name, init⟩
    · exact placed_pure _
    · exact placed_pure _
    · exact (placed_findClass env htype).map _
  · unfold freshName
    split
    · exact placed_reject hname
    · exact placed_pure _

theorem placed_resolveSimple [Span.Closed G] (env : Env) {s : Syntax.Simple Span} (h : s.Tagged G) :
    (resolveSimple env s).Placed G := by
  cases h with
  | declare hd => exact (placed_resolveDeclaration env hd).map _
  | expr he => exact (placed_resolveExpr env _ he).map _

mutual

theorem placed_resolveStmt [Span.Closed G] (env : Env) :
    ∀ s : Syntax.Stmt Span, s.Tagged G → (resolveStmt env s).Placed G
  | .simple s, .simple hs => by
      rw [resolveStmt]
      exact (placed_resolveSimple env hs).map _
  | .block body, .block hbody => by
      rw [resolveStmt]
      exact (placed_resolveStmts env body hbody).map _
  | .ifThen c yes, .ifThen hc hyes => by
      rw [resolveStmt]
      exact ((placed_resolveExpr env c hc).map _).seq (placed_resolveStmt env yes hyes)
  | .ifElse c yes no, .ifElse hc hyes hno => by
      rw [resolveStmt]
      exact (((placed_resolveExpr env c hc).map _).seq (placed_resolveStmt env yes hyes)).seq
        (placed_resolveStmt env no hno)
  | .while c body, .while hc hbody => by
      rw [resolveStmt]
      exact ((placed_resolveExpr env c hc).map _).seq
        (placed_resolveStmt env.looping body hbody)
  | .for init c update body, .for hinit hc hupdate hbody => by
      simp only [resolveStmt]
      refine (((Placed.map _ ?_).seq (placed_resolveOptional _ hc)).seq
        (placed_resolveOptional _ hupdate)).seq (placed_resolveStmt _ body hbody)
      cases init with
      | none => exact placed_pure _
      | some s => exact (placed_resolveSimple env (hinit s rfl)).map _
  | .break tag, .break htag => by
      rw [resolveStmt]
      split
      · exact placed_pure _
      · exact placed_reject htag
  | .continue tag, .continue htag => by
      rw [resolveStmt]
      split
      · exact placed_pure _
      · exact placed_reject htag
  | .empty, _ => placed_pure _

theorem placed_resolveStmts [Span.Closed G] (env : Env) : ∀ ss : List (Syntax.Stmt Span),
    (∀ s ∈ ss, s.Tagged G) → (resolveStmts env ss).Placed G
  | [], _ => placed_pure _
  | s :: ss, h => by
      obtain ⟨hs, hss⟩ := List.forall_mem_cons.mp h
      rw [resolveStmts]
      exact ((placed_resolveStmt env s hs).map _).seq (placed_resolveStmts (env.after s) ss hss)

end

/-! ## Snippets -/

theorem placed_resolveImport [Span.Closed G] (names : Names) {path : Dotted Span}
    (h : path.Tagged G) (wildcard : Bool) : (resolveImport names path wildcard).Placed G := by
  have hspan := place_of_pathSpan h
  unfold resolveImport
  simp only
  split
  · split
    · exact placed_pure _
    · exact placed_reject hspan
  · split
    · split
      · exact placed_warn _ hspan
      · exact placed_pure _
    · split
      · exact placed_reject hspan
      · exact placed_reject hspan

/-- The look-up finds fault with places of a kind that all tags of the snippet are of. -/
theorem placed_resolve [Span.Closed G] (names : Names) {tree : Syntax.TopLevel Span}
    (h : tree.Tagged G) : (resolve names tree).Placed G := by
  have hstmt (s : Syntax.Stmt Span) (hs : s.Tagged G) :
      (TopLevel.stmt <$> resolveStmt ⟨names, [], false⟩ s).Placed G :=
    (placed_resolveStmt _ s hs).map _
  unfold resolve
  split
  · cases h with
    | importing hpath => exact placed_resolveImport names hpath _
  · cases h with
    | stmt hs =>
        cases hs with
        | simple hs =>
            cases hs with
            | declare hd => exact (placed_resolveDeclaration _ hd).map _
  · cases h with
    | stmt hs =>
        cases hs with
        | simple hs =>
            cases hs with
            | expr he => exact (placed_resolveExpr _ _ he).map _
  · cases h with
    | stmt hs => exact hstmt _ hs

end Program
end GuardedRepl
