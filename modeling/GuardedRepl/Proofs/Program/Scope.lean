import GuardedRepl.Program.Resolve

/-!
# Scopes of programs

In the program of an accepted snippet every variable is one that the session offers or that was
declared around its use, every class and every member is one that the library has, and a loop can
only be left from inside it.

**Results.**
* `resolve_scoped`: the program that the look-up of names yields is scoped in this way.
* `resolve_sound`: the look-up yields a program exactly if it finds no error.
-/

namespace GuardedRepl
namespace Program

open Library

/-- The library has a class under its name. -/
def Known (c : HostClass) : Prop :=
  HostClass.ofName? c.name = some c

theorem known (c : HostClass) : Known c := by
  unfold Known
  cases c <;> decide

theorem find?_staticField (f : StaticField) : StaticField.find? f.owner f.name = some f := by
  cases f <;> decide

theorem find?_staticMethod (m : StaticMethod) : StaticMethod.find? m.owner m.name = some m := by
  cases m <;> decide

/-- The names of an expression stand for variables and for what the library has. -/
inductive Expr.Scoped (env : Env) : Expr → Prop
  | int {n : Int64} : Scoped env (.int n)
  | str {s : String} : Scoped env (.str s)
  | bool {b : Bool} : Scoped env (.bool b)
  | null : Scoped env .null
  | var {name : String} : env.isVariable name = true → Scoped env (.var name)
  | staticField {f : StaticField} :
      Known f.owner → StaticField.find? f.owner f.name = some f → Scoped env (.staticField f)
  | field {target : Expr} {name : String} : Scoped env target → Scoped env (.field target name)
  | call {target : Expr} {method : String} {args : List Expr} :
      Scoped env target → (∀ e ∈ args, Scoped env e) → Scoped env (.call target method args)
  | staticCall {m : StaticMethod} {args : List Expr} :
      Known m.owner → StaticMethod.find? m.owner m.name = some m → (∀ e ∈ args, Scoped env e) →
      Scoped env (.staticCall m args)
  | construct {c : HostClass} {args : List Expr} :
      Known c → c.isConstructible = true → (∀ e ∈ args, Scoped env e) →
      Scoped env (.construct c args)
  | unary {op : Syntax.UnaryOp} {e : Expr} : Scoped env e → Scoped env (.unary op e)
  | arith {op : Syntax.ArithOp} {l r : Expr} :
      Scoped env l → Scoped env r → Scoped env (.arith op l r)
  | compare {op : Syntax.RelOp} {l r : Expr} :
      Scoped env l → Scoped env r → Scoped env (.compare op l r)
  | logic {op : Syntax.LogicOp} {l r : Expr} :
      Scoped env l → Scoped env r → Scoped env (.logic op l r)
  | ternary {c y n : Expr} :
      Scoped env c → Scoped env y → Scoped env n → Scoped env (.ternary c y n)
  | assign {name : String} {op : Option Syntax.ArithOp} {e : Expr} :
      env.isVariable name = true → Scoped env e → Scoped env (.assign name op e)
  | step {name : String} {op : Syntax.StepOp} :
      env.isVariable name = true → Scoped env (.step name op)

/-- A declared type is one that the library has. -/
def DeclaredType.IsKnown : DeclaredType → Prop
  | .cls c => Known c
  | _ => True

/-- The names of a declaration stand for variables and for what the library has. -/
structure Declaration.Scoped (env : Env) (d : Declaration) : Prop where
  type : d.type.IsKnown
  init : ∀ e ∈ d.init, e.Scoped env

/-- The names of a simple statement stand for variables and for what the library has. -/
inductive Simple.Scoped (env : Env) : Simple → Prop
  | declare {d : Declaration} : d.Scoped env → Scoped env (.declare d)
  | expr {e : Expr} : e.Scoped env → Scoped env (.expr e)

/-- The place behind a simple statement. -/
def Simple.after (env : Env) : Simple → Env
  | .declare d => env.declaring d.name
  | .expr _ => env

/-- The place behind the first part of the head of a loop. -/
def Simple.afterInit (env : Env) : Option Simple → Env
  | some s => s.after env
  | none => env

/-- The place behind a statement. -/
def Stmt.after (env : Env) : Stmt → Env
  | .simple s => s.after env
  | _ => env

mutual

/-- The names of a statement stand for variables and for what the library has, and it leaves no loop
but one around it. -/
inductive Stmt.Scoped : Env → Stmt → Prop
  | simple {env : Env} {s : Simple} : s.Scoped env → Stmt.Scoped env (.simple s)
  | block {env : Env} {body : List Stmt} : Stmt.AllScoped env body → Stmt.Scoped env (.block body)
  | ifThen {env : Env} {c : Expr} {yes : Stmt} :
      c.Scoped env → Stmt.Scoped env yes → Stmt.Scoped env (.ifThen c yes)
  | ifElse {env : Env} {c : Expr} {yes no : Stmt} :
      c.Scoped env → Stmt.Scoped env yes → Stmt.Scoped env no → Stmt.Scoped env (.ifElse c yes no)
  | while {env : Env} {c : Expr} {body : Stmt} :
      c.Scoped env → Stmt.Scoped env.looping body → Stmt.Scoped env (.while c body)
  | for {env : Env} {init : Option Simple} {c update : Option Expr} {body : Stmt} :
      (∀ s ∈ init, s.Scoped env) → (∀ e ∈ c, e.Scoped (Simple.afterInit env init)) →
      (∀ e ∈ update, e.Scoped (Simple.afterInit env init)) →
      Stmt.Scoped (Simple.afterInit env init).looping body →
      Stmt.Scoped env (.for init c update body)
  | break {env : Env} : env.inLoop = true → Stmt.Scoped env .break
  | continue {env : Env} : env.inLoop = true → Stmt.Scoped env .continue
  | empty {env : Env} : Stmt.Scoped env .empty

/-- Each of the statements is scoped behind the ones before it. -/
inductive Stmt.AllScoped : Env → List Stmt → Prop
  | nil {env : Env} : Stmt.AllScoped env []
  | cons {env : Env} {s : Stmt} {ss : List Stmt} :
      Stmt.Scoped env s → Stmt.AllScoped (s.after env) ss → Stmt.AllScoped env (s :: ss)

end

/-- The names of a program stand for what a session offers and for what the library has. -/
inductive TopLevel.Scoped (names : Names) : TopLevel → Prop
  | importClass {c : HostClass} : Known c → Scoped names (.importClass c)
  | importPackage {p : Package} : Package.ofName? p.name = some p → Scoped names (.importPackage p)
  | declare {d : Declaration} : d.Scoped ⟨names, [], false⟩ → Scoped names (.declare d)
  | expr {e : Expr} : e.Scoped ⟨names, [], false⟩ → Scoped names (.expr e)
  | stmt {s : Stmt} : s.Scoped ⟨names, [], false⟩ → Scoped names (.stmt s)

/-! ### Accepted snippets are scoped -/

theorem scoped_fieldsOf {env : Env} (members : List (Syntax.Ident Source.Span)) {e : Expr}
    (he : e.Scoped env) : (Env.fieldsOf e members).Scoped env := by
  induction members generalizing e with
  | nil => exact he
  | cons m members ih => exact ih (.field he)

theorem findName_scoped {env : Env} {tag : Source.Span} {path : Syntax.Dotted Source.Span}
    {e : Expr} (h : (env.findName tag path).result = some e) : e.Scoped env := by
  unfold Env.findName at h
  split at h
  · rename_i hvar
    cases h
    exact scoped_fieldsOf path.rest (.var hvar)
  · split at h
    · cases h
    · split at h
      · cases h
      · split at h
        · rename_i f _
          cases h
          exact scoped_fieldsOf _ (.staticField (known f.owner) (find?_staticField f))
        · cases h

theorem findVariable_scoped {env : Env} {i : Syntax.Ident Source.Span} {name : String}
    (h : (env.findVariable i).result = some name) : env.isVariable name = true := by
  unfold Env.findVariable at h
  split at h
  · rename_i hvar
    cases h
    exact hvar
  · cases h

theorem findConstructor_scoped {env : Env} {path : Syntax.Dotted Source.Span} {c : HostClass}
    (h : (env.findConstructor path).result = some c) : c.isConstructible = true := by
  unfold Env.findConstructor at h
  split at h
  · split at h
    · rename_i hc
      cases h
      exact hc
    · cases h
  · cases h

mutual

theorem resolveExpr_scoped {env : Env} : ∀ (e : Syntax.Expr Source.Span) {p : Expr},
    (resolveExpr env e).result = some p → p.Scoped env
  | .int _ _, _, h => by
      cases h
      exact .int
  | .str _ _, _, h => by
      cases h
      exact .str
  | .bool _ _, _, h => by
      cases h
      exact .bool
  | .null _, _, h => by
      cases h
      exact .null
  | .name _ _, _, h => by
      rw [resolveExpr] at h
      exact findName_scoped h
  | .field _ target _, _, h => by
      simp only [resolveExpr, Checked.result_map] at h
      obtain ⟨t, ht, rfl⟩ := h
      exact .field (resolveExpr_scoped target ht)
  | .bareCall _ _ _, _, h => by
      cases h
  | .call _ target m args, _, h => by
      simp only [resolveExpr] at h
      split at h
      · simp only [Checked.result_map, Checked.result_seq] at h
        obtain ⟨_, t, ⟨as, has, rfl⟩, ht, rfl⟩ := h
        exact .call (resolveExpr_scoped target ht) (resolveExprs_scoped args has)
      · simp only [Checked.result_map, Checked.result_seq] at h
        obtain ⟨_, f, ⟨as, has, rfl⟩, -, rfl⟩ := h
        exact .staticCall (known f.owner) (find?_staticMethod f) (resolveExprs_scoped args has)
  | .new _ path args, _, h => by
      simp only [resolveExpr, Checked.result_map, Checked.result_seq] at h
      obtain ⟨_, c, ⟨as, has, rfl⟩, hc, rfl⟩ := h
      exact .construct (known c) (findConstructor_scoped hc) (resolveExprs_scoped args has)
  | .unary _ _ e, _, h => by
      simp only [resolveExpr, Checked.result_map] at h
      obtain ⟨a, ha, rfl⟩ := h
      exact .unary (resolveExpr_scoped e ha)
  | .binary _ op l r, _, h => by
      simp only [resolveExpr, Checked.result_map, Checked.result_seq] at h
      obtain ⟨_, b, ⟨a, ha, rfl⟩, hb, rfl⟩ := h
      have hl := resolveExpr_scoped l ha
      have hr := resolveExpr_scoped r hb
      cases op with
      | arith op => exact .arith hl hr
      | rel op => exact .compare hl hr
      | logic op => exact .logic hl hr
  | .ternary _ c y n, _, h => by
      simp only [resolveExpr, Checked.result_map, Checked.result_seq] at h
      obtain ⟨_, n', ⟨_, y', ⟨c', hc, rfl⟩, hy, rfl⟩, hn, rfl⟩ := h
      exact .ternary (resolveExpr_scoped c hc) (resolveExpr_scoped y hy) (resolveExpr_scoped n hn)
  | .assign _ v _ e, _, h => by
      simp only [resolveExpr, Checked.result_map, Checked.result_seq] at h
      obtain ⟨_, a, ⟨name, hname, rfl⟩, ha, rfl⟩ := h
      exact .assign (findVariable_scoped hname) (resolveExpr_scoped e ha)
  | .step _ v _, _, h => by
      simp only [resolveExpr, Checked.result_map] at h
      obtain ⟨name, hname, rfl⟩ := h
      exact .step (findVariable_scoped hname)

theorem resolveExprs_scoped {env : Env} : ∀ (es : List (Syntax.Expr Source.Span)) {ps : List Expr},
    (resolveExprs env es).result = some ps → ∀ p ∈ ps, p.Scoped env
  | [], _, h => by
      cases h
      exact fun _ hp => absurd hp List.not_mem_nil
  | e :: es, _, h => by
      simp only [resolveExprs, Checked.result_map, Checked.result_seq] at h
      obtain ⟨_, ps, ⟨p, hp, rfl⟩, hps, rfl⟩ := h
      intro q hq
      rcases List.mem_cons.mp hq with rfl | hq
      · exact resolveExpr_scoped e hp
      · exact resolveExprs_scoped es hps q hq

end

theorem resolveOptional_scoped {env : Env} {e : Option (Syntax.Expr Source.Span)}
    {p : Option Expr} (h : (resolveOptional env e).result = some p) : ∀ q ∈ p, q.Scoped env := by
  cases e with
  | none =>
      cases h
      exact fun _ hq => nomatch hq
  | some e =>
      simp only [resolveOptional, Checked.result_map] at h
      obtain ⟨a, ha, rfl⟩ := h
      intro q hq
      cases hq
      exact resolveExpr_scoped e ha

theorem freshName_eq {env : Env} {i : Syntax.Ident Source.Span} {name : String}
    (h : (freshName env i).result = some name) : name = i.name := by
  unfold freshName at h
  split at h
  · cases h
  · cases h
    rfl

theorem resolveDeclaration_scoped {env : Env} {d : Syntax.Declaration Source.Span}
    {p : Declaration} (h : (resolveDeclaration env d).result = some p) :
    p.Scoped env ∧ p.name = d.name.name := by
  simp only [resolveDeclaration, Checked.result_map, Checked.result_seq] at h
  obtain ⟨_, name, ⟨_, init, ⟨type, -, rfl⟩, hinit, rfl⟩, hname, rfl⟩ := h
  refine ⟨⟨?_, resolveOptional_scoped hinit⟩, freshName_eq hname⟩
  cases type with
  | inferred => trivial
  | primitive p => trivial
  | cls c => exact known c

theorem resolveSimple_scoped {env : Env} {s : Syntax.Simple Source.Span} {p : Simple}
    (h : (resolveSimple env s).result = some p) :
    p.Scoped env ∧ p.after env = env.afterSimple s := by
  cases s with
  | declare d =>
      simp only [resolveSimple, Checked.result_map] at h
      obtain ⟨d', hd, rfl⟩ := h
      obtain ⟨hscoped, hname⟩ := resolveDeclaration_scoped hd
      exact ⟨.declare hscoped, by rw [Simple.after, hname, Env.afterSimple]⟩
  | expr e =>
      simp only [resolveSimple, Checked.result_map] at h
      obtain ⟨e', he, rfl⟩ := h
      exact ⟨.expr (resolveExpr_scoped e he), rfl⟩

/-- The place behind a statement is the same for its program. -/
theorem after_eq {env : Env} : ∀ {s : Syntax.Stmt Source.Span} {p : Stmt},
    (resolveStmt env s).result = some p → p.after env = env.after s
  | .simple s, _, h => by
      simp only [resolveStmt, Checked.result_map] at h
      obtain ⟨p, hp, rfl⟩ := h
      exact (resolveSimple_scoped hp).2
  | .block body, _, h => by
      simp only [resolveStmt, Checked.result_map] at h
      obtain ⟨p, -, rfl⟩ := h
      rfl
  | .ifThen c yes, _, h => by
      simp only [resolveStmt, Checked.result_map, Checked.result_seq] at h
      obtain ⟨_, p, ⟨q, -, rfl⟩, -, rfl⟩ := h
      rfl
  | .ifElse c yes no, _, h => by
      simp only [resolveStmt, Checked.result_map, Checked.result_seq] at h
      obtain ⟨_, p, ⟨_, q, ⟨r, -, rfl⟩, -, rfl⟩, -, rfl⟩ := h
      rfl
  | .while c body, _, h => by
      simp only [resolveStmt, Checked.result_map, Checked.result_seq] at h
      obtain ⟨_, p, ⟨q, -, rfl⟩, -, rfl⟩ := h
      rfl
  | .for init c update body, _, h => by
      simp only [resolveStmt, Checked.result_map, Checked.result_seq] at h
      obtain ⟨_, p, ⟨_, u, ⟨_, q, ⟨r, -, rfl⟩, -, rfl⟩, -, rfl⟩, -, rfl⟩ := h
      rfl
  | .break tag, _, h => by
      simp only [resolveStmt] at h
      split at h <;> cases h
      rfl
  | .continue tag, _, h => by
      simp only [resolveStmt] at h
      split at h <;> cases h
      rfl
  | .empty, _, h => by
      cases h
      rfl

mutual

theorem resolveStmt_scoped {env : Env} : ∀ (s : Syntax.Stmt Source.Span) {p : Stmt},
    (resolveStmt env s).result = some p → p.Scoped env
  | .simple s, _, h => by
      simp only [resolveStmt, Checked.result_map] at h
      obtain ⟨p, hp, rfl⟩ := h
      exact .simple (resolveSimple_scoped hp).1
  | .block body, _, h => by
      simp only [resolveStmt, Checked.result_map] at h
      obtain ⟨ps, hps, rfl⟩ := h
      exact .block (resolveStmts_scoped body hps)
  | .ifThen c yes, _, h => by
      simp only [resolveStmt, Checked.result_map, Checked.result_seq] at h
      obtain ⟨_, y, ⟨e, he, rfl⟩, hy, rfl⟩ := h
      exact .ifThen (resolveExpr_scoped c he) (resolveStmt_scoped yes hy)
  | .ifElse c yes no, _, h => by
      simp only [resolveStmt, Checked.result_map, Checked.result_seq] at h
      obtain ⟨_, n, ⟨_, y, ⟨e, he, rfl⟩, hy, rfl⟩, hn, rfl⟩ := h
      exact .ifElse (resolveExpr_scoped c he) (resolveStmt_scoped yes hy)
        (resolveStmt_scoped no hn)
  | .while c body, _, h => by
      simp only [resolveStmt, Checked.result_map, Checked.result_seq] at h
      obtain ⟨_, b, ⟨e, he, rfl⟩, hb, rfl⟩ := h
      exact .while (resolveExpr_scoped c he) (resolveStmt_scoped body hb)
  | .for init c update body, _, h => by
      simp only [resolveStmt, Checked.result_map, Checked.result_seq] at h
      obtain ⟨_, b, ⟨_, u, ⟨_, c', ⟨i, hi, rfl⟩, hc, rfl⟩, hu, rfl⟩, hb, rfl⟩ := h
      have hinit : (∀ s ∈ i, s.Scoped env) ∧ Simple.afterInit env i = env.afterInit init := by
        cases init with
        | none =>
            cases hi
            exact ⟨fun _ hs => absurd hs (by simp), rfl⟩
        | some s =>
            simp only [Checked.result_map] at hi
            obtain ⟨s', hs', rfl⟩ := hi
            obtain ⟨hscoped, hafter⟩ := resolveSimple_scoped hs'
            refine ⟨fun q hq => ?_, hafter⟩
            cases hq
            exact hscoped
      obtain ⟨hscoped, hafter⟩ := hinit
      -- All but the first part of the head stands behind the variable that this part declares.
      rw [← hafter] at hc hu hb
      exact .for hscoped (resolveOptional_scoped hc) (resolveOptional_scoped hu)
        (resolveStmt_scoped body hb)
  | .break tag, _, h => by
      simp only [resolveStmt] at h
      split at h
      · cases h
        exact .break ‹_›
      · cases h
  | .continue tag, _, h => by
      simp only [resolveStmt] at h
      split at h
      · cases h
        exact .continue ‹_›
      · cases h
  | .empty, _, h => by
      cases h
      exact .empty

theorem resolveStmts_scoped {env : Env} : ∀ (ss : List (Syntax.Stmt Source.Span)) {ps : List Stmt},
    (resolveStmts env ss).result = some ps → Stmt.AllScoped env ps
  | [], _, h => by
      cases h
      exact .nil
  | s :: ss, _, h => by
      simp only [resolveStmts, Checked.result_map, Checked.result_seq] at h
      obtain ⟨_, ps, ⟨p, hp, rfl⟩, hps, rfl⟩ := h
      rw [← after_eq hp] at hps
      exact .cons (resolveStmt_scoped s hp) (resolveStmts_scoped ss hps)

end

/-- The program of an accepted snippet is scoped. -/
theorem resolve_scoped {names : Names} {tree : Syntax.TopLevel Source.Span} {p : TopLevel}
    (h : (resolve names tree).result = some p) : p.Scoped names := by
  have hstmt {s : Syntax.Stmt Source.Span}
      (h : (TopLevel.stmt <$> resolveStmt ⟨names, [], false⟩ s).result = some p) :
      p.Scoped names := by
    simp only [Checked.result_map] at h
    obtain ⟨q, hq, rfl⟩ := h
    exact .stmt (resolveStmt_scoped s hq)
  unfold resolve at h
  split at h
  · unfold resolveImport at h
    simp only at h
    split at h
    · split at h
      · rename_i p hp
        cases h
        exact .importPackage (by cases p <;> decide)
      · cases h
    · split at h
      · split at h <;> cases h <;> exact .importClass (known _)
      · split at h <;> cases h
  · simp only [Checked.result_map] at h
    obtain ⟨d, hd, rfl⟩ := h
    exact .declare (resolveDeclaration_scoped hd).1
  · simp only [Checked.result_map] at h
    obtain ⟨e, he, rfl⟩ := h
    exact .expr (resolveExpr_scoped _ he)
  · exact hstmt h

/-! ### The look-up yields a program exactly if it finds no error -/

section Sound

open Checked

theorem sound_findName (env : Env) (tag : Source.Span) (path : Syntax.Dotted Source.Span) :
    (env.findName tag path).Sound := by
  unfold Env.findName
  split
  · exact sound_pure _
  · split
    · exact sound_reject rfl
    · split
      · exact sound_reject rfl
      · split
        · exact sound_pure _
        · exact sound_reject rfl

theorem sound_findVariable (env : Env) (i : Syntax.Ident Source.Span) :
    (env.findVariable i).Sound := by
  unfold Env.findVariable
  split
  · exact sound_pure _
  · exact sound_reject rfl

theorem sound_findConstructor (env : Env) (path : Syntax.Dotted Source.Span) :
    (env.findConstructor path).Sound := by
  unfold Env.findConstructor
  split
  · split
    · exact sound_pure _
    · exact sound_reject rfl
  · exact sound_reject rfl

theorem sound_findClass (env : Env) (path : Syntax.Dotted Source.Span) :
    (env.findClass path).Sound := by
  unfold Env.findClass
  split
  · exact sound_pure _
  · exact sound_reject rfl

mutual

theorem sound_resolveExpr (env : Env) : ∀ e : Syntax.Expr Source.Span, (resolveExpr env e).Sound
  | .int _ _ => sound_pure _
  | .str _ _ => sound_pure _
  | .bool _ _ => sound_pure _
  | .null _ => sound_pure _
  | .name tag path => by
      rw [resolveExpr]
      exact sound_findName env tag path
  | .field _ target _ => by
      rw [resolveExpr]
      exact sound_map _ (sound_resolveExpr env target)
  | .bareCall _ _ _ => sound_reject rfl
  | .call _ target m args => by
      rw [resolveExpr]
      split
      · exact sound_seq (sound_map _ (sound_resolveExprs env args)) (sound_resolveExpr env target)
      · refine sound_seq (sound_map _ (sound_resolveExprs env args)) ?_
        split
        · exact sound_pure _
        · exact sound_reject rfl
  | .new _ path args => by
      rw [resolveExpr]
      exact sound_seq (sound_map _ (sound_resolveExprs env args)) (sound_findConstructor env path)
  | .unary _ _ e => by
      rw [resolveExpr]
      exact sound_map _ (sound_resolveExpr env e)
  | .binary _ _ l r => by
      rw [resolveExpr]
      exact sound_seq (sound_map _ (sound_resolveExpr env l)) (sound_resolveExpr env r)
  | .ternary _ c y n => by
      rw [resolveExpr]
      exact sound_seq (sound_seq (sound_map _ (sound_resolveExpr env c))
        (sound_resolveExpr env y)) (sound_resolveExpr env n)
  | .assign _ v _ e => by
      rw [resolveExpr]
      exact sound_seq (sound_map _ (sound_findVariable env v)) (sound_resolveExpr env e)
  | .step _ v _ => by
      rw [resolveExpr]
      exact sound_map _ (sound_findVariable env v)

theorem sound_resolveExprs (env : Env) :
    ∀ es : List (Syntax.Expr Source.Span), (resolveExprs env es).Sound
  | [] => sound_pure _
  | e :: es => by
      rw [resolveExprs]
      exact sound_seq (sound_map _ (sound_resolveExpr env e)) (sound_resolveExprs env es)

end

theorem sound_resolveOptional (env : Env) (e : Option (Syntax.Expr Source.Span)) :
    (resolveOptional env e).Sound := by
  cases e with
  | none => exact sound_pure _
  | some e => exact sound_map _ (sound_resolveExpr env e)

theorem sound_resolveDeclaration (env : Env) (d : Syntax.Declaration Source.Span) :
    (resolveDeclaration env d).Sound := by
  refine sound_seq (sound_seq (sound_map _ ?_) (sound_resolveOptional env d.init)) ?_
  · cases d.type with
    | inferred => exact sound_pure _
    | primitive p => exact sound_pure _
    | cls path => exact sound_map _ (sound_findClass env path)
  · unfold freshName
    split
    · exact sound_reject rfl
    · exact sound_pure _

theorem sound_resolveSimple (env : Env) (s : Syntax.Simple Source.Span) :
    (resolveSimple env s).Sound := by
  cases s with
  | declare d => exact sound_map _ (sound_resolveDeclaration env d)
  | expr e => exact sound_map _ (sound_resolveExpr env e)

mutual

theorem sound_resolveStmt (env : Env) : ∀ s : Syntax.Stmt Source.Span, (resolveStmt env s).Sound
  | .simple s => by
      rw [resolveStmt]
      exact sound_map _ (sound_resolveSimple env s)
  | .block body => by
      rw [resolveStmt]
      exact sound_map _ (sound_resolveStmts env body)
  | .ifThen c yes => by
      rw [resolveStmt]
      exact sound_seq (sound_map _ (sound_resolveExpr env c)) (sound_resolveStmt env yes)
  | .ifElse c yes no => by
      rw [resolveStmt]
      exact sound_seq (sound_seq (sound_map _ (sound_resolveExpr env c))
        (sound_resolveStmt env yes)) (sound_resolveStmt env no)
  | .while c body => by
      rw [resolveStmt]
      exact sound_seq (sound_map _ (sound_resolveExpr env c))
        (sound_resolveStmt env.looping body)
  | .for init c update body => by
      simp only [resolveStmt]
      refine sound_seq (sound_seq (sound_seq (sound_map _ ?_) (sound_resolveOptional _ c))
        (sound_resolveOptional _ update)) (sound_resolveStmt _ body)
      cases init with
      | none => exact sound_pure _
      | some s => exact sound_map _ (sound_resolveSimple env s)
  | .break tag => by
      rw [resolveStmt]
      split
      · exact sound_pure _
      · exact sound_reject rfl
  | .continue tag => by
      rw [resolveStmt]
      split
      · exact sound_pure _
      · exact sound_reject rfl
  | .empty => sound_pure _

theorem sound_resolveStmts (env : Env) :
    ∀ ss : List (Syntax.Stmt Source.Span), (resolveStmts env ss).Sound
  | [] => sound_pure _
  | s :: ss => by
      rw [resolveStmts]
      exact sound_seq (sound_map _ (sound_resolveStmt env s)) (sound_resolveStmts (env.after s) ss)

end

theorem sound_resolveImport (names : Names) (path : Syntax.Dotted Source.Span) (wildcard : Bool) :
    (resolveImport names path wildcard).Sound := by
  unfold resolveImport
  simp only
  split
  · split
    · exact sound_pure _
    · exact sound_reject rfl
  · split
    · split
      · exact sound_warn _ rfl
      · exact sound_pure _
    · split
      · exact sound_reject rfl
      · exact sound_reject rfl

/-- A snippet has a program exactly if the look-up of its names finds no error. -/
theorem resolve_sound (names : Names) (tree : Syntax.TopLevel Source.Span) :
    (resolve names tree).Sound := by
  unfold resolve
  split
  · exact sound_resolveImport names _ _
  · exact sound_map _ (sound_resolveDeclaration _ _)
  · exact sound_map _ (sound_resolveExpr _ _)
  · exact sound_map _ (sound_resolveStmt _ _)

end Sound

end Program
end GuardedRepl
