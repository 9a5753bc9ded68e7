import GuardedRepl.Proofs.Machine.Visits
import GuardedRepl.Proofs.Syntax.Taking

/-!
# The literals of programs

The look-up of names makes no string literals up, and a run comes only by parts of its program.

**Results.**
* `resolve_strings`: the literals of a program are those of its snippet.
* `Visits.strings`: the literals of what a run comes by are those of its program.
-/

namespace GuardedRepl
namespace Program

/-! ### The literals of a program -/

mutual

/-- The string literals of an expression. -/
def Expr.strings : Expr → List String
  | .str s => [s]
  | .int _ => []
  | .bool _ => []
  | .null => []
  | .var _ => []
  | .staticField _ => []
  | .field target _ => target.strings
  | .call target _ args => target.strings ++ Expr.listStrings args
  | .staticCall _ args => Expr.listStrings args
  | .construct _ args => Expr.listStrings args
  | .unary _ operand => operand.strings
  | .arith _ left right => left.strings ++ right.strings
  | .compare _ left right => left.strings ++ right.strings
  | .logic _ left right => left.strings ++ right.strings
  | .ternary cond yes no => cond.strings ++ yes.strings ++ no.strings
  | .assign _ _ value => value.strings
  | .step _ _ => []

/-- The string literals of expressions. -/
def Expr.listStrings : List Expr → List String
  | [] => []
  | e :: es => e.strings ++ Expr.listStrings es

end

/-- The string literals of an expression that may be absent. -/
def Expr.optionStrings (e : Option Expr) : List String :=
  e.elim [] Expr.strings

/-- The string literals of a statement without parts that are statements. -/
def Simple.strings : Simple → List String
  | .declare d => Expr.optionStrings d.init
  | .expr e => e.strings

/-- The string literals of a simple statement that may be absent. -/
def Simple.optionStrings (s : Option Simple) : List String :=
  s.elim [] Simple.strings

mutual

/-- The string literals of a statement. -/
def Stmt.strings : Stmt → List String
  | .simple s => s.strings
  | .block body => Stmt.listStrings body
  | .ifThen cond yes => cond.strings ++ yes.strings
  | .ifElse cond yes no => cond.strings ++ yes.strings ++ no.strings
  | .while cond body => cond.strings ++ body.strings
  | .for init cond update body =>
    Simple.optionStrings init ++ Expr.optionStrings cond ++ Expr.optionStrings update ++
      body.strings
  | .break => []
  | .continue => []
  | .empty => []

/-- The string literals of statements. -/
def Stmt.listStrings : List Stmt → List String
  | [] => []
  | s :: ss => s.strings ++ Stmt.listStrings ss

end

/-- The string literals of a program. -/
def TopLevel.strings : TopLevel → List String
  | .importClass _ => []
  | .importPackage _ => []
  | .declare d => Expr.optionStrings d.init
  | .expr e => e.strings
  | .stmt s => s.strings

/-! ### The look-up of names -/

theorem append_subset_append {xs xs' ys ys' : List String} (hxs : xs ⊆ xs') (hys : ys ⊆ ys') :
    xs ++ ys ⊆ xs' ++ ys' :=
  List.append_subset_of_subset_of_subset (List.subset_append_of_subset_left _ hxs)
    (List.subset_append_of_subset_right _ hys)

theorem strings_fieldsOf (members : List (Syntax.Ident Source.Span)) (e : Expr) :
    (Env.fieldsOf e members).strings = e.strings := by
  induction members generalizing e with
  | nil => rfl
  | cons m members ih => exact ih (.field e m.name)

theorem findName_strings {env : Env} {tag : Source.Span} {path : Syntax.Dotted Source.Span}
    {e : Expr} (h : (env.findName tag path).result = some e) : e.strings = [] := by
  unfold Env.findName at h
  split at h
  · cases h
    exact strings_fieldsOf _ _
  · split at h
    · cases h
    · split at h
      · cases h
      · split at h <;> cases h
        exact strings_fieldsOf _ _

mutual

theorem resolveExpr_strings {env : Env} : ∀ (e : Syntax.Expr Source.Span) {p : Expr},
    (resolveExpr env e).result = some p → p.strings ⊆ e.strings
  | .int _ _, _, h | .bool _ _, _, h | .null _, _, h | .str _ _, _, h => by
      cases h
      exact List.Subset.refl _
  | .name _ _, _, h => by
      rw [resolveExpr] at h
      rw [findName_strings h]
      exact List.nil_subset _
  | .field _ target _, _, h => by
      simp only [resolveExpr, Checked.result_map] at h
      obtain ⟨t, ht, rfl⟩ := h
      have hstrings := resolveExpr_strings target ht
      exact hstrings
  | .bareCall _ _ _, _, h => by
      cases h
  | .call _ target m args, _, h => by
      simp only [resolveExpr] at h
      split at h
      · simp only [Checked.result_map, Checked.result_seq] at h
        obtain ⟨_, t, ⟨as, has, rfl⟩, ht, rfl⟩ := h
        exact append_subset_append (resolveExpr_strings target ht) (resolveExprs_strings args has)
      · simp only [Checked.result_map, Checked.result_seq] at h
        obtain ⟨_, f, ⟨as, has, rfl⟩, -, rfl⟩ := h
        exact List.subset_append_of_subset_right _ (resolveExprs_strings args has)
  | .new _ path args, _, h => by
      simp only [resolveExpr, Checked.result_map, Checked.result_seq] at h
      obtain ⟨_, c, ⟨as, has, rfl⟩, -, rfl⟩ := h
      exact resolveExprs_strings args has
  | .unary _ _ e, _, h => by
      simp only [resolveExpr, Checked.result_map] at h
      obtain ⟨a, ha, rfl⟩ := h
      have hstrings := resolveExpr_strings e ha
      exact hstrings
  | .binary _ op l r, _, h => by
      simp only [resolveExpr, Checked.result_map, Checked.result_seq] at h
      obtain ⟨_, b, ⟨a, ha, rfl⟩, hb, rfl⟩ := h
      have hstrings := append_subset_append (resolveExpr_strings l ha) (resolveExpr_strings r hb)
      cases op <;> exact hstrings
  | .ternary _ c y n, _, h => by
      simp only [resolveExpr, Checked.result_map, Checked.result_seq] at h
      obtain ⟨_, n', ⟨_, y', ⟨c', hc, rfl⟩, hy, rfl⟩, hn, rfl⟩ := h
      exact append_subset_append
        (append_subset_append (resolveExpr_strings c hc) (resolveExpr_strings y hy))
        (resolveExpr_strings n hn)
  | .assign _ v _ e, _, h => by
      simp only [resolveExpr, Checked.result_map, Checked.result_seq] at h
      obtain ⟨_, a, ⟨name, -, rfl⟩, ha, rfl⟩ := h
      have hstrings := resolveExpr_strings e ha
      exact hstrings
  | .step _ v _, _, h => by
      simp only [resolveExpr, Checked.result_map] at h
      obtain ⟨name, -, rfl⟩ := h
      exact List.Subset.refl _

theorem resolveExprs_strings {env : Env} :
    ∀ (es : List (Syntax.Expr Source.Span)) {ps : List Expr},
      (resolveExprs env es).result = some ps → Expr.listStrings ps ⊆ Syntax.Expr.listStrings es
  | [], _, h => by
      cases h
      exact List.Subset.refl _
  | e :: es, _, h => by
      simp only [resolveExprs, Checked.result_map, Checked.result_seq] at h
      obtain ⟨_, ps, ⟨p, hp, rfl⟩, hps, rfl⟩ := h
      exact append_subset_append (resolveExpr_strings e hp) (resolveExprs_strings es hps)

end

theorem resolveOptional_strings {env : Env} {e : Option (Syntax.Expr Source.Span)}
    {p : Option Expr} (h : (resolveOptional env e).result = some p) :
    Expr.optionStrings p ⊆ Syntax.Expr.optionStrings e := by
  cases e with
  | none =>
      cases h
      exact List.Subset.refl _
  | some e =>
      simp only [resolveOptional, Checked.result_map] at h
      obtain ⟨a, ha, rfl⟩ := h
      exact resolveExpr_strings e ha

theorem resolveDeclaration_strings {env : Env} {d : Syntax.Declaration Source.Span}
    {p : Declaration} (h : (resolveDeclaration env d).result = some p) :
    Expr.optionStrings p.init ⊆ Syntax.Expr.optionStrings d.init := by
  simp only [resolveDeclaration, Checked.result_map, Checked.result_seq] at h
  obtain ⟨_, name, ⟨_, init, ⟨type, -, rfl⟩, hinit, rfl⟩, -, rfl⟩ := h
  exact resolveOptional_strings hinit

theorem resolveSimple_strings {env : Env} {s : Syntax.Simple Source.Span} {p : Simple}
    (h : (resolveSimple env s).result = some p) : p.strings ⊆ s.strings := by
  cases s with
  | declare d =>
      simp only [resolveSimple, Checked.result_map] at h
      obtain ⟨d', hd, rfl⟩ := h
      exact resolveDeclaration_strings hd
  | expr e =>
      simp only [resolveSimple, Checked.result_map] at h
      obtain ⟨e', he, rfl⟩ := h
      exact resolveExpr_strings e he

mutual

theorem resolveStmt_strings {env : Env} : ∀ (s : Syntax.Stmt Source.Span) {p : Stmt},
    (resolveStmt env s).result = some p → p.strings ⊆ s.strings
  | .simple s, _, h => by
      simp only [resolveStmt, Checked.result_map] at h
      obtain ⟨p, hp, rfl⟩ := h
      exact resolveSimple_strings hp
  | .block body, _, h => by
      simp only [resolveStmt, Checked.result_map] at h
      obtain ⟨ps, hps, rfl⟩ := h
      exact resolveStmts_strings body hps
  | .ifThen c yes, _, h => by
      simp only [resolveStmt, Checked.result_map, Checked.result_seq] at h
      obtain ⟨_, y, ⟨e, he, rfl⟩, hy, rfl⟩ := h
      exact append_subset_append (resolveExpr_strings c he) (resolveStmt_strings yes hy)
  | .ifElse c yes no, _, h => by
      simp only [resolveStmt, Checked.result_map, Checked.result_seq] at h
      obtain ⟨_, n, ⟨_, y, ⟨e, he, rfl⟩, hy, rfl⟩, hn, rfl⟩ := h
      exact append_subset_append
        (append_subset_append (resolveExpr_strings c he) (resolveStmt_strings yes hy))
        (resolveStmt_strings no hn)
  | .while c body, _, h => by
      simp only [resolveStmt, Checked.result_map, Checked.result_seq] at h
      obtain ⟨_, b, ⟨e, he, rfl⟩, hb, rfl⟩ := h
      exact append_subset_append (resolveExpr_strings c he) (resolveStmt_strings body hb)
  | .for init c update body, _, h => by
      simp only [resolveStmt, Checked.result_map, Checked.result_seq] at h
      obtain ⟨_, b, ⟨_, u, ⟨_, c', ⟨i, hi, rfl⟩, hc, rfl⟩, hu, rfl⟩, hb, rfl⟩ := h
      have hinit : Simple.optionStrings i ⊆ Syntax.Simple.optionStrings init := by
        cases init with
        | none =>
            cases hi
            exact List.Subset.refl _
        | some s =>
            simp only [Checked.result_map] at hi
            obtain ⟨s', hs', rfl⟩ := hi
            exact resolveSimple_strings hs'
      exact append_subset_append (append_subset_append
        (append_subset_append hinit (resolveOptional_strings hc)) (resolveOptional_strings hu))
        (resolveStmt_strings body hb)
  | .break _, _, h | .continue _, _, h => by
      simp only [resolveStmt] at h
      split at h <;> cases h
      exact List.Subset.refl _
  | .empty, _, h => by
      cases h
      exact List.Subset.refl _

theorem resolveStmts_strings {env : Env} :
    ∀ (ss : List (Syntax.Stmt Source.Span)) {ps : List Stmt},
      (resolveStmts env ss).result = some ps → Stmt.listStrings ps ⊆ Syntax.Stmt.listStrings ss
  | [], _, h => by
      cases h
      exact List.Subset.refl _
  | s :: ss, _, h => by
      simp only [resolveStmts, Checked.result_map, Checked.result_seq] at h
      obtain ⟨_, ps, ⟨p, hp, rfl⟩, hps, rfl⟩ := h
      exact append_subset_append (resolveStmt_strings s hp) (resolveStmts_strings ss hps)

end

theorem resolveImport_strings {names : Names} {path : Syntax.Dotted Source.Span} {wildcard : Bool}
    {p : TopLevel} (h : (resolveImport names path wildcard).result = some p) : p.strings = [] := by
  unfold resolveImport at h
  simp only at h
  split at h
  · split at h <;> cases h
    rfl
  · split at h
    · split at h <;> cases h <;> rfl
    · split at h <;> cases h

/-- The literals of a program are literals of its snippet. -/
theorem resolve_strings {names : Names} {tree : Syntax.TopLevel Source.Span} {p : TopLevel}
    (h : (resolve names tree).result = some p) : p.strings ⊆ tree.strings := by
  unfold resolve at h
  split at h
  · rw [resolveImport_strings h]
    exact List.nil_subset _
  · simp only [Checked.result_map] at h
    obtain ⟨d, hd, rfl⟩ := h
    exact resolveDeclaration_strings hd
  · simp only [Checked.result_map] at h
    obtain ⟨e, he, rfl⟩ := h
    exact resolveExpr_strings _ he
  · simp only [Checked.result_map] at h
    obtain ⟨s, hs, rfl⟩ := h
    exact resolveStmt_strings _ hs

end Program

namespace Machine

open Program

/-! ### What a run comes by -/

/-- The string literals of a part. -/
def Task.strings : Task → List String
  | .expr e => e.strings
  | .args es => Expr.listStrings es
  | .simple x => x.strings
  | .stmt x => x.strings
  | .stmts xs => Stmt.listStrings xs
  | .loop c b u => Expr.optionStrings c ++ Expr.optionStrings u ++ b.strings
  | .top p => p.strings

theorem Comes.strings {h : Host} {task task' : Task} {s t : State}
    (hcomes : Comes h task s task' t) : task'.strings ⊆ task.strings := by
  cases hcomes with
  | init _ _ hinit | topInit _ _ hinit =>
      simp [Task.strings, Simple.strings, TopLevel.strings, Expr.optionStrings, hinit]
  | _ =>
      intro x hx
      simp_all [Task.strings, Expr.strings, Expr.listStrings, Simple.strings, Stmt.strings,
        Stmt.listStrings, TopLevel.strings, Expr.optionStrings, Simple.optionStrings]

/-- The literals of what a run comes by are literals of its program. -/
theorem Visits.strings {h : Host} {task task' : Task} {s t : State}
    (hvisits : Visits h task s task' t) : task'.strings ⊆ task.strings := by
  induction hvisits with
  | start => exact List.Subset.refl _
  | next _ hcomes ih => exact List.Subset.trans hcomes.strings ih

end Machine
end GuardedRepl
