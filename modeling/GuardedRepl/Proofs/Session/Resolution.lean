import GuardedRepl.Proofs.Machine.Visits
import GuardedRepl.Proofs.Session.Fragments

/-!
# What an accepted snippet stands for is there

The look-up of names is sound: no run of an accepted snippet misses a variable, a class or a member,
whatever the host answers and however often its loops go round.  This rests on what every evaluation
leaves of a session: no name is declared twice, and every import is found under its simple name.

**Results.**
* `Interpreter.coherent_eval`: every evaluation leaves a coherent session.
* `resolver_sound`: nothing is missing when an accepted snippet is run in a reachable session.
-/

namespace GuardedRepl

open Library (HostClass Package)

/-! ### Coherent sessions -/

/-- No variable, class or package is there twice, every imported class is the one that its simple
name stands for, and every imported package is one of the library. -/
structure Session.Coherent (s : Session) : Prop where
  vars : (s.vars.map Variable.name).Nodup
  imports : s.imports.Nodup
  packages : s.packages.Nodup
  classes : ∀ c ∈ s.imports, HostClass.ofSimpleName? c.simpleName = some c ∧
    (⟨s.names, [], false⟩ : Program.Env).classOf? c.simpleName = some c
  wildcards : ∀ p ∈ s.packages, Package.ofName? p.name = some p

theorem simpleName_injective {c d : HostClass} (h : c.simpleName = d.simpleName) : c = d := by
  have hname (c : HostClass) : HostClass.ofSimpleName? c.simpleName = some c := by
    cases c <;> decide
  have hc := hname c
  rw [h, hname d] at hc
  cases hc
  rfl

/-- A visible class is the one that its simple name stands for. -/
theorem classOf?_simpleName {env : Program.Env} {c : HostClass} (hc : env.isVisible c = true) :
    env.classOf? c.simpleName = some c := by
  have hfound : (env.classOf? c.simpleName).isSome := by
    unfold Program.Env.classOf?
    rw [List.find?_isSome]
    exact ⟨c, HostClass.mem_all c, by simp [hc]⟩
  obtain ⟨d, hd⟩ := Option.isSome_iff_exists.mp hfound
  have hsame := List.find?_some hd
  simp only [Bool.and_eq_true, decide_eq_true_eq] at hsame
  rw [hd, simpleName_injective hsame.1]

/-- Only the names and the imports count for coherence. -/
theorem Session.coherent_iff (s : Session) : s.Coherent ↔
    (s.outline.1.map Prod.fst).Nodup ∧ s.outline.2.1.Nodup ∧ s.outline.2.2.Nodup := by
  have hnames : s.outline.1.map Prod.fst = s.vars.map Variable.name := by
    simp [Session.outline, List.map_map, Function.comp_def]
  rw [hnames]
  constructor
  · intro hs
    exact ⟨hs.vars, hs.imports, hs.packages⟩
  · rintro ⟨hvars, himports, hpackages⟩
    -- Every class of the library that is imported has its simple name to itself.
    refine ⟨hvars, himports, hpackages, fun c hc => ⟨by cases c <;> decide, ?_⟩, fun p _ => ?_⟩
    · refine classOf?_simpleName ?_
      have hmem : s.names.imports.contains c = true := List.contains_iff_mem.mpr hc
      simp only [Program.Env.isVisible, hmem, Bool.true_or]
    · cases p <;> decide

theorem nodup_append_new {α : Type} [BEq α] [LawfulBEq α] {l : List α} {a : α} (hl : l.Nodup)
    (hnew : ¬ l.contains a = true) : (l ++ [a]).Nodup := by
  have hnot : a ∉ l := fun ha => hnew (List.contains_iff_mem.mpr ha)
  refine List.nodup_append.mpr ⟨hl, by simp, fun b hb c hc => ?_⟩
  rw [List.mem_singleton.mp hc]
  exact fun heq => hnot (heq ▸ hb)

theorem Session.Coherent.importClass {s : Session} (hs : s.Coherent) (c : HostClass) :
    (s.importClass c).Coherent := by
  unfold Session.importClass
  split
  · exact hs
  · rename_i hnew
    rw [coherent_iff] at hs ⊢
    exact ⟨hs.1, nodup_append_new hs.2.1 hnew, hs.2.2⟩

theorem Session.Coherent.importPackage {s : Session} (hs : s.Coherent) (p : Package) :
    (s.importPackage p).Coherent := by
  unfold Session.importPackage
  split
  · exact hs
  · rename_i hnew
    rw [coherent_iff] at hs ⊢
    exact ⟨hs.1, hs.2.1, nodup_append_new hs.2.2 hnew⟩

theorem Session.nodup_declare {s : Session} (hs : (s.vars.map Variable.name).Nodup)
    (v : Variable) : ((s.declare v).vars.map Variable.name).Nodup := by
  simp only [Session.declare, List.map_cons, List.nodup_cons]
  constructor
  · intro hin
    obtain ⟨w, hw, heq⟩ := List.mem_map.mp hin
    have hne := (List.mem_filter.mp hw).2
    simp [heq] at hne
  · exact List.Nodup.sublist (List.Sublist.map _ List.filter_sublist) hs

theorem Session.Coherent.declare {s : Session} (hs : s.Coherent) (v : Variable) :
    (s.declare v).Coherent := by
  have hnew := nodup_declare hs.vars v
  rw [coherent_iff] at hs ⊢
  refine ⟨?_, hs.2.1, hs.2.2⟩
  simpa [Session.outline, List.map_map, Function.comp_def] using hnew

namespace Machine

/-- A snippet leaves a coherent session, also if it is interrupted. -/
theorem coherent_runTop (snippet : Snippet) (p : Program.TopLevel) (h : Host) {s : State}
    (hs : s.session.Coherent) : (runTop snippet p h s).2.session.Coherent := by
  have hsettled {s t : State} (hst : Settled s t) (hs : s.session.Coherent) :
      t.session.Coherent := by
    rw [Session.coherent_iff] at hs ⊢
    rwa [hst]
  have hopen : Open fun s t => s.session.Coherent → t.session.Coherent :=
    { trans := fun hst htu hs => htu (hst hs)
      asked := fun hsession _ hs => hsession ▸ hs
      block := fun hst hs => hst hs
      assign := fun ht => hsettled (roomy_settled.assign ht)
      declare := fun s name v hs => hs
      importClass := fun s c hs => hs.importClass c
      importPackage := fun s p hs => hs.importPackage p
      declareVar := fun s v hs => hs.declare v }
  exact (hopen.assembled_runTop snippet p).keeps hopen.toTolerant h s hs

end Machine

namespace Interpreter

open Machine

/-- Every evaluation leaves a coherent session. -/
theorem coherent_eval {i : Interpreter} (hi : i.session.Coherent) (h : Host) (command : String) :
    (i.eval h command).interpreter.session.Coherent := by
  refine eval_keeps (Q := fun i => i.session.Coherent) (fun i text hi => ?_) i command hi
  rcases evalFragment_cases i text with ⟨snippet, p, ds, -, heq⟩ | ⟨_, _, heq⟩ <;> rw [heq]
  · exact coherent_runTop snippet p h (s := i.start) hi
  · exact hi

theorem coherent_fresh : Session.Coherent {} :=
  (Session.coherent_iff {}).mpr ⟨List.nodup_nil, List.nodup_nil, List.nodup_nil⟩

theorem Reachable.coherent {P : Host → Prop} {i : Interpreter} (hi : Reachable P i) :
    i.session.Coherent :=
  hi.session coherent_fresh fun hi _ _ => coherent_runTop _ _ _ hi

/-- A session with permitted values fits the place that a snippet starts from. -/
theorem start_fits {B : Barrier} {i : Interpreter}
    (hvars : ∀ {x}, x ∈ i.session.vars → x.value.Permitted B) :
    i.start.Fits B ⟨i.session.names, [], false⟩ 0 := by
  refine ⟨rfl, fun {name} hname => ?_, fun hframe => (by cases hframe), hvars,
    fun _ {e} he => by cases he⟩
  rw [isSome_lookup_iff]
  refine Or.inr ?_
  simp only [Program.Env.isVariable, List.contains_nil, Bool.false_or] at hname
  exact List.contains_iff_mem.mp hname

/-- **The look-up of names is sound.**  A snippet of a reachable session in whose names no error is
found has a program.  Under every host its run comes by nothing whose variable, class or member is
missing, it is never interrupted for want of a variable, no statement breaks out of the snippet, and
the session it leaves is coherent, as every evaluation leaves it. -/
theorem resolver_sound {i : Interpreter} (hi : Reachable (fun _ => True) i) {text : List Char}
    {tree : Syntax.TopLevel Source.Span} (hread : read text = .ok tree)
    (haccepted : ∀ f ∈ (Program.resolve i.session.names tree).findings, f.isError = false) :
    ∃ p, (Program.resolve i.session.names tree).result = some p ∧
      i.Accepts text ⟨i.nextId, kindOf tree, String.ofList text⟩ p ∧
      (∀ host snippet,
        (∀ task s, Visits host (.top p) i.start task s → task.Ready s) ∧
        (∀ name, (runTop snippet p host i.start).1 ≠ .error (.unbound name)) ∧
        (∀ stmt c, p = .stmt stmt → (exec stmt host i.start).1 = .ok c → c = .next) ∧
        (runTop snippet p host i.start).2.session.Coherent) ∧
      i.session.Coherent ∧
      ∀ host command, (i.eval host command).interpreter.session.Coherent := by
  have hsound := Program.resolve_sound i.session.names tree
  have hnone : (Program.resolve i.session.names tree).findings.any Program.Finding.isError =
      false := by
    rw [List.any_eq_false]
    exact fun f hf => by simp [haccepted f hf]
  unfold Program.Checked.Sound at hsound
  rw [hnone] at hsound
  obtain ⟨p, hp⟩ := Option.isSome_iff_exists.mp hsound
  have hscoped := Program.resolve_scoped hp
  refine ⟨p, hp, ⟨tree, hread, rfl, hp⟩, fun host snippet => ?_, hi.coherent,
    fun host command => ?_⟩
  · -- Nothing is barred, so every value is permitted and only the bindings count.
    have hhosts : host.Twins (fun _ => False) host := .refl fun hB => hB.elim
    have hstart : i.start.Fits (fun _ => False) ⟨i.session.names, [], false⟩ 0 :=
      start_fits fun _ _ _ hB => hB
    refine ⟨fun task s hvisits => hvisits.ready hhosts hscoped hstart, fun name hname => ?_,
      fun stmt c hstmt hc => ?_, coherent_runTop snippet p host hi.coherent⟩
    · have hrun := (meets_runTop hhosts snippet hscoped i.start hstart).2.2 _ _
        (Prod.ext hname rfl)
      exact hrun.2 name rfl
    · subst hstmt
      cases hscoped with
      | stmt hscoped =>
          have hrun := ((meets_exec hhosts hscoped).ok hstart (Prod.ext hc rfl)).1.2
          cases c with
          | next => rfl
          | broke => exact absurd (hrun (by simp)) (by simp)
          | continued => exact absurd (hrun (by simp)) (by simp)
  · exact coherent_eval hi.coherent host command

/-- A loop with a variable of its own, which goes on with its next round from inside a block. -/
theorem resolver_sound_loop :
    ∃ tree p, Reachable (fun _ => True) {} ∧
      read "for (int k = 0; k < 3; k++) { if (k == 1) continue; }".toList = .ok tree ∧
      (∀ f ∈ (Program.resolve (Session.names {}) tree).findings, f.isError = false) ∧
      (Program.resolve (Session.names {}) tree).result = some p ∧
      ∀ host snippet name,
        (runTop snippet p host (start {})).1 ≠ .error (.unbound name) := by
  generalize htext : "for (int k = 0; k < 3; k++) { if (k == 1) continue; }".toList = text
  have hclean : (match read text with
      | .ok tree => (Program.resolve (Session.names {}) tree).findings.all fun f => !f.isError
      | .error _ => false) = true := by
    rw [← htext]
    decide +kernel
  rcases hread : read text with f | tree
  · rw [hread] at hclean
    cases hclean
  · rw [hread] at hclean
    have haccepted : ∀ f ∈ (Program.resolve (Session.names {}) tree).findings,
        f.isError = false := by
      intro f hf
      simpa using List.all_eq_true.mp hclean f hf
    obtain ⟨p, hp, -, hrun, -⟩ := resolver_sound (i := {}) .fresh hread haccepted
    exact ⟨tree, p, .fresh, rfl, haccepted, hp, fun host snippet => (hrun host snippet).2.1⟩

end Interpreter
end GuardedRepl
