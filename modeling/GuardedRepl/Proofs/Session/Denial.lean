import GuardedRepl.Proofs.Machine.Lockstep
import GuardedRepl.Proofs.Machine.Programs
import GuardedRepl.Proofs.Session.Fragments

/-!
# Refusals

A refusal ends a snippet at once.  Up to the first refused access the snippet does what it does when
everything is allowed; nothing in the snippet can take the refusal back, ask again or go on.

A run that goes on for ever is told by what it does with more and more fuel: by `fuel_mono` the logs
of these runs continue each other.

**Results.**
* `denial_ends_snippet`: a gate changes nothing about a snippet, or it ends the snippet at the first
  access that it refuses.
-/

namespace GuardedRepl
namespace Machine

/-- The same host with another gate.  It never says to stop. -/
def Host.gatedBy (h : Host) (gate : Nat → Access → Option Denial) : Host :=
  { h with gate, stops := fun _ => false }

/-- The same host, which allows every access.  It never says to stop. -/
def Host.ungated (h : Host) : Host :=
  h.gatedBy fun _ _ => none

/-- The texts that a log writes to a stream, the first one first. -/
def written (stream : Stream) (log : List Entry) : List String :=
  log.reverse.filterMap fun e =>
    match e.effect with
    | .written s text => if s = stream then some text else none
    | .checked _ => none

theorem written_prefix {stream : Stream} {early late : List Entry} (h : early <:+ late) :
    written stream early <+: written stream late := by
  obtain ⟨new, rfl⟩ := h
  simp [written]

/-- The accesses of the earlier log come first in the later one. -/
theorem asked_of_later {s t : State} (hst : Later s t) {k : Nat} {a : Access}
    (hk : (asked s.effects)[k]? = some a) : (asked t.effects)[k]? = some a := by
  obtain ⟨new, heq, -⟩ := hst.log
  obtain ⟨hlt, -⟩ := List.getElem?_eq_some_iff.mp hk
  rw [heq, asked_append, List.getElem?_append_left hlt]
  exact hk

section Runs

variable {α : Type} {R : State → State → Prop} {x : Run α} {h : Host}
  {gate : Nat → Access → Option Denial} {s : State}

theorem laxer_ungated (h : Host) (gate : Nat → Access → Option Denial) :
    (h.gatedBy gate).Laxer h.ungated where
  world := ⟨rfl, rfl, rfl⟩
  gate hd := nomatch hd
  stops := id
  fuel := Nat.le_refl _

/-- What was passed was not refused. -/
theorem not_denied_of_passed {t : State} (hp : Passed (h.gatedBy gate) s t) (hs : s.effects = [])
    {k : Nat} {a : Access} {d : Denial} (hk : (asked t.effects)[k]? = some a) :
    gate (s.progress.checks + k) a ≠ some d := by
  obtain ⟨new, ht, -, -, hallowed⟩ := hp.log
  rw [hs, List.append_nil] at ht
  intro hd
  exact absurd (hd.symm.trans (hallowed k a (ht ▸ hk))) (by simp)

/-- A run that is never refused anything is the run without a gate. -/
theorem run_eq_ungated (hx : Run.Assembled R x) (hs : s.effects = [])
    (hall : ∀ k a, (asked (x h.ungated s).2.effects)[k]? = some a →
      gate (s.progress.checks + k) a = none) : x (h.gatedBy gate) s = x h.ungated s := by
  rcases hx.lockstep (laxer_ungated h gate) s with heq | ⟨hcut, hlater⟩
  · exact heq
  · exfalso
    -- The access that cuts the run off is one that the other run asks for, too, so it is allowed.
    generalize x (h.gatedBy gate) s = r at hcut hlater
    cases hcut with
    | @denied t u a d hp hd _ _ _ heff =>
        obtain ⟨new, ht, hchecks, -, -⟩ := hp.log
        rw [hs, List.append_nil] at ht
        have hk : (asked u.effects)[(asked t.effects).length]? = some a := by
          rw [heff, asked_checked, List.getElem?_append_right (Nat.le_refl _), Nat.sub_self]
          rfl
        have hnone := hall _ a (asked_of_later hlater hk)
        rw [ht, ← hchecks] at hnone
        exact absurd (hd.symm.trans hnone) (by simp)
    | stopped _ hstop _ _ _ _ => cases hstop
    | exhausted _ hlt => exact Nat.lt_irrefl _ hlt

/-- A run that is cut off by its gate alone ends with the first access that the gate refuses. -/
theorem denied_at_first {g : Host} {r : Except Interrupt α × State} {log : List Entry} {k : Nat}
    {a : Access} {d : Denial} (hcut : CutOff (h.gatedBy gate) g s r) (hs : s.effects = [])
    (hnot : r.1 ≠ .error .exhausted) (hlog : r.2.effects <:+ log)
    (hk : (asked log)[k]? = some a) (hd : gate (s.progress.checks + k) a = some d)
    (hfirst : ∀ j b, j < k → (asked log)[j]? = some b → gate (s.progress.checks + j) b = none) :
    r.1 = .error (.thrown (.denied d)) ∧ asked r.2.effects = (asked log).take (k + 1) := by
  cases hcut with
  | @denied t u b e hp he _ _ _ heff =>
      obtain ⟨late, rfl⟩ := hlog
      obtain ⟨new, ht, hchecks, -, -⟩ := hp.log
      rw [hs, List.append_nil] at ht
      subst ht
      simp only [heff, asked_append, asked_checked, List.append_assoc] at hk hfirst ⊢
      have hlast : (asked t.effects ++ ([b] ++ asked late))[(asked t.effects).length]? =
          some b := by
        rw [List.getElem?_append_right (Nat.le_refl _), Nat.sub_self]
        rfl
      -- An earlier refusal would not have been passed, and a later one would not be the first.
      have hle : (asked t.effects).length ≤ k := by
        refine Nat.le_of_not_lt fun hlt => ?_
        rw [List.getElem?_append_left hlt] at hk
        exact not_denied_of_passed hp hs hk hd
      have hge : k ≤ (asked t.effects).length := by
        refine Nat.le_of_not_lt fun hlt => ?_
        have hnone := hfirst _ b hlt hlast
        rw [← hchecks] at hnone
        exact absurd (he.symm.trans hnone) (by simp)
      obtain rfl : k = (asked t.effects).length := Nat.le_antisymm hge hle
      rw [hlast] at hk
      cases hk
      rw [hchecks] at he
      cases he.symm.trans hd
      refine ⟨rfl, ?_⟩
      rw [List.take_append, List.take_of_length_le (by omega)]
      simp
  | stopped _ hstop _ _ _ _ => cases hstop
  | exhausted _ _ => exact absurd rfl hnot

/-- A run ends with the first access that its gate refuses, and it is the run without a gate up to
there. -/
theorem run_denied (hx : Run.Assembled R x) (hs : s.effects = []) {k : Nat} {a : Access}
    {d : Denial} (hk : (asked (x h.ungated s).2.effects)[k]? = some a)
    (hd : gate (s.progress.checks + k) a = some d)
    (hfirst : ∀ j b, j < k → (asked (x h.ungated s).2.effects)[j]? = some b →
      gate (s.progress.checks + j) b = none) :
    (x (h.gatedBy gate) s).1 = .error (.thrown (.denied d)) ∧
      asked (x (h.gatedBy gate) s).2.effects = (asked (x h.ungated s).2.effects).take (k + 1) ∧
      (x (h.gatedBy gate) s).2.effects <:+ (x h.ungated s).2.effects := by
  have hsuffix {t u : State} (hlater : Later t u) : t.effects <:+ u.effects := by
    obtain ⟨new, heq, -⟩ := hlater.log
    exact ⟨new, heq.symm⟩
  have hend := hx.ended (h.gatedBy gate) s
  rcases hx.lockstep (laxer_ungated h gate) s with heq | ⟨hcut, hlater⟩
  · rw [heq] at hend ⊢
    generalize x h.ungated s = r at hk hfirst hend ⊢
    cases hend with
    | passed hp _ => exact absurd hd (not_denied_of_passed hp hs hk)
    | cutOff hcut =>
        have hnot : r.1 ≠ .error .exhausted := by
          intro hex
          cases hcut with
          | exhausted hp _ => exact not_denied_of_passed hp hs hk hd
          | denied => cases hex
          | stopped => cases hex
        obtain ⟨hr, hasked⟩ := denied_at_first hcut hs hnot List.suffix_rfl hk hd hfirst
        exact ⟨hr, hasked, List.suffix_rfl⟩
  · have hnot : (x (h.gatedBy gate) s).1 ≠ .error .exhausted := by
      intro hex
      generalize x (h.gatedBy gate) s = r at hcut hex
      cases hcut with
      | exhausted _ hlt => exact Nat.lt_irrefl _ hlt
      | denied => cases hex
      | stopped => cases hex
    obtain ⟨hr, hasked⟩ := denied_at_first hcut hs hnot (hsuffix hlater) hk hd hfirst
    exact ⟨hr, hasked, hsuffix hlater⟩

end Runs

end Machine

namespace Interpreter

open Machine

/-- The access that a snippet asks for after `k` others if everything is allowed, as long as its
loops may go on. -/
def Asks (i : Interpreter) (h : Host) (text : List Char) (k : Nat) (a : Access) : Prop :=
  ∃ n, (asked (i.evalFragment (h.ungated.withFuel n) text).effects)[k]? = some a

/-- The first access that a gate refuses comes after `k` others. -/
structure FirstRefusal (i : Interpreter) (h : Host) (gate : Nat → Access → Option Denial)
    (text : List Char) (k : Nat) (a : Access) (d : Denial) : Prop where
  asks : i.Asks h text k a
  refused : gate (i.progress.checks + k) a = some d
  first : ∀ {j b}, j < k → i.Asks h text j b → gate (i.progress.checks + j) b = none

/-- A snippet of an interpreter ends with a refusal after `k` accesses, and `whole` is how it would
go on. -/
structure EndsRefused (i : Interpreter) (text : List Char) (k : Nat) (d : Denial)
    (part whole : Portion) : Prop where
  event : ∃ kind, part.events =
    [{ snippet := ⟨i.nextId, kind, String.ofList text⟩, status := .valid, value := none,
       exception := some ⟨"java.lang.SecurityException", d.message⟩ }]
  count : (asked part.effects).length = k + 1
  asked : asked part.effects = (asked whole.effects).take (k + 1)
  effects : part.effects <:+ whole.effects
  output : ∀ stream, written stream part.effects <+: written stream whole.effects
  session : part.interpreter.session.outline = i.session.outline
  goesOn : part.isStopped = false

section Snippets

variable {i : Interpreter} {h : Host} {gate : Nat → Access → Option Denial} {text : List Char}

/-- An access that is asked for with some fuel is asked for with more fuel, too. -/
theorem asked_fuel_mono {snippet : Snippet} {p : Program.TopLevel} {n m k : Nat} {a : Access}
    (hnm : n ≤ m) (hk : (Machine.asked
      (runTop snippet p (h.ungated.withFuel n) i.start).2.effects)[k]? = some a) :
    (Machine.asked (runTop snippet p (h.ungated.withFuel m) i.start).2.effects)[k]? = some a := by
  rcases (assembled_runTop snippet p).fuel_mono i.start hnm with heq | ⟨-, hlater⟩
  · rw [heq]
    exact hk
  · exact asked_of_later hlater hk

/-- What is left of a snippet whose run was refused an access. -/
theorem endsRefused_of_run {snippet : Snippet} {p : Program.TopLevel} {ds : List Diagnostic}
    {host free : Host} {k : Nat} {a : Access} {d : Denial} (haccepts : i.Accepts text snippet p)
    (houtcome : (runTop snippet p host i.start).1 = .error (.thrown (.denied d)))
    (hasked : Machine.asked (runTop snippet p host i.start).2.effects =
      (Machine.asked (runTop snippet p free i.start).2.effects).take (k + 1))
    (hsuffix : (runTop snippet p host i.start).2.effects <:+
      (runTop snippet p free i.start).2.effects)
    (hk : (Machine.asked (runTop snippet p free i.start).2.effects)[k]? = some a) :
    i.EndsRefused text k d ((i.issue ds).run host snippet p)
      ((i.issue ds).run free snippet p) := by
  obtain ⟨tree, -, rfl, -⟩ := haccepts
  obtain ⟨hevents, heffects, hsession, -⟩ := run_eq (i.issue ds) host _ p
  have hstart : (i.issue ds).start = i.start := rfl
  rw [hstart] at hevents heffects hsession
  rw [houtcome] at hevents
  refine ⟨⟨kindOf tree, hevents⟩, ?_, ?_, ?_, ?_, ?_, ?_⟩
  · obtain ⟨hlt, -⟩ := List.getElem?_eq_some_iff.mp hk
    rw [heffects, hasked, List.length_take]
    omega
  · exact hasked
  · exact hsuffix
  · exact fun _ => written_prefix hsuffix
  · rw [hsession]
    exact runTop_settled _ p host i.start _ houtcome
  · refine run_goesOn ?_ ?_ <;> rw [hstart, houtcome] <;> simp

/-- **A denial cannot be swallowed.**  A gate that allows every access that the snippet asks for
changes nothing about it.  Another gate ends it at the first access that it refuses, however much
fuel is left. -/
theorem denial_ends_snippet (i : Interpreter) (h : Host) (gate : Nat → Access → Option Denial)
    (text : List Char) :
    ((∀ k a, i.Asks h text k a → gate (i.progress.checks + k) a = none) →
      ∀ n, i.evalFragment ((h.gatedBy gate).withFuel n) text =
        i.evalFragment (h.ungated.withFuel n) text) ∧
    ∀ k a d, i.FirstRefusal h gate text k a d →
      ∃ n₀, ∀ n, n₀ ≤ n →
        i.EndsRefused text k d (i.evalFragment ((h.gatedBy gate).withFuel n) text)
          (i.evalFragment (h.ungated.withFuel n) text) ∧
        i.evalFragment ((h.gatedBy gate).withFuel n) text =
          i.evalFragment ((h.gatedBy gate).withFuel n₀) text := by
  rcases evalFragment_cases i text with ⟨snippet, p, ds, haccepts, heq⟩ | ⟨snippet, ds, heq⟩
  · have hx := assembled_runTop snippet p
    have hasks : ∀ {k a}, i.Asks h text k a ↔ ∃ n,
        (Machine.asked (runTop snippet p (h.ungated.withFuel n) i.start).2.effects)[k]? =
          some a := by
      intro k a
      simp only [Asks, heq]
      exact Iff.rfl
    simp only [heq]
    constructor
    · intro hall n
      refine run_congr ?_
      exact run_eq_ungated (h := h.withFuel n) hx rfl fun k a hk => hall k a (hasks.mpr ⟨n, hk⟩)
    · intro k a d hrefusal
      obtain ⟨n₀, hn₀⟩ := hasks.mp hrefusal.asks
      have hrun (n : Nat) (hn : n₀ ≤ n) :=
        run_denied (h := h.withFuel n) hx rfl (asked_fuel_mono hn hn₀) hrefusal.refused
          fun j b hj hb => hrefusal.first hj (hasks.mpr ⟨n, hb⟩)
      refine ⟨n₀, fun n hn => ⟨?_, run_congr ?_⟩⟩
      · obtain ⟨houtcome, hasked, hsuffix⟩ := hrun n hn
        exact endsRefused_of_run haccepts houtcome hasked hsuffix (asked_fuel_mono hn hn₀)
      · rcases hx.fuel_mono (h := h.gatedBy gate) i.start hn with hsame | ⟨hexhausted, -⟩
        · exact hsame
        · exact absurd ((hrun n₀ (Nat.le_refl _)).1.symm.trans hexhausted) (by simp)
  · simp only [Asks, heq]
    refine ⟨fun _ _ => trivial, fun k a d hrefusal => ?_⟩
    obtain ⟨n, hn⟩ := hrefusal.asks
    rw [heq] at hn
    cases hn

/-- A loop that writes for ever, and the refusal of its fifth access. -/
theorem denial_ends_loop :
    let text := "while (true) System.out.println(1);".toList
    let gate : Nat → Access → Option Denial := fun n _ => if n = 4 then some ⟨"enough"⟩ else none
    FirstRefusal {} .bare gate text 4 (.cls "java.lang.System") ⟨"enough"⟩ ∧
      ∃ n₀, ∀ n, n₀ ≤ n →
        EndsRefused {} text 4 ⟨"enough"⟩
          (evalFragment {} ((Host.bare.gatedBy gate).withFuel n) text)
          (evalFragment {} (Host.bare.ungated.withFuel n) text) ∧
        evalFragment {} ((Host.bare.gatedBy gate).withFuel n) text =
          evalFragment {} ((Host.bare.gatedBy gate).withFuel n₀) text := by
  intro text gate
  have hrefusal : FirstRefusal {} .bare gate text 4 (.cls "java.lang.System") ⟨"enough"⟩ := by
    refine ⟨⟨3, by decide +kernel⟩, rfl, fun {j b} hj _ => ?_⟩
    exact if_neg (by rw [Nat.zero_add]; omega)
  exact ⟨hrefusal, (denial_ends_snippet {} .bare gate text).2 4 _ _ hrefusal⟩

end Snippets

end Interpreter
end GuardedRepl
