import GuardedRepl.Proofs.Session.Fragments
import Mathlib.Data.List.Nodup

/-!
# Histories

The history of an interpreter is the list of all events that its commands have yielded.  Every
fragment adds one event of its own, which has the next number, and behind it at most one event of a
snippet that it overwrites.  What each fragment keeps of an interpreter and its history holds behind
every command.

**Results.**
* `exists_judged`: what is found out about a fragment before it is run, and what becomes of it.
* `evalFragment_own`: what a fragment adds to the history.
* `eval_advances`: what fragments keep, commands keep.
* `History.numbered`: the events that snippets have of their own are numbered 1, 2, 3, …
-/

namespace GuardedRepl

/-- Whether an event is the one that its snippet has of its own, and not the one that tells of a
later snippet which took over its variable. -/
def Event.isOwn (e : Event) : Bool :=
  e.status ≠ .overwritten

namespace Interpreter

open Machine (Host)

/-- The interpreters that commands lead to, each with all events so far. -/
inductive History : Interpreter → List Event → Prop
  | fresh : History {} []
  | evaluated {i : Interpreter} {events : List Event} (host : Host) (command : String) :
      History i events →
      History (i.eval host command).interpreter (events ++ (i.eval host command).events)
  | closed {i : Interpreter} {events : List Event} : History i events → History i.close events

/-! ### One fragment -/

/-- What is found out about a fragment before it is run: its snippet, the diagnostics, and the
program, if there is one. -/
inductive Judged (i : Interpreter) (text : List Char) :
    Snippet → List Diagnostic → Option Program.TopLevel → Prop
  | unread {f : Source.Fault} : read text = .error f →
      Judged i text ⟨i.nextId, .statement, String.ofList text⟩ [diagnosticOf i.nextId f] none
  | lookedUp {tree : Syntax.TopLevel Source.Span} : read text = .ok tree →
      Judged i text ⟨i.nextId, kindOf tree, String.ofList text⟩
        ((Program.resolve i.session.names tree).findings.map
          (Program.Finding.diagnostic i.nextId))
        (Program.resolve i.session.names tree).result

/-- What becomes of a fragment: it is rejected unless it has a program to run. -/
def dealtWith (i : Interpreter) (host : Host) (snippet : Snippet) (ds : List Diagnostic) :
    Option Program.TopLevel → Portion
  | none => ⟨[.rejected snippet], [], false, i.issue ds⟩
  | some p => (i.issue ds).run host snippet p

theorem exists_judged (i : Interpreter) (text : List Char) :
    ∃ snippet ds p?, i.Judged text snippet ds p? ∧
      ∀ host, i.evalFragment host text = i.dealtWith host snippet ds p? := by
  rcases hread : read text with f | tree
  · refine ⟨_, _, _, .unread hread, fun _ => ?_⟩
    simp only [evalFragment, hread]
    rfl
  · refine ⟨_, _, _, .lookedUp hread, fun _ => ?_⟩
    simp only [evalFragment, hread]
    rcases (Program.resolve i.session.names tree).result with _ | p <;> rfl

theorem Judged.snippet_eq {i : Interpreter} {text : List Char} {snippet : Snippet}
    {ds : List Diagnostic} {p? : Option Program.TopLevel} (h : i.Judged text snippet ds p?) :
    snippet.id = i.nextId ∧ snippet.source = String.ofList text := by
  cases h <;> exact ⟨rfl, rfl⟩

/-- The events of a run: the snippet's own one, and that of the snippet whose variable it took. -/
theorem eventsOf_eq (snippet : Snippet) (outcome : Except Machine.Interrupt Machine.Finished) :
    ∃ e, e.isOwn = true ∧ e.status = .valid ∧ e.snippet = snippet ∧
      eventsOf snippet outcome = e :: ((outcome.toOption.bind Machine.Finished.displaced).map
        fun owner => Event.overwritten owner snippet.id).toList := by
  cases outcome <;> exact ⟨_, rfl, rfl, rfl, rfl⟩

/-- What a fragment adds to the history: an event of its own, and one for the snippet that it
overwrites, if there is one. -/
theorem evalFragment_own (i : Interpreter) (host : Host) (text : List Char) :
    ∃ (e : Event) (displaced : Option Snippet), e.isOwn = true ∧ e.snippet.id = i.nextId ∧
      e.snippet.source = String.ofList text ∧
      (i.evalFragment host text).interpreter.nextId = i.nextId + 1 ∧
      (i.evalFragment host text).events.reverse =
        e :: (displaced.map fun owner => Event.overwritten owner i.nextId).toList := by
  obtain ⟨snippet, ds, p?, hjudged, heq⟩ := exists_judged i text
  obtain ⟨hid, hsource⟩ := hjudged.snippet_eq
  rw [heq]
  cases p? with
  | none => exact ⟨_, none, rfl, hid, hsource, rfl, rfl⟩
  | some p =>
      obtain ⟨hevents, -⟩ := run_eq (i.issue ds) host snippet p
      obtain ⟨e, hown, -, hsnippet, hall⟩ := eventsOf_eq snippet
        (Machine.runTop snippet p host (i.issue ds).start).1
      rw [hid] at hall
      subst hsnippet
      exact ⟨e, _, hown, hid, hsource, rfl,
        (congrArg List.reverse hevents).trans ((List.reverse_reverse _).trans hall)⟩

theorem evalFragment_isClosed (i : Interpreter) (host : Host) (text : List Char) :
    (i.evalFragment host text).interpreter.isClosed = i.isClosed := by
  obtain ⟨snippet, ds, p?, -, heq⟩ := exists_judged i text
  rw [heq]
  cases p? <;> rfl

theorem eval_isClosed (i : Interpreter) (host : Host) (command : String) :
    (i.eval host command).interpreter.isClosed = i.isClosed :=
  eval_keeps (Q := fun j => j.isClosed = i.isClosed)
    (fun _ text hj => (evalFragment_isClosed _ host text).trans hj) i command rfl

/-! ### From fragments to commands -/

section Advances

variable {P : Interpreter → List Event → Prop} {host : Host}

theorem evalFragments_advances {before : List Event}
    (hstep : ∀ {i events} text, i.isClosed = false → P i events →
      P (i.evalFragment host text).interpreter
        (events ++ (i.evalFragment host text).events.reverse))
    (texts : List (List Char)) (done : Portion) (hopen : done.interpreter.isClosed = false)
    (hdone : P done.interpreter (before ++ done.events.reverse)) :
    P (evalFragments host done texts).interpreter
      (before ++ (evalFragments host done texts).events.reverse) := by
  induction texts generalizing done with
  | nil => exact hdone
  | cons text texts ih =>
      have hnew := hstep text hopen hdone
      rw [List.append_assoc, ← List.reverse_append] at hnew
      have hopen' := evalFragment_isClosed done.interpreter host text
      rw [hopen] at hopen'
      simp only [evalFragments]
      split
      · exact hdone
      · split
        · exact hnew
        · exact ih _ hopen' hnew

/-- What fragments keep of an interpreter and its history, commands keep. -/
theorem eval_advances {i : Interpreter} {events : List Event}
    (hstep : ∀ {i events} text, i.isClosed = false → P i events →
      P (i.evalFragment host text).interpreter
        (events ++ (i.evalFragment host text).events.reverse))
    (command : String) (hi : P i events) :
    P (i.eval host command).interpreter (events ++ (i.eval host command).events) := by
  unfold eval
  split
  · rwa [List.append_nil]
  · rename_i hopen
    have hdone : P i (events ++ ([] : List Event).reverse) := by
      rwa [List.reverse_nil, List.append_nil]
    exact evalFragments_advances hstep _ ⟨[], [], false, i⟩ (Bool.eq_false_iff.mpr hopen) hdone

/-- What fresh interpreters have and fragments and closing keep holds of every history. -/
theorem History.advances {i : Interpreter} {events : List Event} (hi : History i events)
    (hfresh : P {} [])
    (hstep : ∀ {i events} host text, i.isClosed = false → P i events →
      P (i.evalFragment host text).interpreter
        (events ++ (i.evalFragment host text).events.reverse))
    (hclose : ∀ {i events}, P i events → P i.close events) : P i events := by
  induction hi with
  | fresh => exact hfresh
  | evaluated host command _ ih => exact eval_advances (hstep host) command ih
  | closed _ ih => exact hclose ih

end Advances

/-! ### Numbers -/

/-- The snippets of a history are numbered in the order of their events. -/
theorem History.numbered {i : Interpreter} {events : List Event} (hi : History i events) :
    ∃ n, i.nextId = n + 1 ∧
      (events.filter Event.isOwn).map (·.snippet.id) = List.range' 1 n := by
  refine hi.advances (P := fun i events => ∃ n, i.nextId = n + 1 ∧
    (events.filter Event.isOwn).map (·.snippet.id) = List.range' 1 n) ⟨0, rfl, rfl⟩ ?_ id
  rintro i events host text - ⟨n, hn, hids⟩
  obtain ⟨e, displaced, hown, hid, -, hnext, hevents⟩ := evalFragment_own i host text
  refine ⟨n + 1, by rw [hnext, hn], ?_⟩
  have hothers : (displaced.map fun owner => Event.overwritten owner i.nextId).toList.filter
      Event.isOwn = [] := by
    cases displaced <;> rfl
  rw [hevents, List.filter_append, List.filter_cons_of_pos hown, hothers, List.map_append, hids,
    List.map_cons, hid, hn, List.range'_1_concat, Nat.add_comm 1]
  rfl

end Interpreter
end GuardedRepl
