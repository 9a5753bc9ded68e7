import GuardedRepl.Proofs.Program.Places
import GuardedRepl.Proofs.Program.Scope
import GuardedRepl.Proofs.Session.History

/-!
# Diagnostics

What is found out about a fragment before it is run is kept under the number of its snippet.  An
error among it is what a snippet is rejected for, the places lie inside the source of the snippet,
and since no number is given twice, nothing that comes later touches it.

**Results.**
* `Judged.rejects_iff`, `Judged.concerns`: what is found out about one fragment.
* `evalFragment_rejected`: a snippet that is rejected has done nothing.
* `diagnostics_eval`: commands leave the diagnostics of earlier snippets as they are.
* `diagnostics_exact`: the diagnostics of every history.
-/

namespace GuardedRepl

/-- A diagnostic is one of a snippet, and it points at a stretch of the snippet's source which does
not cut a character. -/
structure Diagnostic.Concerns (d : Diagnostic) (s : Snippet) : Prop where
  id : d.snippet = s.id
  start_le_stop : d.start ≤ d.stop
  stop_le_size : d.stop ≤ s.source.utf8ByteSize
  start : String.Pos.Raw.IsValid s.source ⟨d.start⟩
  stop : String.Pos.Raw.IsValid s.source ⟨d.stop⟩

namespace Interpreter

open Machine (Host)
open Source (Span Fault)

/-! ### One fragment -/

/-- A diagnostic that has the span of something inside a text concerns the snippet of the text. -/
theorem concerns_of_inside {d : Diagnostic} {s : Snippet} {text : List Char}
    (hid : d.snippet = s.id) (hsource : s.source = String.ofList text)
    (h : Span.Inside text ⟨d.start, d.stop⟩) : d.Concerns s where
  id := hid
  start_le_stop := h.start_le_stop
  stop_le_size := by
    rw [hsource, Text.Utf8.utf8ByteSize_ofList]
    exact h.stop.le_size
  start := hsource ▸ h.start.isValid
  stop := hsource ▸ h.stop.isValid

theorem inside_of_read_fault {text : List Char} {f : Fault} (h : read text = .error f) :
    f.span.Inside text := by
  unfold read at h
  rcases htokens : Source.tokenize text with g | tokens <;> rw [htokens] at h
  · cases h
    exact Source.inside_of_tokenize_fault htokens
  · exact Syntax.place_of_parse_fault (Source.inside_of_tokenize htokens) h

theorem inside_of_read {text : List Char} {tree : Syntax.TopLevel Span}
    (h : read text = .ok tree) : tree.Tagged (Span.Inside text) := by
  unfold read at h
  rcases htokens : Source.tokenize text with g | tokens <;> rw [htokens] at h
  · cases h
  · exact Syntax.tagged_of_parse (Source.inside_of_tokenize htokens) h

section Judged

variable {i : Interpreter} {text : List Char} {snippet : Snippet} {ds : List Diagnostic}
  {p? : Option Program.TopLevel}

/-- A fragment has no program exactly if an error was found. -/
theorem Judged.rejects_iff (h : i.Judged text snippet ds p?) :
    p? = none ↔ ∃ d ∈ ds, d.severity = .error := by
  cases h with
  | unread => exact ⟨fun _ => ⟨_, List.mem_singleton_self _, rfl⟩, fun _ => rfl⟩
  | @lookedUp tree _ =>
      have hsound := Program.resolve_sound i.session.names tree
      unfold Program.Checked.Sound at hsound
      rw [← Option.isNone_iff_eq_none, ← Option.not_isSome, hsound, Bool.not_not,
        List.any_eq_true]
      constructor
      · rintro ⟨f, hf, herror⟩
        exact ⟨_, List.mem_map_of_mem hf, of_decide_eq_true herror⟩
      · rintro ⟨d, hd, herror⟩
        obtain ⟨f, hf, rfl⟩ := List.mem_map.mp hd
        exact ⟨f, hf, decide_eq_true herror⟩

/-- What is found out about a fragment points inside it. -/
theorem Judged.concerns (h : i.Judged text snippet ds p?) : ∀ d ∈ ds, d.Concerns snippet := by
  intro d hd
  cases h with
  | unread hread =>
      obtain rfl := List.mem_singleton.mp hd
      exact concerns_of_inside rfl rfl (inside_of_read_fault hread)
  | lookedUp hread =>
      obtain ⟨f, hf, rfl⟩ := List.mem_map.mp hd
      exact concerns_of_inside rfl rfl
        (Program.placed_resolve i.session.names (inside_of_read hread) f hf)

end Judged

/-- The events of a run tell of no snippet that is rejected, and its own one is of its snippet. -/
theorem event_of_run {i : Interpreter} {host : Host} {snippet : Snippet} {p : Program.TopLevel}
    {e : Event} (he : e ∈ (i.run host snippet p).events) :
    e.status ≠ .rejected ∧ (e.isOwn = true → e.snippet = snippet) := by
  obtain ⟨hevents, -⟩ := run_eq i host snippet p
  obtain ⟨own, -, hvalid, hsnippet, hall⟩ := eventsOf_eq snippet
    (Machine.runTop snippet p host i.start).1
  rw [hevents, List.mem_reverse, hall, List.mem_cons, Option.mem_toList] at he
  rcases he with rfl | he
  · rw [hvalid]
    exact ⟨nofun, fun _ => hsnippet⟩
  · obtain ⟨owner, -, rfl⟩ := Option.map_eq_some_iff.mp he
    exact ⟨nofun, nofun⟩

/-- A snippet that is rejected has asked for nothing, written nothing and changed nothing. -/
theorem evalFragment_rejected {i : Interpreter} {host : Host} {text : List Char} {e : Event}
    (he : e ∈ (i.evalFragment host text).events) (hrejected : e.status = .rejected) :
    (i.evalFragment host text).effects = [] ∧
      (i.evalFragment host text).interpreter.session = i.session ∧
      (i.evalFragment host text).interpreter.progress = i.progress := by
  obtain ⟨snippet, ds, p?, -, heq⟩ := exists_judged i text
  rw [heq] at he ⊢
  cases p? with
  | none => exact ⟨rfl, rfl, rfl⟩
  | some p => exact absurd hrejected (event_of_run he).1

/-! ### The numbers of snippets -/

/-- The diagnostics of one snippet do not touch those of another one. -/
theorem diagnostics_issue_of_ne {i : Interpreter} {id : Nat} (hid : id ≠ i.nextId)
    (ds : List Diagnostic) : (i.issue ds).diagnostics id = i.diagnostics id := by
  unfold issue diagnostics
  split
  · rfl
  · rw [List.lookup_cons, beq_false_of_ne hid]

/-- The diagnostics are kept under the number of the snippet, if that is a new one. -/
theorem diagnostics_issue {i : Interpreter} (hnew : ∀ k ∈ i.findings.map Prod.fst, k < i.nextId)
    (ds : List Diagnostic) : (i.issue ds).diagnostics i.nextId = ds := by
  unfold issue diagnostics
  split
  · next hempty =>
      have hnone : i.findings.lookup i.nextId = none := by
        refine List.lookup_eq_none_iff.mpr fun p hp => bne_iff_ne.mpr ?_
        exact (hnew p.1 (List.mem_map_of_mem hp)).ne'
      rw [hnone, List.isEmpty_iff.mp hempty]
      rfl
  · rw [List.lookup_cons_self]
    rfl

theorem issue_keys {i : Interpreter} (hnew : ∀ k ∈ i.findings.map Prod.fst, k < i.nextId)
    (ds : List Diagnostic) : ∀ k ∈ (i.issue ds).findings.map Prod.fst, k < (i.issue ds).nextId := by
  intro k hk
  unfold issue at hk ⊢
  simp only at hk ⊢
  split at hk
  · exact Nat.lt_succ_of_lt (hnew k hk)
  · rcases List.mem_cons.mp hk with rfl | hk
    · exact Nat.lt_succ_self _
    · exact Nat.lt_succ_of_lt (hnew k hk)

/-- Only the judgement on a fragment is kept, whatever comes of running it. -/
theorem dealtWith_kept (i : Interpreter) (host : Host) (snippet : Snippet) (ds : List Diagnostic)
    (p? : Option Program.TopLevel) :
    (i.dealtWith host snippet ds p?).interpreter.findings = (i.issue ds).findings ∧
      (i.dealtWith host snippet ds p?).interpreter.nextId = i.nextId + 1 := by
  cases p? <;> exact ⟨rfl, rfl⟩

theorem diagnostics_evalFragment {i : Interpreter} {id : Nat} (hid : id < i.nextId) (host : Host)
    (text : List Char) :
    (i.evalFragment host text).interpreter.diagnostics id = i.diagnostics id := by
  obtain ⟨snippet, ds, p?, -, heq⟩ := exists_judged i text
  rw [heq, diagnostics, (dealtWith_kept i host snippet ds p?).1]
  exact diagnostics_issue_of_ne hid.ne ds

/-- Commands leave the diagnostics of the snippets before them as they are. -/
theorem diagnostics_eval {i : Interpreter} {id : Nat} (hid : id < i.nextId) (host : Host)
    (command : String) : (i.eval host command).interpreter.diagnostics id = i.diagnostics id := by
  have hstep (j : Interpreter) (text : List Char)
      (hj : id < j.nextId ∧ j.diagnostics id = i.diagnostics id) :
      id < (j.evalFragment host text).interpreter.nextId ∧
        (j.evalFragment host text).interpreter.diagnostics id = i.diagnostics id := by
    obtain ⟨snippet, ds, p?, -, heq⟩ := exists_judged j text
    refine ⟨?_, (diagnostics_evalFragment hj.1 host text).trans hj.2⟩
    rw [heq, (dealtWith_kept j host snippet ds p?).2]
    exact Nat.lt_succ_of_lt hj.1
  exact (eval_keeps (Q := fun j => id < j.nextId ∧ j.diagnostics id = i.diagnostics id) hstep i
    command ⟨hid, rfl⟩).2

/-! ### Histories -/

/-- The diagnostics of a snippet are errors exactly if the snippet was rejected, and they point
inside it. -/
structure Diagnosed (i : Interpreter) (e : Event) : Prop where
  rejected_iff : e.status = .rejected ↔
    ∃ d ∈ i.diagnostics e.snippet.id, d.severity = .error
  concerns : ∀ d ∈ i.diagnostics e.snippet.id, d.Concerns e.snippet

theorem Diagnosed.congr {i j : Interpreter} {e : Event} (h : i.Diagnosed e)
    (heq : j.diagnostics e.snippet.id = i.diagnostics e.snippet.id) : j.Diagnosed e :=
  ⟨heq ▸ h.rejected_iff, heq ▸ h.concerns⟩

/-- The events that an interpreter has told of, and what it knows about them. -/
structure Informed (i : Interpreter) (events : List Event) : Prop where
  keys : ∀ k ∈ i.findings.map Prod.fst, k < i.nextId
  own : ∀ e ∈ events, e.isOwn = true → e.snippet.id < i.nextId ∧ i.Diagnosed e

/-- The event of a fragment goes with what was found out about it. -/
theorem diagnosed_dealtWith {i : Interpreter} {text : List Char} {snippet : Snippet}
    {ds : List Diagnostic} {p? : Option Program.TopLevel} (hjudged : i.Judged text snippet ds p?)
    (hkeys : ∀ k ∈ i.findings.map Prod.fst, k < i.nextId) (host : Host) {e : Event}
    (he : e ∈ (i.dealtWith host snippet ds p?).events) (hown : e.isOwn = true) :
    e.snippet.id = i.nextId ∧ (i.dealtWith host snippet ds p?).interpreter.Diagnosed e := by
  obtain ⟨hid, -⟩ := hjudged.snippet_eq
  have hds : (i.dealtWith host snippet ds p?).interpreter.diagnostics snippet.id = ds := by
    rw [diagnostics, (dealtWith_kept i host snippet ds p?).1, hid]
    exact diagnostics_issue hkeys ds
  have hevent : e.snippet = snippet ∧ (e.status = .rejected ↔ p? = none) := by
    cases p? with
    | none =>
        obtain rfl := List.mem_singleton.mp he
        exact ⟨rfl, fun _ => rfl, fun _ => rfl⟩
    | some p =>
        obtain ⟨hvalid, hsnippet⟩ := event_of_run he
        exact ⟨hsnippet hown, fun h => absurd h hvalid, nofun⟩
  obtain ⟨rfl, hstatus⟩ := hevent
  refine ⟨hid, ⟨?_, ?_⟩⟩ <;> rw [hds]
  · exact hstatus.trans hjudged.rejects_iff
  · exact hjudged.concerns

theorem Informed.advance {i : Interpreter} {events : List Event} (h : i.Informed events)
    (host : Host) (text : List Char) : (i.evalFragment host text).interpreter.Informed
      (events ++ (i.evalFragment host text).events.reverse) := by
  obtain ⟨snippet, ds, p?, hjudged, heq⟩ := exists_judged i text
  obtain ⟨hfindings, hnext⟩ := dealtWith_kept i host snippet ds p?
  have hkept {id : Nat} (hid : id < i.nextId) := diagnostics_evalFragment hid host text
  rw [heq] at hkept ⊢
  refine ⟨?_, fun e he hown => ?_⟩
  · rw [hfindings, hnext]
    exact issue_keys h.keys ds
  · rw [hnext]
    rcases List.mem_append.mp he with he | he
    · obtain ⟨hid, hdiagnosed⟩ := h.own e he hown
      exact ⟨Nat.lt_succ_of_lt hid, hdiagnosed.congr (hkept hid)⟩
    · obtain ⟨hid, hdiagnosed⟩ :=
        diagnosed_dealtWith hjudged h.keys host (List.mem_reverse.mp he) hown
      exact ⟨hid ▸ Nat.lt_succ_self _, hdiagnosed⟩

/-- An open interpreter has the diagnostics of all its snippets. -/
theorem History.informed {i : Interpreter} {events : List Event} (hi : History i events)
    (hopen : i.isClosed = false) : i.Informed events := by
  refine hi.advances (P := fun i events => i.isClosed = false → i.Informed events)
    (fun _ => ⟨nofun, nofun⟩) (fun host text hgo ih _ => (ih hgo).advance host text) ?_ hopen
  exact fun _ hclosed => nomatch hclosed

theorem History.exists_own {i : Interpreter} {events : List Event} (hi : History i events)
    {id : Nat} (hpos : 1 ≤ id) (hlt : id < i.nextId) :
    ∃ e ∈ events, e.isOwn = true ∧ e.snippet.id = id := by
  obtain ⟨n, hn, hids⟩ := hi.numbered
  have hmem : id ∈ (events.filter Event.isOwn).map (·.snippet.id) := by
    rw [hids, List.mem_range'_1]
    omega
  obtain ⟨e, he, rfl⟩ := List.mem_map.mp hmem
  obtain ⟨he, hown⟩ := List.mem_filter.mp he
  exact ⟨e, he, hown, rfl⟩

/-- **Diagnostics are exact and stable.**  Every number that an open interpreter has issued is that
of a snippet with an event of its own.  It was rejected exactly if its diagnostics contain an error,
its diagnostics point inside its source, and no later command changes them.  A snippet that is
rejected does nothing. -/
theorem diagnostics_exact {i : Interpreter} {events : List Event} (hi : History i events)
    (hopen : i.isClosed = false) :
    (∀ id, 1 ≤ id → id < i.nextId → ∃ e ∈ events, e.isOwn = true ∧ e.snippet.id = id) ∧
      (∀ e ∈ events, e.isOwn = true → i.Diagnosed e ∧ ∀ host command,
        (i.eval host command).interpreter.diagnostics e.snippet.id =
          i.diagnostics e.snippet.id) ∧
      ∀ (j : Interpreter) host text, ∀ e ∈ (j.evalFragment host text).events,
        e.status = .rejected → (j.evalFragment host text).effects = [] ∧
          (j.evalFragment host text).interpreter.session = j.session ∧
          (j.evalFragment host text).interpreter.progress = j.progress := by
  refine ⟨fun id => hi.exists_own, fun e he hown => ?_, fun j host text e => evalFragment_rejected⟩
  obtain ⟨hid, hdiagnosed⟩ := (hi.informed hopen).own e he hown
  exact ⟨hdiagnosed, fun host command => diagnostics_eval hid host command⟩

/-- The second snippet is rejected for a name behind a letter of two bytes. -/
theorem diagnostics_exact_unknown :
    let command := "1; \"é\" + y"
    let i := (eval {} Host.bare command).interpreter
    let events := (eval {} Host.bare command).events
    History i events ∧ i.isClosed = false ∧
      i.diagnostics 2 = [⟨2, .error, 7, 8, "cannot find symbol: variable y"⟩] ∧
      (∀ e ∈ events, e.isOwn = true → i.Diagnosed e) := by
  intro command i events
  have hi : History i events := .evaluated Host.bare command .fresh
  have hopen : i.isClosed = false := by decide +kernel
  exact ⟨hi, hopen, by decide +kernel,
    fun e he hown => ((diagnostics_exact hi hopen).2.1 e he hown).1⟩

end Interpreter
end GuardedRepl
