import GuardedRepl.Proofs.Evaluator.LifeCycle
import GuardedRepl.Proofs.Text.Cuts
import GuardedRepl.Proofs.Text.Json

/-!
# What the audit trail tells

Each evaluation that an evaluator begins while it is ready adds one entry to the audit trail, and
nothing else does.  The text of an entry is a line of JSON.  Read back, it tells the longest
beginning of the command that fits, whatever characters the command is made of, and how the
evaluation ended.

**Results.**
* `trail_moved`, `entries_moved`: the entries that a move adds.
* `reads_jsonResult`, `tells_toJson`: what an entry tells.
-/

namespace GuardedRepl
namespace Evaluator

variable {σ : Type}

/-! ## Entries -/

/-- An evaluation that an evaluator performed: its result, and the milliseconds it took. -/
structure Performed where
  timestamp : String
  command : String
  result : Except EvalError EvalResult
  elapsed : Nat

/-- The entry about an evaluation. -/
def Performed.entry (p : Performed) : AuditEntry :=
  Audit.entry p.timestamp p.command (auditResult p.result) p.elapsed

/-- The evaluation that a move begins, if the evaluator is ready. -/
def performed (E : Engine σ) (ev : Evaluator σ) : Move → List Performed
  | .eval timestamp command =>
    if ev.phase = .ready then
      [⟨timestamp, command, (ev.eval E timestamp command).1, (perform E ev command).elapsed⟩]
    else []
  | _ => []

theorem trail_build {c : Config} {s : σ} {start : Evaluator σ}
    (h : build c (.ok s) true = .ok start) : start.trail = some [] := by
  unfold build at h
  split at h
  · cases h
  · cases h
    rfl

/-- The evaluator after a move. -/
def moved (E : Engine σ) (ev : Evaluator σ) : Move → Evaluator σ
  | .eval timestamp command => (ev.eval E timestamp command).2
  | .diagnostics id => (ev.diagnostics E id).2
  | .close => ev.close
  | .stray s => ev.stray s

section Entries

variable (E : Engine σ) {ev : Evaluator σ} {back : List AuditEntry}

theorem trail_run (s : σ) (command : String) : (run E ev s command).next.trail = ev.trail := by
  unfold run
  split
  · rfl
  · simp only
    split <;> rfl

theorem trail_perform (command : String) : (perform E ev command).next.trail = ev.trail := by
  unfold perform
  split
  · rfl
  · exact trail_run E _ command

theorem trail_eval (h : ev.trail = some back) (timestamp command : String) :
    (ev.eval E timestamp command).2.trail =
      some (((performed E ev (.eval timestamp command)).map Performed.entry).reverse ++ back) := by
  by_cases hphase : ev.phase = .ready
  · have hkept : (perform E ev command).next.trail = some back :=
      (trail_perform E command).trans h
    simp only [performed, if_pos hphase, List.map_singleton, List.reverse_singleton]
    simp only [Evaluator.eval, hphase, record, hkept, Option.map_some]
    rfl
  · obtain ⟨e, -, heval⟩ := eval_not_ready E timestamp command hphase
    rw [heval, performed, if_neg hphase]
    exact h

/-- A move adds the entry about the evaluation that it begins. -/
theorem trail_moved (h : ev.trail = some back) (m : Move) :
    (moved E ev m).trail = some (((performed E ev m).map Performed.entry).reverse ++ back) := by
  cases m with
  | eval timestamp command => exact trail_eval E h timestamp command
  | diagnostics id =>
      simp only [moved, Evaluator.diagnostics]
      split <;> exact h
  | close =>
      simp only [moved, Evaluator.close]
      split <;> exact h
  | stray s => cases s <;> exact h

/-- The trail only grows. -/
theorem entries_moved (h : ev.trail.isSome = true) (m : Move) :
    (moved E ev m).entries = ev.entries ++ (performed E ev m).map Performed.entry := by
  obtain ⟨back, hback⟩ := Option.isSome_iff_exists.mp h
  simp [entries, hback, trail_moved E hback m]

end Entries

/-! ## Lines -/

/-- How an evaluation ended, as JSON. -/
def outcome : Except EvalError EvalResult → Json
  | .ok r =>
    let failures := r.events.countP fun e => e.status = .rejected || e.exception.isSome
    if failures = 0 then .object [("type", .string "success")]
    else .object [("type", .string "failed"), ("failures", .number failures 0)]
  | .error (.timeout _ _) => .object [("type", .string "timeout")]
  | .error e => .object [("type", .string "error"), ("message", .string e.message)]

/-- What a line tells about an evaluation. -/
structure Tells (p : Performed) (line : List Char) : Prop where
  one : '\n' ∉ line
  read : ∃ front, Text.Utf8.Longest Audit.maxCommandBytes p.command.toList front ∧
    Json.read line = some (.object [
      ("timestamp", .string p.timestamp),
      ("command", .string (String.ofList front)),
      ("result", outcome p.result),
      ("duration_ms", .number p.elapsed 0)])

theorem reads_jsonResult (depth : Nat) (result : Except EvalError EvalResult) :
    Json.Reads (depth + 1) (Audit.jsonResult (auditResult result)) (outcome result) := by
  have htype (name : String) :
      Json.ReadsField depth ("type", Audit.jsonString name) ("type", .string name) :=
    ⟨rfl, Json.reads_string depth name⟩
  have herror (message : String) : Json.Reads (depth + 1) (Audit.jsonResult (.error message))
      (.object [("type", .string "error"), ("message", .string message)]) :=
    Json.reads_object (.cons (htype _) (.cons ⟨rfl, Json.reads_string depth message⟩ .nil))
  cases result with
  | ok r =>
      change Json.Reads (depth + 1)
        (Audit.jsonResult (if r.failures = 0 then .success else .failed r.failures))
        (if r.failures = 0 then .object [("type", .string "success")]
          else .object [("type", .string "failed"), ("failures", .number r.failures 0)])
      split_ifs with hfailures
      · exact Json.reads_object (.cons (htype _) .nil)
      · exact Json.reads_object
          (.cons (htype _) (.cons ⟨rfl, Json.reads_toString depth r.failures⟩ .nil))
  | error e =>
      cases e with
      | timeout deadline stopped => exact Json.reads_object (.cons (htype _) .nil)
      | config | engine | sandbox | enginePanicked | retired | closed => exact herror _

theorem newline_not_mem_jsonResult (r : AuditResult) : '\n' ∉ (Audit.jsonResult r).toList := by
  cases r with
  | success => exact Json.newline_not_mem_jsonObject (by simp [Json.newline_not_mem_jsonString])
  | failed n =>
      exact Json.newline_not_mem_jsonObject
        (by simp [Json.newline_not_mem_jsonString, Json.newline_not_mem_toDigits])
  | timeout => exact Json.newline_not_mem_jsonObject (by simp [Json.newline_not_mem_jsonString])
  | error message =>
      exact Json.newline_not_mem_jsonObject (by simp [Json.newline_not_mem_jsonString])

/-- The text of an entry tells what there is to tell about an evaluation. -/
theorem tells_toJson (p : Performed) : Tells p p.entry.toJson.toList where
  one := by
    refine Json.newline_not_mem_jsonObject ?_
    simp [Json.newline_not_mem_jsonString, Json.newline_not_mem_toDigits,
      newline_not_mem_jsonResult]
  read := by
    refine ⟨_, Text.Utf8.longest_takeBytes _ _, Json.Reads.read_eq (Json.reads_object ?_)⟩
    exact .cons ⟨rfl, Json.reads_string 127 p.timestamp⟩
      (.cons ⟨rfl, Json.reads_string 127 _⟩ (.cons ⟨rfl, reads_jsonResult 126 p.result⟩
        (.cons ⟨rfl, Json.reads_toString 127 p.elapsed⟩ .nil)))

end Evaluator
end GuardedRepl
