import GuardedRepl.CommandLine.Program
import GuardedRepl.Proofs.Evaluator.AuditTrail
import GuardedRepl.Proofs.Text.Utf8

/-!
# The file of the audit trail

A shell adds to the file of the audit trail whenever it goes over to a new state of its evaluator.
So after any moves the file has a line for each evaluation that was begun while the evaluator was
ready, whatever engine each of them ran on.  That the bytes get there is left to the file system.

**Results.**
* `Files.Tree.lookup_append`: what a file holds after something was added to it.
* `Audits.advance`, `Audits.make`, `Audits.makeAll`: what a new state of the evaluator, a move, and
  a row of moves add to the file.
* `audit_trail`: the file after any moves.
* `Audits.runCommand`: the file that the program leaves when it has run a single command.
-/

namespace GuardedRepl

/-- What is added to a file stands behind what it held, and a file that is missing holds nothing. -/
theorem Files.Tree.lookup_append (t : Files.Tree) (names : List String) (bytes : List UInt8) :
    (t.append names bytes).files.lookup names =
      some ((t.files.lookup names).getD [] ++ bytes) := by
  have hadded (files : List (List String × List UInt8)) (old : List UInt8)
      (h : files.lookup names = some old) :
      (files.map fun file => (file.1, if file.1 = names then file.2 ++ bytes else file.2)).lookup
        names = some (old ++ bytes) := by
    induction files with
    | nil => cases h
    | cons file rest ih =>
        by_cases hpath : file.1 = names
        · subst hpath
          rw [List.lookup_cons_self, Option.some_inj] at h
          simp [h]
        · have hne : (names == file.1) = false := beq_eq_false_iff_ne.mpr (Ne.symm hpath)
          rw [List.lookup_cons, hne] at h
          simp [List.lookup_cons, hne, ih h]
  unfold Files.Tree.append
  rcases hfound : t.files.lookup names with _ | old
  · simp [List.lookup_append, hfound]
  · exact hadded t.files old hfound

namespace CommandLine
namespace Shell

open Evaluator (Move Performed Tells)

variable {σ : Type}

/-- The text of entries in the file, each on a line. -/
def auditText (es : List AuditEntry) : List Char :=
  es.flatMap fun e => e.toJson.toList ++ ['\n']

/-- Makes a move on the evaluator of a shell.  A command goes the way of every command; whatever
else is asked of the evaluator, the shell goes over to its new state. -/
def make (E : Engine σ) (s : Shell σ) : Move → Shell σ
  | .eval timestamp command => (s.evaluate E timestamp command).shell
  | .diagnostics id => (s.advance (s.evaluator.diagnostics E id).2).2
  | .close => (s.advance s.evaluator.close).2
  | .stray what => (s.advance (s.evaluator.stray what)).2

/-- Makes moves one after another, each on an engine of its own. -/
def makeAll (s : Shell σ) (moves : List (Engine σ × Move)) : Shell σ :=
  moves.foldl (fun s move => s.make move.1 move.2) s

/-- The evaluations that are begun, one after another, while the evaluator is ready. -/
def performedIn (s : Shell σ) : List (Engine σ × Move) → List Performed
  | [] => []
  | (E, m) :: moves => s.evaluator.performed E m ++ performedIn (s.make E m) moves

/-- The shell adds the audit trail of its evaluator to a file, which is there. -/
structure Audits (s : Shell σ) (names : List String) (content : List UInt8) : Prop where
  file : s.auditFile = some names
  trail : s.evaluator.trail.isSome = true
  content : s.files.files.lookup names = some content

variable {s : Shell σ} {names : List String} {content : List UInt8}

/-- A shell that goes over to a new state of its evaluator adds to the file what is new in the
trail. -/
theorem Audits.advance (h : s.Audits names content) {ev : Evaluator σ} {added : List AuditEntry}
    (htrail : ev.trail.isSome = true) (hgrows : ev.entries = s.evaluator.entries ++ added) :
    (s.advance ev).2.Audits names (content ++ Text.Utf8.encode (auditText added)) := by
  have hlines : (String.join (added.map fun e => e.toJson ++ "\n")).toList = auditText added := by
    simp [auditText, String.toList_join, List.flatMap_map]
  unfold Shell.advance
  simp only [h.file, hgrows, List.drop_left, hlines]
  refine ⟨rfl, htrail, ?_⟩
  rw [Files.Tree.lookup_append, h.content, Option.getD_some]

theorem shell_evaluate (E : Engine σ) (s : Shell σ) (timestamp command : String) :
    (s.evaluate E timestamp command).shell =
      (s.advance (s.evaluator.eval E timestamp command).2).2 := by
  unfold evaluate
  rcases s.evaluator.eval E timestamp command with ⟨_ | _, ev⟩ <;> rfl

/-- In every move the shell goes over to the new state of its evaluator. -/
theorem make_eq (E : Engine σ) (s : Shell σ) (m : Move) :
    s.make E m = (s.advance (s.evaluator.moved E m)).2 := by
  cases m with
  | eval timestamp command => exact shell_evaluate E s timestamp command
  | diagnostics id => rfl
  | close => rfl
  | stray what => rfl

/-- A move adds a line about the evaluation that it begins. -/
theorem Audits.make (h : s.Audits names content) (E : Engine σ) (m : Move) :
    (s.make E m).Audits names (content ++
      Text.Utf8.encode (auditText ((s.evaluator.performed E m).map Performed.entry))) := by
  obtain ⟨back, hback⟩ := Option.isSome_iff_exists.mp h.trail
  have htrail : (s.evaluator.moved E m).trail.isSome = true := by
    rw [Evaluator.trail_moved E hback]
    rfl
  rw [make_eq]
  exact h.advance htrail (Evaluator.entries_moved E h.trail m)

/-- Moves add lines about the evaluations that they begin. -/
theorem Audits.makeAll (h : s.Audits names content) (moves : List (Engine σ × Move)) :
    (s.makeAll moves).Audits names (content ++
      Text.Utf8.encode (auditText ((s.performedIn moves).map Performed.entry))) := by
  induction moves generalizing s content with
  | nil => simpa [Shell.makeAll, performedIn, auditText] using h
  | cons move moves ih =>
      obtain ⟨E, m⟩ := move
      have hrest := ih (h.make E m)
      rw [List.append_assoc, ← Text.Utf8.encode_append] at hrest
      simpa only [Shell.makeAll, List.foldl_cons, performedIn, List.map_append, auditText,
        List.flatMap_append] using hrest

theorem equip_eq_ok {c : Config} {engine : σ} {files : Files.Tree} {path : Files.Path}
    {ev : Evaluator σ} (hpath : auditPath? c = some path)
    (hbuild : Evaluator.build c (.ok engine) c.auditEnabled = .ok ev)
    (hopened : files.opened path = .ok names) :
    equip c engine files = .ok ⟨c, files.append names [], some names, ev⟩ := by
  simp only [equip, hbuild, hpath, hopened]
  rfl

/-- A shell that has a file for the audit trail has opened it, and the file is there. -/
theorem audits_of_equip {c : Config} {engine : σ} {files : Files.Tree} {path : Files.Path}
    (hpath : auditPath? c = some path) (hequip : equip c engine files = .ok s) :
    ∃ names, files.opened path = .ok names ∧
      s.Audits names ((files.files.lookup names).getD []) := by
  have haudited : c.auditEnabled = true := by
    unfold auditPath? at hpath
    split at hpath
    · assumption
    · cases hpath
  rcases hbuild : Evaluator.build c (.ok engine) c.auditEnabled with e | ev
  · simp only [equip, hbuild] at hequip
    cases hequip
  · rcases hopened : files.opened path with o | names
    · simp only [equip, hbuild, hpath, hopened] at hequip
      cases hequip
    · rw [equip_eq_ok hpath hbuild hopened] at hequip
      cases hequip
      refine ⟨names, rfl, rfl, ?_, ?_⟩
      · rw [Evaluator.trail_build (haudited ▸ hbuild)]
        rfl
      · rw [Files.Tree.lookup_append, List.append_nil]

/-- **The file of the audit trail.**  A shell with a file for its audit trail adds to it, after any
moves, one line for each evaluation that was begun while the evaluator was ready, in this order, and
nothing else.  A line tells the longest beginning of the command that fits, and how the evaluation
ended. -/
theorem audit_trail {c : Config} {engine : σ} {files : Files.Tree} {path : Files.Path}
    (hpath : auditPath? c = some path) (hequip : equip c engine files = .ok s)
    (moves : List (Engine σ × Move)) :
    ∃ names lines, files.opened path = .ok names ∧
      (s.makeAll moves).files.files.lookup names = some ((files.files.lookup names).getD [] ++
        Text.Utf8.encode (lines.flatMap fun line => line ++ ['\n'])) ∧
      List.Forall₂ Tells (s.performedIn moves) lines := by
  obtain ⟨names, hopened, haudits⟩ := audits_of_equip hpath hequip
  refine ⟨names, (s.performedIn moves).map fun p => p.entry.toJson.toList, hopened, ?_, ?_⟩
  · rw [(haudits.makeAll moves).content, auditText, List.flatMap_map, List.flatMap_map]
  · rw [List.forall₂_map_right_iff]
    exact List.forall₂_same.mpr fun p _ => Evaluator.tells_toJson p

/-- A command with characters that are escaped, one that has to be abandoned, and two that are
refused, before and after the evaluator is closed. -/
def refusals : List (Engine Unit × Move) :=
  [.eval "7" "\"é\n\x01\"", .eval "8" "wait", .eval "9" "one", .stray (.write [0]), .close,
    .diagnostics 0, .eval "10" "two"].map fun m => (Evaluator.waiter, m)

/-- A configuration with a file for the audit trail. -/
def auditing : Config :=
  { auditEnabled := true, auditDestination := .file "audit.jsonl" }

/-- A directory in which the file has a blank line already. -/
def withBlankLine : Files.Tree :=
  ⟨["home"], [], [(["home", "audit.jsonl"], [10])]⟩

theorem audit_trail_refusals :
    ∃ s names lines, equip auditing () withBlankLine = .ok s ∧
      (s.performedIn refusals).map Performed.timestamp = ["7", "8"] ∧
      withBlankLine.opened ⟨"audit.jsonl"⟩ = .ok names ∧
      (s.makeAll refusals).files.files.lookup names =
        some ((withBlankLine.files.lookup names).getD [] ++
          Text.Utf8.encode (lines.flatMap fun line => line ++ ['\n'])) ∧
      List.Forall₂ Tells (s.performedIn refusals) lines := by
  obtain ⟨filter, hvalidate⟩ : ∃ filter, auditing.validate = .ok filter := ⟨_, rfl⟩
  let ev : Evaluator Unit :=
    ⟨some (), .ready, ⟨filter, false⟩, ⟨5000, 1000⟩, .empty 65536, some [], []⟩
  have hbuild : Evaluator.build auditing (.ok ()) true = .ok ev := by
    unfold Evaluator.build
    rw [hvalidate]
    rfl
  have hopened : withBlankLine.opened ⟨"audit.jsonl"⟩ = .ok ["home", "audit.jsonl"] := by
    decide +kernel
  have hpath : auditPath? auditing = some ⟨"audit.jsonl"⟩ := rfl
  have hequip := equip_eq_ok hpath hbuild hopened
  obtain ⟨names, lines, hnames, hcontent, htells⟩ := audit_trail hpath hequip refusals
  exact ⟨_, names, lines, hequip, rfl, hnames, hcontent, htells⟩

/-! ### The program -/

/-- A command that a shell runs on the interpreter is a move, on an engine that sees the files as
they are by then. -/
theorem shell_run (w : World) (s : Shell Interpreter) (command : String) :
    (s.run w command).shell =
      s.make (Interpreter.engine { clock := w.clock, processors := w.processors, files := s.files })
        (.eval (toString (w.clock 0 / 1000000000)) command) :=
  rfl

/-- A program that runs a single command leaves one more line in the file, which tells of this
command, whether or not the command succeeds. -/
theorem Audits.runCommand {s : Shell Interpreter} (h : s.Audits names content)
    (hready : s.evaluator.phase = .ready) (w : World) (command : String) :
    ∃ p line, p.command = command ∧ Tells p line ∧
      (CommandLine.runCommand w s command).files.files.lookup names =
        some (content ++ Text.Utf8.encode (line ++ ['\n'])) := by
  have hfiles : (CommandLine.runCommand w s command).files = (s.run w command).shell.files := by
    simp only [CommandLine.runCommand]
    split <;> rfl
  obtain ⟨E, m, hshell, p, hperformed, hcommand⟩ : ∃ E m, (s.run w command).shell = s.make E m ∧
      ∃ p, s.evaluator.performed E m = [p] ∧ p.command = command :=
    ⟨_, _, shell_run w s command, _, if_pos hready, rfl⟩
  refine ⟨p, _, hcommand, Evaluator.tells_toJson p, ?_⟩
  rw [hfiles, hshell, (h.make E m).content, hperformed]
  simp [auditText]

end Shell
end CommandLine
end GuardedRepl
