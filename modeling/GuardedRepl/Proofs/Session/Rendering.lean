import GuardedRepl.Proofs.Session.Course
import GuardedRepl.Proofs.Session.Diagnostics
import GuardedRepl.Proofs.Source.Rendered

/-!
# Renderings read back

What is shown for a string or an integer can be given back as a command, and the same is shown for
it again.  Nothing else comes of such a command: a number is used up and the host is asked once
whether to stop.

The smallest integer is the exception.  It is shown with its magnitude, which is beyond the range of
the literals, since a minus sign belongs to no literal.

**Results.**
* `Denotes.readsBack`: a text that denotes a value reads back if it is what is shown for the value.
* `denotes_quote`, `denotes_ofInt`: the rendering of a string or an integer denotes it.
* `strings_read_back`, `integers_read_back`: every string and every integer but the smallest one.
* `smallest_refused`: the smallest integer can be computed, and its rendering is refused.
-/

namespace GuardedRepl
namespace Interpreter

open Machine (Host Run)
open Source (endToken)
open Text.Utf8 (size)

/-- The progress of an interpreter that has asked another `n` times whether to stop. -/
def polled (i : Interpreter) (n : Nat) : Machine.Progress :=
  { i.progress with polls := i.progress.polls + n }

/-- A text as a command is one fragment, and all that comes of it is an event of an expression for
which the same text is shown. -/
structure ReadsBack (i : Interpreter) (host : Host) (text : String) : Prop where
  fragments : Source.fragments text.toList = [⟨0, text.toList⟩]
  eval : i.eval host text = ⟨[.valid ⟨i.nextId, .expression, text⟩ (some text)], [],
    { i with nextId := i.nextId + 1, progress := i.polled 1 }⟩

/-- Nothing has been found out about the snippet. -/
theorem ReadsBack.diagnostics {i : Interpreter} {host : Host} {text : String}
    (h : i.ReadsBack host text) {events : List Event} (hi : History i events)
    (hopen : i.isClosed = false) : (i.eval host text).interpreter.diagnostics i.nextId = [] := by
  rw [h.eval]
  exact diagnostics_issue (hi.informed hopen).keys []

/-! ### Texts that denote values -/

/-- A text is one fragment, and it is read as an expression that has a value whatever the host and
the state of the machine are, which it leaves alone. -/
structure Denotes (text : List Char) (v : Value) : Prop where
  fragments : Source.fragments text = [⟨0, text⟩]
  program : ∃ tree p, read text = .ok (.stmt (.simple (.expr tree))) ∧
    (∀ env, Program.resolveExpr env tree = pure p) ∧
    ∀ host s, Machine.eval p host s = (.ok v, s)

section Denotes

variable {i : Interpreter} {host : Host} {text : List Char} {v : Value}

/-- An expression that has a value whatever the state of the machine is. -/
theorem runTop_expr {p : Program.Expr} (heval : ∀ host s, Machine.eval p host s = (.ok v, s))
    (hgo : host.stops (i.polled 1) = false) (snippet : Snippet) :
    Machine.runTop snippet (.expr p) host i.start =
      (.ok { value := some v }, { i.start with progress := i.polled 1 }) := by
  have hpoll : Run.poll host i.start = (.ok (), { i.start with progress := i.polled 1 }) :=
    if_neg (Bool.eq_false_iff.mp hgo)
  simp only [Machine.runTop, bind, Run.andThen, hpoll, heval, pure, Run.result]

theorem Denotes.evalFragment_eq (h : Denotes text v) (hgo : host.stops (i.polled 1) = false) :
    i.evalFragment host text =
      ⟨[.valid ⟨i.nextId, .expression, String.ofList text⟩ v.render], [], false,
        { i with nextId := i.nextId + 1, progress := i.polled 1 }⟩ := by
  obtain ⟨tree, p, hread, hresolve, heval⟩ := h.program
  have hprogram : Program.resolve i.session.names (.stmt (.simple (.expr tree))) =
      pure (.expr p) := by
    rw [Program.resolve, hresolve]
    rfl
  have hrun : i.evalFragment host text =
      (i.issue []).run host ⟨i.nextId, .expression, String.ofList text⟩ (.expr p) := by
    unfold evalFragment
    simp only [hread, hprogram]
    rfl
  have hfinished := runTop_expr (i := i.issue []) heval hgo
    ⟨i.nextId, .expression, String.ofList text⟩
  rw [start] at hfinished
  rw [hrun, run, hfinished]
  rfl

/-- A text that denotes a value reads back if it is what is shown for the value. -/
theorem Denotes.readsBack (h : Denotes text v) (hrender : v.render = some (String.ofList text))
    (hopen : i.isClosed = false) (hgo : ∀ n ≤ 1, host.stops (i.polled n) = false) :
    i.ReadsBack host (String.ofList text) := by
  have htexts : textsOf (String.ofList text) = [text] := by
    rw [textsOf, String.toList_ofList, h.fragments, List.map_singleton]
  constructor
  · rw [String.toList_ofList, h.fragments]
  · have hstart : host.stops i.progress = false := hgo 0 (Nat.zero_le 1)
    rw [eval_eq hopen, htexts, evalFragments_cons, hstart, h.evalFragment_eq (hgo 1 le_rfl),
      hrender]
    rfl

end Denotes

/-! ### Strings and integers -/

/-- The rendering of a string denotes it. -/
theorem denotes_quote (cs : List Char) : Denotes (Value.quote cs) (.str (String.ofList cs)) := by
  refine ⟨Source.fragments_quote cs, .str ⟨0, size (Value.quote cs)⟩ (String.ofList cs),
    .str (String.ofList cs), ?_, fun _ => rfl, fun _ _ => ?_⟩
  · rw [read, Source.tokenize_quote]
    rfl
  · rw [Machine.eval]
    rfl

/-- An integer that is not negative is a literal of its own. -/
theorem denotes_numeral {k : Nat} (hk : k ≤ 0x7FFFFFFFFFFFFFFF) :
    Denotes (Text.Numeral.ofNat k) (.int (Int64.ofNat k)) := by
  refine ⟨Source.fragments_ofInt (.ofNat k), .int ⟨0, size (Text.Numeral.ofNat k)⟩ (Int64.ofNat k),
    .int (Int64.ofNat k), ?_, fun _ => rfl, fun _ _ => ?_⟩
  · rw [read, Source.tokenize_numeral hk]
    rfl
  · rw [Machine.eval]
    rfl

/-- A negative integer is computed from its magnitude, which has to be in the range. -/
theorem denotes_negative {k : Nat} (hk : k + 1 ≤ 0x7FFFFFFFFFFFFFFF) :
    Denotes ('-' :: Text.Numeral.ofNat (k + 1)) (.int (-Int64.ofNat (k + 1))) := by
  let magnitude : Source.Span := ⟨1, 1 + size (Text.Numeral.ofNat (k + 1))⟩
  refine ⟨Source.fragments_ofInt (.negSucc k),
    .unary (.through ⟨0, 1⟩ magnitude) .neg (.int magnitude (Int64.ofNat (k + 1))),
    .unary .neg (.int (Int64.ofNat (k + 1))), ?_, fun _ => rfl, fun _ _ => ?_⟩
  · rw [read, Source.tokenize_negative hk]
    rfl
  · rw [Machine.eval, Machine.eval]
    rfl

/-- The rendering of an integer denotes it, unless it is the smallest one. -/
theorem denotes_ofInt {n : Int64} (hn : n ≠ Int64.minValue) :
    Denotes (Text.Numeral.ofInt n.toInt) (.int n) := by
  have hlt := Int64.toInt_lt n
  have hle := Int64.le_toInt n
  rcases hint : n.toInt with k | k
  · have hk : n = Int64.ofNat k := by
      rw [← Int64.ofInt_toInt n, hint]
      rfl
    rw [hint] at hlt
    rw [hk]
    refine denotes_numeral ?_
    simp only [Int.ofNat_eq_natCast] at hlt
    omega
  · have hk : n = -Int64.ofNat (k + 1) := by
      rw [← Int64.ofInt_toInt n, hint, Int.negSucc_eq, Int64.ofInt_neg]
      rfl
    have hne : n.toInt ≠ -2 ^ 63 := fun heq => hn (Int64.toInt_inj.mp heq)
    rw [hint, Int.negSucc_eq] at hle hne
    rw [hk]
    refine denotes_negative ?_
    omega

/-! ### The laws -/

/-- **Strings read back.**  What is shown for a string is one fragment, which the lexer reads as that
string, and as a command it yields one event, for which the same is shown; there is no effect, no
diagnostic and no change of the session. -/
theorem strings_read_back {i : Interpreter} (hopen : i.isClosed = false) {host : Host}
    (hgo : ∀ n ≤ 1, host.stops (i.polled n) = false) (s : String) :
    ∃ text, Value.render (.str s) = some text ∧ i.ReadsBack host text ∧
      Source.tokenize text.toList =
        .ok [⟨.str s, ⟨0, text.utf8ByteSize⟩⟩, endToken text.utf8ByteSize] ∧
      ∀ events, History i events →
        (i.eval host text).interpreter.diagnostics i.nextId = [] := by
  have hdenotes := denotes_quote s.toList
  have htokens := Source.tokenize_quote s.toList
  rw [String.ofList_toList] at hdenotes htokens
  have hback := hdenotes.readsBack rfl hopen hgo
  refine ⟨_, rfl, hback, ?_, fun _ hi => hback.diagnostics hi hopen⟩
  rw [String.toList_ofList, Text.Utf8.utf8ByteSize_ofList]
  exact htokens

/-- A string with a quote, a backslash and marks of a fragment's end, in a session with a
variable. -/
theorem strings_read_back_marks :
    let i := (eval {} Host.bare "int x = 1").interpreter
    let s := "\"; // \\ é\n\t/* \x7d"
    History i (eval {} Host.bare "int x = 1").events ∧ i.isClosed = false ∧
      (∀ n ≤ 1, Host.bare.stops (i.polled n) = false) ∧
      ∃ text, Value.render (.str s) = some text ∧ i.ReadsBack Host.bare text ∧
        (i.eval Host.bare text).interpreter.diagnostics i.nextId = [] := by
  intro i s
  have hi : History i (eval {} Host.bare "int x = 1").events :=
    .evaluated Host.bare "int x = 1" .fresh
  have hopen : i.isClosed = false := by decide +kernel
  have hgo : ∀ n ≤ 1, Host.bare.stops (i.polled n) = false := fun _ _ => rfl
  obtain ⟨text, hrender, hback, -, hclean⟩ := strings_read_back hopen hgo s
  exact ⟨hi, hopen, hgo, text, hrender, hback, hclean _ hi⟩

/-- **Integers read back.**  What is shown for an integer, unless it is the smallest one, yields as a
command one event, for which the same is shown. -/
theorem integers_read_back {i : Interpreter} (hopen : i.isClosed = false) {host : Host}
    (hgo : ∀ n ≤ 1, host.stops (i.polled n) = false) {n : Int64} (hn : n ≠ Int64.minValue) :
    ∃ text, Value.render (.int n) = some text ∧ i.ReadsBack host text :=
  ⟨_, rfl, (denotes_ofInt hn).readsBack rfl hopen hgo⟩

/-- The second smallest integer. -/
theorem integers_read_back_second :
    let i : Interpreter := {}
    i.isClosed = false ∧ (∀ n ≤ 1, Host.bare.stops (i.polled n) = false) ∧
      -9223372036854775807 ≠ Int64.minValue ∧
      ∃ text, Value.render (.int (-9223372036854775807)) = some text ∧
        i.ReadsBack Host.bare text := by
  intro i
  have hgo : ∀ n ≤ 1, Host.bare.stops (i.polled n) = false := fun _ _ => rfl
  have hn : -9223372036854775807 ≠ Int64.minValue := by decide
  exact ⟨rfl, hgo, hn, integers_read_back rfl hgo hn⟩

/-- The smallest integer can be computed, but what is shown for it is refused. -/
theorem smallest_refused :
    let first := eval {} Host.bare "-9223372036854775807 - 1"
    let text := "-9223372036854775808"
    first.events = [.valid ⟨1, .expression, "-9223372036854775807 - 1"⟩ (some text)] ∧
      first.interpreter.isClosed = false ∧
      (first.interpreter.eval Host.bare text).events = [.rejected ⟨2, .statement, text⟩] ∧
      ¬first.interpreter.ReadsBack Host.bare text := by
  intro first text
  have hevents : (first.interpreter.eval Host.bare text).events =
      [.rejected ⟨2, .statement, text⟩] := by decide +kernel
  refine ⟨by decide +kernel, by decide +kernel, hevents, fun hback => ?_⟩
  rw [hback.eval] at hevents
  simp [Event.valid, Event.rejected] at hevents

end Interpreter
end GuardedRepl
