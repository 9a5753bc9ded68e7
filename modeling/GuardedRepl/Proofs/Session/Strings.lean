import Mathlib
import GuardedRepl.Proofs.Machine.Strings
import GuardedRepl.Proofs.Session.Course
import GuardedRepl.Proofs.Source.Sizes

/-!
# The strings of a session

The strings that a command spells out are parts of it.  A short command in a session with short
strings makes no long ones, but by the calls that do not measure what they build.  A file that is
read is measured by the length that the file system reports; the files of a host are ordinary ones,
of which that is the length of what is read.

**Results.**
* `spellsShort_of_comesBy`: the literals of a short command are short.
* `exists_long`: a change of case makes a long string.
* `strings_short`: without such calls all strings stay short.
-/

namespace GuardedRepl
namespace Interpreter

open Machine

/-- The literals of an accepted text have no more bytes than the text. -/
theorem Accepts.string_size_le {i : Interpreter} {text : List Char} {snippet : Snippet}
    {p : Program.TopLevel} (h : i.Accepts text snippet p) {s : String} (hs : s ∈ p.strings) :
    s.utf8ByteSize ≤ Text.Utf8.size text := by
  obtain ⟨tree, hread, -, hresult⟩ := h
  have hstring := Program.resolve_strings hresult hs
  rcases htokens : Source.tokenize text with fault | tokens
  · rw [read, htokens] at hread
    cases hread
  · rw [read, htokens] at hread
    have hparse : Syntax.parse tokens = .ok tree := hread
    obtain ⟨hkinds, hend⟩ := Source.kinds_of_tokenize htokens
    have hreport := Syntax.report_of_parse hparse hkinds hend
    refine Source.string_size_le htokens ?_
    rw [hkinds]
    exact List.mem_append_left _ (hreport.2 s hstring)

theorem Launches.accepts {host : Host} {i j : Interpreter} {texts : List (List Char)}
    {p : Program.TopLevel} (h : Launches host i texts j p) :
    ∃ text ∈ texts, ∃ snippet, j.Accepts text snippet p := by
  induction h with
  | now _ haccepts => exact ⟨_, List.mem_cons_self, _, haccepts⟩
  | later _ _ _ ih =>
      obtain ⟨text, htext, haccepts⟩ := ih
      exact ⟨text, List.mem_cons_of_mem _ htext, haccepts⟩

/-- The literals of a short command are short. -/
theorem spellsShort_of_comesBy {i : Interpreter} {host : Host} {command : String} {task : Task}
    {s : State} (hcommand : command.utf8ByteSize ≤ Value.maxStringBytes)
    (hcomes : i.ComesBy host command task s) : task.SpellsShort := by
  obtain ⟨-, j, p, hlaunches, hvisits⟩ := hcomes
  obtain ⟨text, htext, snippet, haccepts⟩ := hlaunches.accepts
  obtain ⟨f, hf, rfl⟩ := List.mem_map.mp htext
  intro literal hliteral
  calc literal.utf8ByteSize
    _ ≤ Text.Utf8.size f.text := haccepts.string_size_le (hvisits.strings hliteral)
    _ ≤ Text.Utf8.size command.toList := Source.fragment_size_le hf
    _ = command.utf8ByteSize := Text.Utf8.size_toList command
    _ ≤ Value.maxStringBytes := hcommand

theorem short_start {i : Interpreter} (hi : i.session.Short) : i.start.Short :=
  ⟨hi, fun _ hframe => absurd hframe List.not_mem_nil⟩

/-- The run of a snippet keeps the strings of the session short. -/
theorem keepsSession_short (host : Host) (texts : List (List Char)) :
    KeepsSession host (fun task s => BuildsShort host task s ∧ task.SpellsShort) Session.Short
      texts := by
  intro j text snippet p _ hj _ hL
  have hrun := (upkeep_short host).runTop snippet (short_start hj) hL
  rcases heq : runTop snippet p host j.start with ⟨e | a, t⟩
  · exact (hrun.error e t heq).session
  · exact (hrun.ok a t heq).session

/-! ### A change of case -/

/-- The expression has a value, whatever state it is evaluated in. -/
def Has (host : Host) (e : Program.Expr) (v : Value) : Prop :=
  ∀ s, ∃ t, Machine.eval e host s = (.ok v, t)

/-- A method of strings that is called on a string. -/
theorem has_call {e : Program.Expr} {es : List Program.Expr} {args : List Value} {x : String}
    {name : String} {m : Library.StringMethod} {v : Value} (he : Has Host.bare e (.str x))
    (hes : ∀ s, ∃ t, Machine.evalAll es Host.bare s = (.ok args, t))
    (hobject : Library.ObjectMethod.ofName? name = none)
    (hname : Library.StringMethod.ofName? name = some m)
    (hcall : Value.Strings.call x m name args = .ok v) : Has Host.bare (.call e name es) v := by
  intro s
  obtain ⟨t, ht⟩ := he { s with progress := { s.progress with polls := s.progress.polls + 1 } }
  obtain ⟨u, hu⟩ := hes t
  have hpoll : Run.poll Host.bare s =
      (.ok (), { s with progress := { s.progress with polls := s.progress.polls + 1 } }) := rfl
  have hcheck (a : Access) : Run.check a Host.bare u = (.ok (), (Run.check a Host.bare u).2) := rfl
  rw [Machine.eval, Run.bind_of_ok hpoll, Run.bind_of_ok ht, Run.bind_of_ok hu]
  refine ⟨(Run.check (.method Library.HostClass.string.name name) Host.bare u).2, ?_⟩
  rw [Value.Strings.callMethod_string hobject hname (hcheck _), hcall]
  rfl

theorem replicate_eq {s : String} {n : Int64} (hn : 0 ≤ n) (hs : s ≠ "")
    (hsize : s.utf8ByteSize * n.toNatClampNeg ≤ Value.maxStringBytes) :
    Value.Strings.replicate s n = .ok (String.join (List.replicate n.toNatClampNeg s)) := by
  rw [Value.Strings.replicate, if_neg (Int64.not_lt.mpr hn), if_neg (Nat.not_lt.mpr hsize),
    if_neg hs]

theorem call_repeat {s t : String} {n : Int64} (name : String)
    (h : Value.Strings.replicate s n = .ok t) :
    Value.Strings.call s .repeat name [.int n] = .ok (.str t) := by
  show (Value.Strings.replicate s n >>= fun t => pure (Value.str t)) = _
  rw [h]
  rfl

/-- A letter of two bytes whose upper form has three. -/
theorem size_toUpper_replicate (n : Nat) :
    Text.Utf8.size (Text.toUpper (String.join (List.replicate n "ɐ")).toList) = 3 * n := by
  induction n with
  | zero => rfl
  | succ n ih =>
      have hletter : Text.toUpper "ɐ".toList = ['Ɐ'] := by decide +kernel
      have happend (cs ds : List Char) : Text.toUpper (cs ++ ds) =
          Text.toUpper cs ++ Text.toUpper ds := List.flatMap_append
      rw [List.replicate_succ, String.join_cons, String.toList_append, happend,
        Text.Utf8.size_append, ih, hletter]
      simp only [Text.Utf8.size_cons, Text.Utf8.size_nil]
      have hthree : Char.utf8Size 'Ɐ' = 3 := by decide
      omega

/-- Half a million letters in upper case. -/
def upperCase : Program.Expr :=
  .call (.call (.str "ɐ") "repeat" [.int 524288]) "toUpperCase" []

theorem has_upperCase : ∃ v, Has Host.bare upperCase v ∧ ¬v.Short := by
  have hletter : Has Host.bare (.str "ɐ") (.str "ɐ") := fun s => ⟨s, by rw [Machine.eval]; rfl⟩
  have hcount (s : State) : ∃ t, Machine.evalAll [.int 524288] Host.bare s =
      (.ok [.int 524288], t) := ⟨s, by simp only [Machine.evalAll, Machine.eval]; rfl⟩
  have hrow : Value.Strings.replicate "ɐ" 524288 =
      .ok (String.join (List.replicate (524288 : Int64).toNatClampNeg "ɐ")) :=
    replicate_eq (by decide) (by decide) (by decide)
  have hrepeat := has_call hletter hcount (by decide) (by decide) (call_repeat "repeat" hrow)
  refine ⟨_, has_call hrepeat (fun s => ⟨s, by rw [Machine.evalAll]; rfl⟩) (by decide)
    (show _ = some .toUpperCase by decide) rfl, ?_⟩
  rw [Value.Short, Text.Utf8.utf8ByteSize_ofList, size_toUpper_replicate]
  decide

/-- A change of case makes a string that is not short. -/
theorem exists_long :
    ¬ ∀ (i : Interpreter) (host : Host) (command : String), i.session.Short →
      command.utf8ByteSize ≤ Value.maxStringBytes → ∀ e s v t,
        i.ComesBy host command (.expr e) s → Machine.eval e host s = (.ok v, t) → v.Short := by
  intro hall
  obtain ⟨v, hv, hlong⟩ := has_upperCase
  let command := "\"ɐ\".repeat(524288).toUpperCase().length()"
  obtain ⟨snippet, haccepts⟩ := @accepts_of_programOf {} command.toList
    (.expr (.call upperCase "length" [])) (by cbv)
  obtain ⟨t, ht⟩ := hv (Run.poll Host.bare (Run.poll Host.bare (start {})).2).2
  have htexts : textsOf command = [command.toList] := by decide +kernel
  have hcomes : ComesBy {} Host.bare command (.expr upperCase)
      (Run.poll Host.bare (Run.poll Host.bare (start {})).2).2 :=
    ⟨rfl, {}, _, by rw [htexts]; exact .now rfl haccepts,
      .next (.next .start (.topExpr rfl)) (.callTarget rfl)⟩
  exact hlong (hall {} Host.bare command (fun x hx => absurd hx List.not_mem_nil)
    (by decide +kernel) _ _ _ _ hcomes ht)

/-- **Strings stay short.**  If every string of a session has at most `maxStringBytes` bytes, and a
command has at most that many, too, then every string that an expression of the command evaluates
to is short under any host, and so is every string of the session afterwards, as long as the calls
that measure nothing yield short strings.  A sum, a repetition or a file that is too long is not
built: an exception is thrown instead. -/
theorem strings_short {i : Interpreter} {host : Host} {command : String}
    (hi : i.session.Short) (hcommand : command.utf8ByteSize ≤ Value.maxStringBytes)
    (hbuilds : ∀ task s, i.ComesBy host command task s → BuildsShort host task s) :
    (∀ e s v t, i.ComesBy host command (.expr e) s → Machine.eval e host s = (.ok v, t) →
      v.Short) ∧
    (i.eval host command).interpreter.session.Short ∧
    ∀ e s n t, Builds host e s n t → Value.maxStringBytes < n →
      ∃ x : Exception, Machine.eval e host s = (.error (.thrown x), t) ∧
        x.thrown.cls = "java.lang.OutOfMemoryError" := by
  have hL : ∀ task s, i.ComesBy host command task s →
      BuildsShort host task s ∧ task.SpellsShort := fun task s hcomes =>
    ⟨hbuilds task s hcomes, spellsShort_of_comesBy hcommand hcomes⟩
  refine ⟨fun e s v t hcomes hv => ?_, ?_, fun e s n t hn hlong => ?_⟩
  · obtain ⟨hopen, j, p, hlaunches, hvisits⟩ := hcomes
    have hcourse := throughout_of_comesBy hopen hL
    have hj := hlaunches.session (keepsSession_short host _) hi hcourse
    have hs : s.Short := (upkeep_short host).visits (short_start hj) (hcourse j p hlaunches)
      hvisits
    exact (((upkeep_short host).eval hs
      fun task' t' hvisits' => hcourse j p hlaunches _ _ (hvisits.trans hvisits')).ok v t hv).2
  · exact eval_keeps_course (keepsSession_short host _) hi hL
  · exact ⟨.outOfMemory, hn.outOfMemory hlong, rfl⟩

/-- The declaration of a variable with a repeated string. -/
def repeated : Program.Declaration :=
  ⟨.cls .string, "s", some (.call (.str "ab") "repeat" [.int 2])⟩

theorem buildsShort_repeated {host : Host} {task : Task} {s t : State}
    (hvisits : Visits host (.top (.declare repeated)) s task t) : BuildsShort host task t := by
  have htask : task = .top (.declare repeated) ∨
      task = .expr (.call (.str "ab") "repeat" [.int 2]) ∨ task = .expr (.str "ab") ∨
        task = .args [.int 2] ∨ task = .expr (.int 2) ∨ task = .args [] := by
    induction hvisits with
    | start => exact Or.inl rfl
    | next _ hcomes ih =>
        rcases ih with rfl | rfl | rfl | rfl | rfl | rfl <;> cases hcomes
        case topInit e hinit _ _ =>
          obtain rfl : _ = e := Option.some.inj hinit
          simp
        all_goals simp
  rcases htask with rfl | rfl | rfl | rfl | rfl | rfl
  case inr.inl => exact fun hname => absurd hname (by decide)
  all_goals trivial

/-- A short string is repeated, and kept in a variable. -/
theorem strings_short_repeated :
    Session.Short {} ∧
    (∀ task s, ComesBy {} Host.bare "String s = \"ab\".repeat(2)" task s →
      BuildsShort Host.bare task s) ∧
    (eval {} Host.bare "String s = \"ab\".repeat(2)").interpreter.session.vars.map
      Variable.value = [.str "abab"] ∧
    (eval {} Host.bare "String s = \"ab\".repeat(2)").interpreter.session.Short := by
  have hfresh : Session.Short {} := fun x hx => absurd hx List.not_mem_nil
  have hbuilds : ∀ task s, ComesBy {} Host.bare "String s = \"ab\".repeat(2)" task s →
      BuildsShort Host.bare task s := by
    intro task s hcomes
    obtain ⟨snippet, haccepts⟩ := @accepts_of_programOf {} "String s = \"ab\".repeat(2)".toList
      (.declare repeated) (by cbv)
    exact buildsShort_repeated (visits_of_comesBy (by decide +kernel) haccepts hcomes)
  exact ⟨hfresh, hbuilds, by decide +kernel, (strings_short hfresh (by decide +kernel) hbuilds).2.1⟩

end Interpreter
end GuardedRepl
