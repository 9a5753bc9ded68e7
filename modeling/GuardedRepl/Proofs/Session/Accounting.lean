import GuardedRepl.Proofs.Session.Completion
import GuardedRepl.Proofs.Session.Ownership

/-!
# The account that events give

The events of a command tell of its fragments one after another: each fragment has an event of its
own, under the next number, and right behind it there may be the event of an older snippet whose
variable it took over.

**Results.**
* `Account`: events that tell of fragments in this way, and what follows for their sources,
  numbers, shapes and causes.
* `evalFragments_account`: fragments in turn, up to the one at which the host says to stop.
* `event_accounting`: the events of every command behind every history.
-/

namespace GuardedRepl

namespace Event

/-- The ways in which a snippet tells of itself. -/
inductive TellsOf (s : Snippet) : Event → Prop
  | rejected : TellsOf s (.rejected s)
  | completed (value : Option String) : TellsOf s (.valid s value)
  | threw (t : Thrown) : TellsOf s (.failed s t)

/-- The parts of an event go together. -/
structure WellFormed (e : Event) : Prop where
  rejected : e.status = .rejected → e.value = none ∧ e.exception = none
  threw : e.exception ≠ none → e.status = .valid ∧ e.value = none
  overwritten : e.status = .overwritten → e.value = none
  causedBy : e.causedBy ≠ none ↔ e.status = .overwritten

section TellsOf

variable {e : Event} {s : Snippet}

theorem TellsOf.isOwn (h : e.TellsOf s) : e.isOwn = true := by
  cases h <;> rfl

theorem TellsOf.snippet_eq (h : e.TellsOf s) : e.snippet = s := by
  cases h <;> rfl

theorem TellsOf.wellFormed (h : e.TellsOf s) : e.WellFormed := by
  cases h <;> constructor <;> simp [Event.rejected, Event.valid, Event.failed]

theorem wellFormed_overwritten (s : Snippet) (successor : Nat) :
    (overwritten s successor).WellFormed := by
  constructor <;> simp [overwritten]

end TellsOf

/-- Whoever is overwritten is told of right behind the snippet that took over its variable, which
has a greater number. -/
def Caused (events : List Event) : Prop :=
  ∀ before e after, events = before ++ e :: after → e.status = .overwritten →
    ∃ front c, before = front ++ [c] ∧ c.isOwn = true ∧ e.causedBy = some c.snippet.id ∧
      e.snippet.id < c.snippet.id

end Event

namespace Interpreter

open Machine (Host)

/-! ### Accounts -/

/-- The events behind a snippet's own one: that of the older snippet which it overwrites, if there
is one. -/
def takeover (displaced : Option Snippet) (id : Nat) : List Event :=
  (displaced.map fun owner => Event.overwritten owner id).toList

/-- Events tell of texts as of snippets that are numbered from `n` on. -/
inductive Account : Nat → List (List Char) → List Event → Prop
  | nil {n : Nat} : Account n [] []
  | cons {n : Nat} {text : List Char} {texts : List (List Char)} {snippet : Snippet} {e : Event}
      {displaced : Option Snippet} {events : List Event} :
      e.TellsOf snippet → snippet.id = n → snippet.source = String.ofList text →
      (∀ owner ∈ displaced, owner.id < n) → Account (n + 1) texts events →
      Account n (text :: texts) (e :: takeover displaced n ++ events)

section Accounts

variable {n : Nat} {texts : List (List Char)} {events : List Event}

theorem filter_isOwn_cons {e : Event} (he : e.isOwn = true) (displaced : Option Snippet) (n : Nat)
    (events : List Event) :
    (e :: takeover displaced n ++ events).filter Event.isOwn = e :: events.filter Event.isOwn := by
  rw [List.cons_append, List.filter_cons_of_pos he]
  cases displaced <;> rfl

theorem Account.sources (h : Account n texts events) :
    (events.filter Event.isOwn).map (·.snippet.source) = texts.map String.ofList := by
  induction h with
  | nil => rfl
  | cons htells _ hsource _ _ ih =>
      rw [filter_isOwn_cons htells.isOwn, List.map_cons, List.map_cons, htells.snippet_eq, hsource,
        ih]

theorem Account.ids (h : Account n texts events) :
    (events.filter Event.isOwn).map (·.snippet.id) = List.range' n texts.length := by
  induction h with
  | nil => rfl
  | cons htells hid _ _ _ ih =>
      rw [filter_isOwn_cons htells.isOwn, List.map_cons, htells.snippet_eq, hid, ih,
        List.length_cons, List.range'_succ]

theorem Account.wellFormed (h : Account n texts events) : ∀ e ∈ events, e.WellFormed := by
  induction h with
  | nil => exact List.forall_mem_nil _
  | @cons n text texts snippet e displaced events htells _ _ _ _ ih =>
      refine List.forall_mem_append.mpr ⟨List.forall_mem_cons.mpr ⟨htells.wellFormed, ?_⟩, ih⟩
      intro e' he'
      obtain ⟨owner, -, rfl⟩ := Option.map_eq_some_iff.mp (Option.mem_toList.mp he')
      exact Event.wellFormed_overwritten owner n

theorem Account.caused (h : Account n texts events) : Event.Caused events := by
  induction h with
  | nil => exact fun before e after heq => by simp at heq
  | @cons n text texts snippet own displaced events htells hid _ holder _ ih =>
      -- A snippet's own event does not tell that it was overwritten.
      have hown : own.status ≠ .overwritten := by simpa [Event.isOwn] using htells.isOwn
      intro before e after heq hover
      cases displaced with
      | none =>
          rcases before with _ | ⟨b, before⟩ <;> obtain ⟨rfl, hrest⟩ := List.cons.inj heq
          · exact absurd hover hown
          · obtain ⟨front, c, rfl, hcause⟩ := ih before e after hrest hover
            exact ⟨own :: front, c, rfl, hcause⟩
      | some owner =>
          rcases before with _ | ⟨b, before⟩ <;> obtain ⟨rfl, hrest⟩ := List.cons.inj heq
          · exact absurd hover hown
          · rcases before with _ | ⟨b, before⟩ <;> obtain ⟨rfl, hlast⟩ := List.cons.inj hrest
            · refine ⟨[], own, rfl, htells.isOwn, ?_, ?_⟩ <;> rw [htells.snippet_eq, hid]
              · rfl
              · exact holder owner rfl
            · obtain ⟨front, c, rfl, hcause⟩ := ih before e after hlast hover
              exact ⟨own :: .overwritten owner n :: front, c, rfl, hcause⟩

end Accounts

/-! ### Fragments -/

/-- Every variable belongs to a snippet that has been numbered. -/
def OwnersNumbered (i : Interpreter) : Prop :=
  ∀ p ∈ i.session.owners, p.2.id < i.nextId

/-- An event of a fragment is one of an overwritten snippet, or the fragment's snippet tells of
itself. -/
theorem exists_tellsOf {i : Interpreter} {host : Host} {text : List Char} {e : Event}
    (he : e ∈ (i.evalFragment host text).events) (hown : e.isOwn = true) :
    ∃ snippet, e.TellsOf snippet ∧ snippet.id = i.nextId ∧
      snippet.source = String.ofList text := by
  obtain ⟨snippet, ds, p?, hjudged, heq⟩ := exists_judged i text
  refine ⟨snippet, ?_, hjudged.snippet_eq⟩
  rw [heq] at he
  cases p? with
  | none =>
      obtain rfl := List.mem_singleton.mp he
      exact .rejected
  | some p =>
      obtain ⟨hevents, -⟩ := run_eq (i.issue ds) host snippet p
      rw [dealtWith, hevents, List.mem_reverse] at he
      generalize (Machine.runTop snippet p host (i.issue ds).start).1 = outcome at he
      rcases outcome with interrupt | f
      · obtain rfl := List.mem_singleton.mp he
        exact .threw _
      · rcases List.mem_cons.mp he with rfl | he
        · exact .completed _
        · obtain ⟨owner, -, rfl⟩ := Option.map_eq_some_iff.mp (Option.mem_toList.mp he)
          cases hown

/-- What a fragment tells: its snippet's own event, and that of the snippet which it overwrites. -/
theorem evalFragment_tells {i : Interpreter} (hi : i.OwnersNumbered) (host : Host)
    (text : List Char) :
    ∃ snippet e displaced, e.TellsOf snippet ∧ snippet.id = i.nextId ∧
      snippet.source = String.ofList text ∧ (∀ owner ∈ displaced, owner.id < i.nextId) ∧
      (i.evalFragment host text).events.reverse = e :: takeover displaced i.nextId ∧
      (i.evalFragment host text).interpreter.nextId = i.nextId + 1 ∧
      (i.evalFragment host text).interpreter.OwnersNumbered := by
  obtain ⟨_, _, -, -, -, hnext, -⟩ := evalFragment_own i host text
  have hkept : ∀ p ∈ i.session.owners,
      p.2.id < (i.evalFragment host text).interpreter.nextId :=
    fun p hp => hnext ▸ Nat.lt_succ_of_lt (hi p hp)
  by_cases hdeclares : ∃ name, i.Declares host text name
  · obtain ⟨name, hname⟩ := hdeclares
    obtain ⟨⟨value, hevents⟩, howners⟩ := (owning i host text).declared name hname
    refine ⟨_, _, i.session.owners.lookup name, .completed value, rfl, rfl, fun owner hmem => ?_,
      hevents, hnext, ?_⟩
    · obtain ⟨front, back, hall, -⟩ := List.lookup_eq_some_iff.mp hmem
      exact hi (name, owner) (by simp [hall])
    · rw [OwnersNumbered, howners, List.forall_mem_cons]
      exact ⟨hnext ▸ Nat.lt_succ_self _, fun p hp => hkept p (List.mem_of_mem_filter hp)⟩
  · obtain ⟨howners, e, hevents, hown, -⟩ :=
      (owning i host text).kept (not_exists.mp hdeclares)
    have he : e ∈ (i.evalFragment host text).events := by
      rw [← List.mem_reverse, hevents]
      exact List.mem_singleton_self e
    obtain ⟨snippet, htells, hid, hsource⟩ := exists_tellsOf he hown
    refine ⟨snippet, e, none, htells, hid, hsource, nofun, hevents, hnext, ?_⟩
    rw [OwnersNumbered, howners]
    exact hkept

/-- Fragments in turn give an account of themselves, up to the one at which the host says to
stop. -/
theorem evalFragments_account (host : Host) (texts : List (List Char)) (done : Portion)
    (hdone : done.interpreter.OwnersNumbered) :
    ∃ told events, told <+: texts ∧ Account done.interpreter.nextId told events ∧
      (evalFragments host done texts).events.reverse = done.events.reverse ++ events ∧
      (evalFragments host done texts).interpreter.nextId =
        done.interpreter.nextId + told.length := by
  induction texts generalizing done with
  | nil => exact ⟨[], [], List.nil_prefix, .nil, (List.append_nil _).symm, rfl⟩
  | cons text texts ih =>
      obtain ⟨snippet, e, displaced, htells, hid, hsource, holder, hevents, hnext, hnew⟩ :=
        evalFragment_tells hdone host text
      have hall : ((done.interpreter.evalFragment host text).after done).events.reverse =
          done.events.reverse ++ e :: takeover displaced done.interpreter.nextId := by
        rw [Portion.after, List.reverse_append, hevents]
      rw [evalFragments_cons]
      split
      · exact ⟨[], [], List.nil_prefix, .nil, (List.append_nil _).symm, rfl⟩
      · split
        · refine ⟨[text], _, (List.prefix_append [text] texts),
            .cons htells hid hsource holder .nil, ?_, hnext⟩
          rw [hall, List.append_nil]
        · obtain ⟨told, events, hprefix, haccount, hrest, hlast⟩ :=
            ih ((done.interpreter.evalFragment host text).after done) hnew
          have hbehind : ((done.interpreter.evalFragment host text).after done).interpreter.nextId =
              done.interpreter.nextId + 1 := hnext
          rw [hbehind] at haccount hlast
          refine ⟨text :: told, _, (List.prefix_cons_inj text).mpr hprefix,
            .cons htells hid hsource holder haccount, ?_, ?_⟩
          · rw [hrest, hall, List.append_assoc]
          · rw [hlast, List.length_cons]
            omega

/-! ### Commands -/

/-- A command gives an account of its first fragments, and of all of them if the host does not say
to stop. -/
theorem eval_account {i : Interpreter} (hopen : i.isClosed = false) (hi : i.OwnersNumbered)
    (host : Host) (command : String) :
    ∃ told, told <+: textsOf command ∧ Account i.nextId told (i.eval host command).events ∧
      (i.eval host command).interpreter.nextId = i.nextId + told.length ∧
      (host.stops (i.eval host command).interpreter.progress = false →
        i.EndsInTime host (textsOf command) → told = textsOf command) := by
  obtain ⟨told, events, hprefix, haccount, hevents, hnext⟩ :=
    evalFragments_account host (textsOf command) ⟨[], [], false, i⟩ hi
  rw [eval_eq hopen]
  refine ⟨told, hprefix, ?_, hnext, fun hgo hends => hprefix.eq_of_length ?_⟩
  · rw [show (evalFragments host ⟨[], [], false, i⟩ (textsOf command)).events.reverse = events from
      hevents]
    exact haccount
  · -- As many numbers have been given as there are fragments.
    have hall : Completes host ⟨[], [], false, i⟩ (textsOf command) _ :=
      evalFragments_completes hends hgo
    exact Nat.add_left_cancel (hnext.symm.trans hall.nextId)

/-- The events of a command and its fragments are accounted for. -/
structure Accounted (i : Interpreter) (host : Host) (command : String) : Prop where
  /-- A closed interpreter tells nothing and stays as it is. -/
  closed : i.isClosed = true → i.eval host command = ⟨[], [], i⟩
  /-- The own events are those of the first fragments, one each. -/
  sources : ((i.eval host command).events.filter Event.isOwn).map (·.snippet.source) <+:
    (textsOf command).map String.ofList
  /-- If the host does not say to stop, the own events are those of all fragments. -/
  complete : i.isClosed = false → host.stops (i.eval host command).interpreter.progress = false →
    i.EndsInTime host (textsOf command) →
    ((i.eval host command).events.filter Event.isOwn).map (·.snippet.source) =
      (textsOf command).map String.ofList
  /-- The numbers follow one another from the next one on, which moves on by as many. -/
  ids : ((i.eval host command).events.filter Event.isOwn).map (·.snippet.id) =
    List.range' i.nextId ((i.eval host command).events.filter Event.isOwn).length
  next : (i.eval host command).interpreter.nextId =
    i.nextId + ((i.eval host command).events.filter Event.isOwn).length
  wellFormed : ∀ e ∈ (i.eval host command).events, e.WellFormed
  caused : Event.Caused (i.eval host command).events

theorem Account.length_own {n : Nat} {texts : List (List Char)} {events : List Event}
    (h : Account n texts events) : (events.filter Event.isOwn).length = texts.length := by
  have hlength := congrArg List.length h.sources
  rwa [List.length_map, List.length_map] at hlength

theorem accounted {i : Interpreter} (hi : i.OwnersNumbered) (host : Host) (command : String) :
    i.Accounted host command := by
  cases hclosed : i.isClosed with
  | true =>
      have heval := eval_closed hclosed host command
      refine ⟨fun _ => heval, ?_, fun hopen => absurd (hclosed.symm.trans hopen) (by decide), ?_,
        ?_, ?_, ?_⟩ <;> rw [heval]
      · exact List.nil_prefix
      · rfl
      · rfl
      · exact List.forall_mem_nil _
      · exact Account.nil.caused (n := 0)
  | false =>
      obtain ⟨told, hprefix, haccount, hnext, hcomplete⟩ := eval_account hclosed hi host command
      refine ⟨fun h => absurd (hclosed.symm.trans h) (by decide), ?_, fun _ hgo hends => ?_, ?_, ?_,
        haccount.wellFormed, haccount.caused⟩
      · rw [haccount.sources]
        exact hprefix.map _
      · rw [haccount.sources, hcomplete hgo hends]
      · rw [haccount.ids, haccount.length_own]
      · rw [hnext, haccount.length_own]

theorem History.ownersNumbered {i : Interpreter} {events : List Event} (hi : History i events) :
    i.OwnersNumbered :=
  fun _ hp => hi.ledger.owner_lt hp

/-- **Event accounting.**  Behind every history, the own events of a command are those of its
fragments in their order, or of the first of them if the host says to stop, and they are numbered
one after another.  Every event is well-formed, and whoever is overwritten is told of right behind
its successor.  Over the whole history the numbers are strictly increasing. -/
theorem event_accounting {i : Interpreter} {events : List Event} (hi : History i events) :
    (∀ host command, i.Accounted host command) ∧
      ((events.filter Event.isOwn).map (·.snippet.id)).Pairwise (· < ·) ∧
      ∀ e ∈ events, e.snippet.id < i.nextId := by
  obtain ⟨n, -, hids⟩ := hi.numbered
  refine ⟨accounted hi.ownersNumbered, ?_, hi.ledger.below⟩
  rw [hids]
  exact List.pairwise_lt_range'

/-- A declaration that overwrites another one, a snippet that is rejected and one that throws. -/
theorem event_accounting_mixed :
    let host := Host.bare.stoppedAfter 100
    let i := (eval {} Host.bare "int x = 1").interpreter
    let batch := i.eval host "int x = 2; y; // none\n 1 / 0"
    History i (eval {} Host.bare "int x = 1").events ∧ i.isClosed = false ∧
      host.stops batch.interpreter.progress = false ∧
      i.EndsInTime host (textsOf "int x = 2; y; // none\n 1 / 0") ∧
      (batch.events.filter Event.isOwn).map (·.snippet.source) =
        (textsOf "int x = 2; y; // none\n 1 / 0").map String.ofList ∧
      Event.Caused batch.events ∧
      (batch.events.map fun e => (e.snippet.id, e.status, e.causedBy)) =
        [(2, .valid, none), (1, .overwritten, some 2), (3, .rejected, none), (4, .valid, none)] := by
  intro host i batch
  have hi : History i (eval {} Host.bare "int x = 1").events :=
    .evaluated Host.bare "int x = 1" .fresh
  have hopen : i.isClosed = false := by decide +kernel
  have hgo : host.stops batch.interpreter.progress = false := by decide +kernel
  have hends : i.EndsInTime host (textsOf "int x = 2; y; // none\n 1 / 0") := by
    refine endsInTime_of_stops (by decide) (fun p hp => decide_eq_true ?_) _
    have hmany : i.progress.polls + 1000 ≤ p.polls := hp
    omega
  have hlaw := (event_accounting hi).1 host "int x = 2; y; // none\n 1 / 0"
  exact ⟨hi, hopen, hgo, hends, hlaw.complete hopen hgo hends, hlaw.caused, by decide +kernel⟩

end Interpreter
end GuardedRepl
