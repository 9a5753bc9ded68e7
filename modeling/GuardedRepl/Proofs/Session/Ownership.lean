import GuardedRepl.Proofs.Machine.Programs
import GuardedRepl.Proofs.Program.Scope
import GuardedRepl.Proofs.Session.History
import GuardedRepl.Proofs.Session.Resolution

/-!
# Who owns a variable

A variable of the session belongs to the snippet that declared it.  A declaration that comes to its
end takes the variable over from the snippet that owned it before and says so with an event; nothing
else that a snippet does, declarations inside of blocks and loops included, changes who owns what.

**Results.**
* `owning`: what a fragment does to the owners, and the events that tell of it.
* `ownership`: owners are snippets of the history that declared their variable, each owns one
  variable at most, and none of them is overwritten twice.
-/

namespace GuardedRepl

/-- The names of the variables of a session, each with the snippet that owns it. -/
def Session.owners (s : Session) : List (String × Snippet) :=
  s.vars.map fun v => (v.name, v.owner)

namespace Session

theorem owners_eq_of_outline {s t : Session} (h : t.outline = s.outline) : t.owners = s.owners := by
  have howners (s : Session) : s.owners = s.outline.1.map fun v => (v.1, v.2.2) := by
    simp [owners, outline]
  rw [howners, howners, h]

theorem owners_declare (s : Session) (v : Variable) :
    (s.declare v).owners = (v.name, v.owner) :: s.owners.filter fun p => p.1 ≠ v.name := by
  rw [owners, declare, List.map_cons, owners, List.filter_map]
  rfl

theorem lookup_owners (s : Session) (name : String) :
    s.owners.lookup name = (s.find? name).map Variable.owner := by
  rw [owners, find?]
  induction s.vars with
  | nil => rfl
  | cons v vars ih =>
      rw [List.map_cons, List.lookup_cons, List.find?_cons]
      by_cases hname : v.name = name
      · simp [hname]
      · rw [beq_eq_false_iff_ne.mpr (Ne.symm hname), decide_eq_false hname]
        exact ih

end Session

namespace Machine

open Program Run

/-! ### Runs -/

/-- Between two states the owners stay the same. -/
def SameOwners (s t : State) : Prop :=
  t.session.owners = s.session.owners

theorem tolerant_sameOwners : Tolerant SameOwners where
  trans hst htu := htu.trans hst
  asked hs _ := congrArg Session.owners hs
  block hst := hst
  assign ht := Session.owners_eq_of_outline (roomy_settled.assign ht)

theorem keeps_settled {α : Type} {x : Run α} {h : Host} {s t : State} {r : Except Interrupt α}
    (hx : Assembled Settled x) (hrun : x h s = (r, t)) : Settled s t := by
  have hkeeps := hx.keeps roomy_settled.toTolerant h s
  rwa [hrun] at hkeeps

/-- A declaration that comes to its end takes over the variable of its name. -/
theorem owners_of_declared {snippet : Snippet} {d : Declaration} {h : Host} {s t : State}
    {f : Finished} (hrun : runTop snippet (.declare d) h s = (.ok f, t)) :
    f.displaced = s.session.owners.lookup d.name ∧
      t.session.owners =
        (d.name, snippet) :: s.session.owners.filter fun p => p.1 ≠ d.name := by
  have hR := roomy_settled.toTolerant
  obtain ⟨_, u, hpoll, hrun⟩ := bind_ok hrun
  obtain ⟨v, w, hvalue, hrun⟩ := bind_ok hrun
  obtain ⟨_, _, hgets, hrun⟩ := bind_ok hrun
  cases hgets
  obtain ⟨_, _, hmodify, hrun⟩ := bind_ok hrun
  cases hmodify
  cases hrun
  -- Up to the last step nothing has been declared.
  have hsettled : Settled s w :=
    hR.trans (keeps_settled .poll hpoll) (keeps_settled (assembled_initialValue hR d) hvalue)
  have howners := Session.owners_eq_of_outline hsettled
  rw [← howners]
  exact ⟨(Session.lookup_owners _ _).symm, Session.owners_declare _ _⟩

/-- Imports, expressions and other statements leave the owners as they are. -/
theorem keeps_sameOwners {snippet : Snippet} {p : TopLevel} (hp : ∀ d, p ≠ .declare d) :
    Keeps SameOwners (runTop snippet p) := by
  have hR := tolerant_sameOwners
  have hchange {f : Session → Session} (hf : ∀ s, (f s).owners = s.owners) :
      Assembled SameOwners (Run.modify fun s => { s with session := f s.session }) :=
    .modify (fun _ => rfl) (fun _ => rfl) fun s => hf s.session
  cases p with
  | importClass c =>
      have himport (s : Session) : (s.importClass c).owners = s.owners := by
        unfold Session.importClass
        split <;> rfl
      exact Assembled.keeps hR (.bind .poll fun _ => .bind .poll fun _ => .bind (.check _) fun _ =>
        .bind (.check _) fun _ => .bind (hchange himport) fun _ => .result hR _)
  | importPackage p =>
      have himport (s : Session) : (s.importPackage p).owners = s.owners := by
        unfold Session.importPackage
        split <;> rfl
      exact Assembled.keeps hR (.bind .poll fun _ => .bind .poll fun _ => .bind (.check _) fun _ =>
        .bind (hchange himport) fun _ => .result hR _)
  | declare d => exact absurd rfl (hp d)
  | expr e =>
      exact Assembled.keeps hR (.bind .poll fun _ => .bind (assembled_eval hR e) fun _ =>
        .result hR _)
  | stmt st =>
      refine fun h s => Session.owners_eq_of_outline ?_
      exact (Assembled.bind (assembled_exec roomy_settled st) fun _ =>
        .result roomy_settled.toTolerant _).keeps roomy_settled.toTolerant h s

/-- Only a declaration takes a variable over. -/
theorem displaced_eq_none {snippet : Snippet} {p : TopLevel} {h : Host} {s t : State}
    {f : Finished} (hp : ∀ d, p ≠ .declare d) (hrun : runTop snippet p h s = (.ok f, t)) :
    f.displaced = none := by
  cases p with
  | importClass c =>
      obtain ⟨_, _, -, hrun⟩ := bind_ok hrun
      obtain ⟨_, _, -, hrun⟩ := bind_ok hrun
      obtain ⟨_, _, -, hrun⟩ := bind_ok hrun
      obtain ⟨_, _, -, hrun⟩ := bind_ok hrun
      obtain ⟨_, _, -, hrun⟩ := bind_ok hrun
      cases hrun
      rfl
  | importPackage p =>
      obtain ⟨_, _, -, hrun⟩ := bind_ok hrun
      obtain ⟨_, _, -, hrun⟩ := bind_ok hrun
      obtain ⟨_, _, -, hrun⟩ := bind_ok hrun
      obtain ⟨_, _, -, hrun⟩ := bind_ok hrun
      cases hrun
      rfl
  | declare d => exact absurd rfl (hp d)
  | expr e =>
      obtain ⟨_, _, -, hrun⟩ := bind_ok hrun
      obtain ⟨_, _, -, hrun⟩ := bind_ok hrun
      cases hrun
      rfl
  | stmt st =>
      obtain ⟨_, _, -, hrun⟩ := bind_ok hrun
      cases hrun
      rfl

end Machine

/-- Whether a snippet declares a variable of the session. -/
def SnippetKind.isVariable : SnippetKind → Bool
  | .variable _ => true
  | _ => false

theorem SnippetKind.isVariable_eq_false {kind : SnippetKind} (h : ∀ name, kind ≠ .variable name) :
    kind.isVariable = false := by
  unfold isVariable
  split
  · exact absurd rfl (h _)
  · rfl

/-- Whether an event tells of a declaration that came to its end. -/
def Event.declares (e : Event) : Bool :=
  e.status = .valid && e.exception.isNone && e.snippet.kind.isVariable

namespace Interpreter

open Machine (Host)

/-! ### Fragments -/

/-- The program of an accepted snippet is a declaration exactly if the snippet is one. -/
theorem resolve_cases {names : Program.Names} {tree : Syntax.TopLevel Source.Span}
    {p : Program.TopLevel} (h : (Program.resolve names tree).result = some p) :
    (∃ d d', tree = .stmt (.simple (.declare d)) ∧ p = .declare d' ∧ d'.name = d.name.name) ∨
      (∀ d', p ≠ .declare d') ∧ ∀ name, kindOf tree ≠ .variable name := by
  unfold Program.resolve at h
  split at h
  · refine Or.inr ⟨?_, nofun⟩
    unfold Program.resolveImport at h
    simp only at h
    split at h
    · split at h <;> cases h
      exact nofun
    · split at h
      · split at h <;> cases h <;> exact nofun
      · split at h <;> cases h
  · obtain ⟨d', hd', rfl⟩ := (Program.Checked.result_map _ _ _).mp h
    exact Or.inl ⟨_, d', rfl, rfl, (Program.resolveDeclaration_scoped hd').2⟩
  · obtain ⟨e, -, rfl⟩ := (Program.Checked.result_map _ _ _).mp h
    exact Or.inr ⟨nofun, nofun⟩
  · rename_i s hdeclare hexpr
    obtain ⟨st, -, rfl⟩ := (Program.Checked.result_map _ _ _).mp h
    refine Or.inr ⟨nofun, fun name hkind => ?_⟩
    unfold kindOf at hkind
    split at hkind <;> cases hkind
    rename_i d htree
    exact hdeclare d (Syntax.TopLevel.stmt.inj htree)

/-- A fragment declares a variable of the session and comes to its end. -/
def Declares (i : Interpreter) (host : Host) (text : List Char) (name : String) : Prop :=
  ∃ d snippet p f, read text = .ok (.stmt (.simple (.declare d))) ∧ d.name.name = name ∧
    i.Accepts text snippet p ∧ (Machine.runTop snippet p host i.start).1 = .ok f

/-- What a fragment does to the owners of the variables, and the events that tell of it. -/
structure Owning (i : Interpreter) (host : Host) (text : List Char) : Prop where
  declared : ∀ name, i.Declares host text name →
    (∃ value, (i.evalFragment host text).events.reverse =
      .valid ⟨i.nextId, .variable name, String.ofList text⟩ value ::
        ((i.session.owners.lookup name).map fun owner =>
          Event.overwritten owner i.nextId).toList) ∧
    (i.evalFragment host text).interpreter.session.owners =
      (name, ⟨i.nextId, .variable name, String.ofList text⟩) ::
        i.session.owners.filter fun p => p.1 ≠ name
  kept : (∀ name, ¬ i.Declares host text name) →
    (i.evalFragment host text).interpreter.session.owners = i.session.owners ∧
    ∃ e, (i.evalFragment host text).events.reverse = [e] ∧ e.isOwn = true ∧ e.declares = false

section Runs

variable {i : Interpreter} {host : Host} {snippet : Snippet}

/-- A declaration that comes to its end takes over the variable, and says from whom. -/
theorem run_declared {d : Program.Declaration} {f : Machine.Finished}
    (hok : (Machine.runTop snippet (.declare d) host i.start).1 = .ok f) :
    (i.run host snippet (.declare d)).events.reverse =
        .valid snippet (f.value.bind Value.render) ::
          ((i.session.owners.lookup d.name).map fun owner =>
            Event.overwritten owner snippet.id).toList ∧
      (i.run host snippet (.declare d)).interpreter.session.owners =
        (d.name, snippet) :: i.session.owners.filter fun p => p.1 ≠ d.name := by
  obtain ⟨hevents, -, hsession, -⟩ := run_eq i host snippet (.declare d)
  obtain ⟨hdisplaced, howners⟩ := Machine.owners_of_declared (Prod.ext hok rfl)
  rw [hevents, List.reverse_reverse, hsession, hok]
  refine ⟨?_, howners⟩
  rw [eventsOf, hdisplaced]
  rfl

/-- Every other run leaves the owners as they are and yields just the snippet's own event. -/
theorem run_kept {p : Program.TopLevel}
    (h : ∀ d f, p = .declare d → (Machine.runTop snippet p host i.start).1 ≠ .ok f) :
    (i.run host snippet p).interpreter.session.owners = i.session.owners ∧
      ∃ e, (i.run host snippet p).events.reverse = [e] ∧ e.isOwn = true ∧ e.snippet = snippet ∧
        (e.exception = none → ∀ d, p ≠ .declare d) := by
  obtain ⟨hevents, -, hsession, -⟩ := run_eq i host snippet p
  rw [hevents, List.reverse_reverse, hsession]
  rcases hrun : Machine.runTop snippet p host i.start with ⟨e | f, t⟩
  · have hsettled := Machine.runTop_settled snippet p host i.start e (by rw [hrun])
    rw [hrun] at hsettled
    exact ⟨Session.owners_eq_of_outline hsettled, _, rfl, rfl, rfl, nofun⟩
  · have hother : ∀ d, p ≠ .declare d := fun d hd => h d f hd (by rw [hrun])
    have howners : Machine.SameOwners i.start (Machine.runTop snippet p host i.start).2 :=
      Machine.keeps_sameOwners hother host i.start
    rw [hrun] at howners
    refine ⟨howners, .valid snippet (f.value.bind Value.render), ?_, rfl, rfl, fun _ => hother⟩
    rw [eventsOf, Machine.displaced_eq_none hother hrun]
    rfl

end Runs

theorem owning (i : Interpreter) (host : Host) (text : List Char) : i.Owning host text := by
  constructor
  · rintro _ ⟨d, snippet, p, f, hread, rfl, haccepts, hok⟩
    obtain ⟨ds, heq⟩ := haccepts.evalFragment_eq
    obtain ⟨tree, hread', rfl, hresult⟩ := haccepts
    cases hread.symm.trans hread'
    rcases resolve_cases hresult with ⟨_, d', htree, rfl, hname⟩ | ⟨-, hkind⟩
    · cases htree
      obtain ⟨hevents, howners⟩ := run_declared (i := i.issue ds) hok
      rw [hname] at hevents howners
      rw [heq]
      exact ⟨⟨_, hevents⟩, howners⟩
    · exact absurd rfl (hkind _)
  · intro hnot
    obtain ⟨snippet, ds, p?, hjudged, heq⟩ := exists_judged i text
    rw [heq]
    cases p? with
    | none => exact ⟨rfl, .rejected snippet, rfl, rfl, rfl⟩
    | some p =>
        generalize hresult : some p = p? at hjudged
        cases hjudged with
        | unread => cases hresult
        | @lookedUp tree hread =>
            have haccepts : i.Accepts text _ p := ⟨tree, hread, rfl, hresult.symm⟩
            have hcases := resolve_cases hresult.symm
            have hends : ∀ d f, p = .declare d →
                (Machine.runTop ⟨i.nextId, kindOf tree, String.ofList text⟩ p host i.start).1 ≠
                  .ok f := by
              intro d f hd hok
              rcases hcases with ⟨d', _, rfl, -, -⟩ | ⟨hp, -⟩
              · exact hnot _ ⟨d', _, p, f, hread, rfl, haccepts, hok⟩
              · exact hp d hd
            rw [← hresult]
            obtain ⟨howners, e, hevents, hown, hsnippet, hother⟩ := run_kept (i := i.issue _) hends
            refine ⟨howners, e, hevents, hown, ?_⟩
            rcases hcases with ⟨d, d', -, hd', -⟩ | ⟨-, hkind⟩
            · cases hexception : e.exception with
              | none => exact absurd hd' (hother hexception d')
              | some x => simp [Event.declares, hexception]
            · rw [Event.declares, hsnippet, SnippetKind.isVariable_eq_false hkind, Bool.and_false]

/-! ### Histories -/

/-- The events of a history that tell of overwritten snippets. -/
def overwritings (events : List Event) : List Event :=
  events.filter fun e => !e.isOwn

@[simp] theorem overwritings_append (events new : List Event) :
    overwritings (events ++ new) = overwritings events ++ overwritings new :=
  List.filter_append events new

theorem overwritings_own {e : Event} (he : e.isOwn = true) (displaced : Option Snippet) (id : Nat) :
    overwritings (e :: (displaced.map fun owner => Event.overwritten owner id).toList) =
      (displaced.map fun owner => Event.overwritten owner id).toList := by
  rw [overwritings, List.filter_cons_of_neg (by simp [he])]
  cases displaced <;> rfl

/-- The entry of a name and the others make up the list. -/
theorem perm_lookup {β : Type} {l : List (String × β)} (hl : (l.map Prod.fst).Nodup)
    (name : String) :
    (((l.lookup name).map (name, ·)).toList ++ l.filter fun p => p.1 ≠ name).Perm l := by
  induction l with
  | nil => exact .refl _
  | cons p l ih =>
      obtain ⟨hnew, hl⟩ := List.nodup_cons.mp hl
      rw [List.lookup_cons]
      by_cases hp : p.1 = name
      · subst hp
        have hrest : l.filter (fun q => q.1 ≠ p.1) = l := by
          refine List.filter_eq_self.mpr fun q hq => decide_eq_true fun heq => hnew ?_
          exact heq ▸ List.mem_map_of_mem hq
        rw [beq_self_eq_true, List.filter_cons_of_neg (by simp), hrest]
        exact .refl _
      · rw [beq_eq_false_iff_ne.mpr (Ne.symm hp), List.filter_cons_of_pos (by simpa using hp)]
        exact List.perm_middle.trans (.cons p (ih hl))

/-- The owners of the variables as the history that led to them has it. -/
structure Ledger (i : Interpreter) (events : List Event) : Prop where
  names : (i.session.owners.map Prod.fst).Nodup
  issued : ∀ p ∈ i.session.owners,
    p.2.kind = .variable p.1 ∧ ∃ e ∈ events, e.isOwn = true ∧ e.snippet = p.2
  /-- No snippet owns two variables, and no overwritten one owns any or is overwritten again. -/
  ids : ((overwritings events).map (·.snippet.id) ++ i.session.owners.map (·.2.id)).Nodup
  below : ∀ e ∈ events, e.snippet.id < i.nextId
  count : i.isClosed = false →
    i.session.owners.length + (overwritings events).length =
      (events.filter Event.declares).length

theorem Ledger.owner_lt {i : Interpreter} {events : List Event} (h : Ledger i events)
    {p : String × Snippet} (hp : p ∈ i.session.owners) : p.2.id < i.nextId := by
  obtain ⟨-, e, he, -, hsnippet⟩ := h.issued p hp
  exact hsnippet ▸ h.below e he

/-- A declaration that comes to its end keeps the ledger. -/
theorem Ledger.declared {i j : Interpreter} {events : List Event} (h : Ledger i events)
    {name source : String} {value : Option String} (hnext : j.nextId = i.nextId + 1)
    (hopen : i.isClosed = false)
    (howners : j.session.owners = (name, ⟨i.nextId, .variable name, source⟩) ::
      i.session.owners.filter fun p => p.1 ≠ name) :
    Ledger j (events ++ .valid ⟨i.nextId, .variable name, source⟩ value ::
      ((i.session.owners.lookup name).map fun owner =>
        Event.overwritten owner i.nextId).toList) := by
  have hperm := perm_lookup h.names name
  -- The event of the overwritten snippet stands for the entry that the list of owners has lost.
  have hlost : ((i.session.owners.lookup name).map fun owner =>
      Event.overwritten owner i.nextId).toList.map (·.snippet.id) =
        ((i.session.owners.lookup name).map (name, ·)).toList.map (·.2.id) := by
    cases i.session.owners.lookup name <;> rfl
  constructor
  · rw [howners, List.map_cons, List.nodup_cons]
    refine ⟨fun hmem => ?_, (List.filter_sublist.map Prod.fst).nodup h.names⟩
    obtain ⟨p, hp, hname⟩ := List.mem_map.mp hmem
    simpa [hname] using (List.mem_filter.mp hp).2
  · rw [howners, List.forall_mem_cons]
    refine ⟨⟨rfl, .valid ⟨i.nextId, .variable name, source⟩ value, by simp, rfl, rfl⟩,
      fun p hp => ?_⟩
    obtain ⟨hkind, e, he, hown, hsnippet⟩ := h.issued p (List.mem_filter.mp hp).1
    exact ⟨hkind, e, List.mem_append_left _ he, hown, hsnippet⟩
  · have hids : i.nextId ∉ (overwritings events).map (·.snippet.id) ++
        i.session.owners.map (·.2.id) := by
      rw [List.mem_append, List.mem_map, List.mem_map]
      rintro (⟨e, he, heq⟩ | ⟨p, hp, heq⟩)
      · exact absurd heq (Nat.ne_of_lt (h.below e (List.mem_filter.mp he).1))
      · exact absurd heq (Nat.ne_of_lt (h.owner_lt hp))
    refine List.Perm.nodup ?_ (List.nodup_cons.mpr ⟨hids, h.ids⟩)
    rw [overwritings_append, overwritings_own rfl, howners, List.map_append, hlost, List.map_cons,
      List.append_assoc]
    refine List.Perm.trans ?_ (List.perm_middle.append_left _).symm
    refine List.perm_middle.symm.trans (.append_left _ (.cons _ ?_))
    rw [← List.map_append]
    exact (hperm.map _).symm
  · rw [List.forall_mem_append, List.forall_mem_cons, hnext]
    refine ⟨fun e he => Nat.lt_succ_of_lt (h.below e he), Nat.lt_succ_self _, fun e he => ?_⟩
    have hid : e.snippet.id ∈ i.session.owners.map (·.2.id) := by
      refine (hperm.map _).subset (List.map_append ▸ List.mem_append_left _ ?_)
      rw [← hlost]
      exact List.mem_map_of_mem he
    obtain ⟨p, hp, hid⟩ := List.mem_map.mp hid
    exact hid ▸ Nat.lt_succ_of_lt (h.owner_lt hp)
  · intro _
    have hdeclares : (((i.session.owners.lookup name).map fun owner =>
        Event.overwritten owner i.nextId).toList.filter Event.declares) = [] := by
      cases i.session.owners.lookup name <;> rfl
    have hlength := hperm.length_eq
    have hlosses := congrArg List.length hlost
    have hcount := h.count hopen
    rw [howners, overwritings_append, overwritings_own rfl, List.filter_append,
      List.filter_cons_of_pos rfl, hdeclares]
    simp only [List.length_append, List.length_cons, List.length_map, List.length_nil] at *
    omega

/-- What leaves the owners as they are keeps the ledger. -/
theorem Ledger.kept {i j : Interpreter} {events : List Event} (h : Ledger i events) {e : Event}
    (hnext : j.nextId = i.nextId + 1) (hopen : i.isClosed = false)
    (howners : j.session.owners = i.session.owners) (hown : e.isOwn = true)
    (hid : e.snippet.id = i.nextId) (hdeclares : e.declares = false) :
    Ledger j (events ++ [e]) := by
  have hnone : overwritings [e] = [] := overwritings_own hown none 0
  constructor
  · rw [howners]
    exact h.names
  · rw [howners]
    intro p hp
    obtain ⟨hkind, e', he', hrest⟩ := h.issued p hp
    exact ⟨hkind, e', List.mem_append_left _ he', hrest⟩
  · rw [howners, overwritings_append, hnone, List.append_nil]
    exact h.ids
  · rw [hnext, List.forall_mem_append, List.forall_mem_singleton, hid]
    exact ⟨fun e he => Nat.lt_succ_of_lt (h.below e he), Nat.lt_succ_self _⟩
  · intro _
    rw [howners, overwritings_append, hnone, List.append_nil, List.filter_append,
      List.filter_cons_of_neg (by rw [hdeclares]; simp), List.filter_nil, List.append_nil]
    exact h.count hopen

theorem History.ledger {i : Interpreter} {events : List Event} (hi : History i events) :
    Ledger i events := by
  refine hi.advances ⟨.nil, by simp [Session.owners], .nil, by simp, fun _ => rfl⟩ ?_ ?_
  · intro i events host text hopen h
    obtain ⟨e, displaced, hown, hid, -, hnext, hevents⟩ := evalFragment_own i host text
    have howning := owning i host text
    by_cases hdeclares : ∃ name, i.Declares host text name
    · obtain ⟨name, hname⟩ := hdeclares
      obtain ⟨⟨value, hevents'⟩, howners⟩ := howning.declared name hname
      rw [hevents']
      exact h.declared hnext hopen howners
    · obtain ⟨howners, e', hevents', hown', hdeclares'⟩ := howning.kept (not_exists.mp hdeclares)
      rw [hevents'] at hevents ⊢
      obtain ⟨rfl, -⟩ := List.cons.inj hevents
      exact h.kept hnext hopen howners hown hid hdeclares'
  · intro i events h
    have hids := (List.nodup_append.mp h.ids).1
    exact ⟨.nil, nofun, by simpa [close, Session.owners] using hids, h.below, nofun⟩

/-- Who owns the variables of an interpreter, given all events so far. -/
structure Ownership (i : Interpreter) (events : List Event) : Prop where
  /-- Every owner is a snippet of the history that declared a variable of that very name. -/
  issued : ∀ v ∈ i.session.vars, v.owner.kind = .variable v.name ∧
    ∃ e ∈ events, e.isOwn = true ∧ e.snippet = v.owner
  /-- No two variables have the same owner. -/
  distinct : (i.session.vars.map (·.owner.id)).Nodup
  /-- No snippet is overwritten twice. -/
  once : ((overwritings events).map (·.snippet.id)).Nodup
  /-- Each variable comes from a declaration, and the others were overwritten. -/
  count : i.isClosed = false →
    i.session.vars.length + (overwritings events).length =
      (events.filter Event.declares).length

/-- **Ownership.**  Behind every history each variable belongs to a snippet of its own, which
declared it, and no snippet is overwritten twice.  A fragment changes the owners only if it is a
declaration that comes to its end, and then it yields an event for the owner from before. -/
theorem ownership : (∀ i events, History i events → i.Ownership events) ∧
    ∀ i host text, Owning i host text := by
  refine ⟨fun i events hi => ?_, owning⟩
  have hledger := hi.ledger
  obtain ⟨hoverwritten, hids, -⟩ := List.nodup_append.mp hledger.ids
  refine ⟨fun v hv => ?_, ?_, hoverwritten, fun hopen => ?_⟩
  · exact hledger.issued (v.name, v.owner) (List.mem_map_of_mem hv)
  · simpa [Session.owners, Function.comp_def] using hids
  · simpa [Session.owners] using hledger.count hopen

/-- A variable is declared again, and then hidden in a block. -/
theorem ownership_redeclared :
    let i := (eval {} Host.bare "int x = 1").interpreter
    let batch := i.eval Host.bare "int x = 2; { int x = 3; }"
    History batch.interpreter ((eval {} Host.bare "int x = 1").events ++ batch.events) ∧
      Ownership batch.interpreter ((eval {} Host.bare "int x = 1").events ++ batch.events) ∧
      (batch.events.map fun e => (e.snippet.id, e.causedBy)) = [(2, none), (1, some 2), (3, none)] ∧
      ∃ name, i.Declares Host.bare "int x = 2".toList name ∧
        (i.evalFragment Host.bare "int x = 2".toList).interpreter.session.owners =
          (name, ⟨i.nextId, .variable name, "int x = 2"⟩) ::
            i.session.owners.filter fun p => p.1 ≠ name := by
  intro i batch
  have hi : History i (eval {} Host.bare "int x = 1").events :=
    .evaluated Host.bare "int x = 1" .fresh
  have hbatch := hi.evaluated Host.bare "int x = 2; { int x = 3; }"
  have hlaw := ownership.2 i Host.bare "int x = 2".toList
  have hdeclares : ∃ name, i.Declares Host.bare "int x = 2".toList name := by
    by_contra hnot
    obtain ⟨-, e, hevents, -, hdeclares⟩ := hlaw.kept (not_exists.mp hnot)
    have hall : ((i.evalFragment Host.bare "int x = 2".toList).events.reverse.all fun e =>
      !e.declares) = false := by decide +kernel
    rw [hevents] at hall
    simp [hdeclares] at hall
  obtain ⟨name, hname⟩ := hdeclares
  refine ⟨hbatch, ownership.1 _ _ hbatch, by decide +kernel, name, hname, ?_⟩
  exact (hlaw.declared name hname).2

end Interpreter

end GuardedRepl
