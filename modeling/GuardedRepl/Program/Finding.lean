import GuardedRepl.Snippet
import GuardedRepl.Source.Span

/-!
# Findings

What the look-up of names has to say about a snippet, and how the findings of its parts are put
together.  A look-up that finds an error yields no result, and it still goes through all parts, so
that every error is found.

**Results.**
* `Checked.sound_pure`, `Checked.sound_seq`, …: there is a result unless an error was found.
-/

namespace GuardedRepl
namespace Program

/-- A cause for a finding. -/
inductive Cause where
  | unknownPackage (name : String)
  /-- A class that is missing in a package of the library. -/
  | unknownImport (simpleName package : String)
  | duplicateImport (name : String)
  | unknownClass (name : String)
  | unknownVariable (name : String)
  | unknownField (name cls : String)
  | unknownMethod (name : String)
  | unknownStaticMethod (name cls : String)
  | notConstructible (cls : String)
  | redefinition (name : String)
  | strayBreak
  | strayContinue
deriving DecidableEq, Repr

namespace Cause

/-- How grave a finding is. -/
def severity : Cause → Severity
  | duplicateImport _ => .warning
  | _ => .error

/-- The message of a finding. -/
def message : Cause → String
  | unknownPackage name => "package " ++ name ++ " does not exist"
  | unknownImport simpleName package =>
    "cannot find symbol: class " ++ simpleName ++ " in package " ++ package
  | duplicateImport name => "duplicate import: " ++ name
  | unknownClass name => "cannot find symbol: class " ++ name
  | unknownVariable name => "cannot find symbol: variable " ++ name
  | unknownField name cls => "cannot find symbol: variable " ++ name ++ " in class " ++ cls
  | unknownMethod name => "cannot find symbol: method " ++ name
  | unknownStaticMethod name cls => "cannot find symbol: method " ++ name ++ " in class " ++ cls
  | notConstructible cls => cls ++ " has no accessible constructor"
  | redefinition name => "variable " ++ name ++ " is already defined"
  | strayBreak => "break outside switch or loop"
  | strayContinue => "continue outside of loop"

end Cause

/-- A cause and the place it was found at. -/
structure Finding where
  span : Source.Span
  cause : Cause
deriving DecidableEq, Repr

/-- A finding as a diagnostic of a snippet. -/
def Finding.diagnostic (snippet : Nat) (f : Finding) : Diagnostic :=
  ⟨snippet, f.cause.severity, f.span.start, f.span.stop, f.cause.message⟩

/-- Whether a finding is an error. -/
def Finding.isError (f : Finding) : Bool :=
  f.cause.severity = .error

/-- The result of a look-up, if it found no error, and everything that it found. -/
structure Checked (α : Type) where
  findings : List Finding
  result : Option α

namespace Checked

variable {α β : Type}

/-- A result without any findings. -/
def clean (a : α) : Checked α :=
  ⟨[], some a⟩

/-- A look-up that fails, for a cause that is an error. -/
def reject (span : Source.Span) (cause : Cause) : Checked α :=
  ⟨[⟨span, cause⟩], none⟩

/-- A result with a finding that is no error. -/
def warn (span : Source.Span) (cause : Cause) (a : α) : Checked α :=
  ⟨[⟨span, cause⟩], some a⟩

/-- Two look-ups one after the other. -/
def both (f : Checked (α → β)) (x : Unit → Checked α) : Checked β :=
  let y := x ()
  ⟨f.findings ++ y.findings,
    match f.result, y.result with
    | some g, some a => some (g a)
    | _, _ => none⟩

instance : Applicative Checked where
  pure := clean
  seq := both

@[simp] theorem result_pure (a : α) : (pure a : Checked α).result = some a := rfl

@[simp] theorem result_seq (f : Checked (α → β)) (x : Checked α) (b : β) :
    (f <*> x).result = some b ↔ ∃ g a, f.result = some g ∧ x.result = some a ∧ g a = b := by
  have h : (f <*> x).result = match f.result, x.result with
    | some g, some a => some (g a)
    | _, _ => none := rfl
  rw [h]
  cases f.result <;> cases x.result <;> simp

@[simp] theorem result_map (g : α → β) (x : Checked α) (b : β) :
    (g <$> x).result = some b ↔ ∃ a, x.result = some a ∧ g a = b := by
  have h : (g <$> x) = (pure g <*> x) := rfl
  simp [h]

/-- Whether there is a result exactly if no error was found. -/
def Sound (x : Checked α) : Prop :=
  x.result.isSome = !x.findings.any Finding.isError

theorem sound_pure (a : α) : Sound (pure a : Checked α) := rfl

theorem sound_reject {span : Source.Span} {cause : Cause} (h : cause.severity = .error) :
    Sound (reject span cause : Checked α) := by
  simp [Sound, reject, Finding.isError, h]

theorem sound_warn {span : Source.Span} {cause : Cause} (a : α) (h : cause.severity = .warning) :
    Sound (warn span cause a) := by
  simp [Sound, warn, Finding.isError, h]

theorem sound_seq {f : Checked (α → β)} {x : Checked α} (hf : f.Sound) (hx : x.Sound) :
    Sound (f <*> x) := by
  have h : Sound (both f fun _ => x) := by
    simp only [Sound, both, List.any_append, Bool.not_or] at *
    rw [← hf, ← hx]
    cases f.result <;> cases x.result <;> rfl
  exact h

theorem sound_map {x : Checked α} (g : α → β) (hx : x.Sound) : Sound (g <$> x) :=
  sound_seq (sound_pure g) hx

end Checked

end Program
end GuardedRepl
