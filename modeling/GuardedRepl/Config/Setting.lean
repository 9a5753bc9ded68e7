import GuardedRepl.Config.Basic
import GuardedRepl.Text.Search
import GuardedRepl.Toml.Value

/-!
# Settings in a file

How the root table of a configuration file becomes a configuration.  A setting that is left out has
its default; a setting of the wrong kind spoils the file.  What is no setting is passed over, but
its numbers must be in range, unless it stands behind the settings in an array.
-/

namespace GuardedRepl
namespace Config

/-- The entries of a list that is written as one text with commas. -/
def splitList (raw : String) : List String :=
  ((Text.splitOn ',' raw.toList).map fun s => String.ofList (Text.trim s)).filter (· ≠ "")

/-- Reads a number of 64 bits without a sign. -/
def readNumber : Toml.Value → Option Nat
  | .integer n => if 0 ≤ n && n ≤ 0xFFFFFFFFFFFFFFFF then some n.toNat else none
  | _ => none

/-- Reads a text. -/
def readText : Toml.Value → Option String
  | .string s => some s
  | _ => none

/-- Reads a list: one text with commas, or an array of such texts. -/
def readList : Toml.Value → Option (List String)
  | .array items => do return (← items.mapM readText).flatMap splitList
  | v => (readText v).map splitList

/-- Reads a truth value. -/
def readFlag : Toml.Value → Option Bool
  | .boolean b => some b
  | _ => none

/-- Reads where audit lines go. -/
def readDestination (v : Toml.Value) : Option AuditDestination :=
  (readText v).map .ofSetting

/-- The settings of one section, by their place and by their name. -/
abbrev Section := Nat → String → Option Toml.Value

/-- The settings that a value holds: a table by their names, an array by their places, and a date
none. -/
def readSection : Toml.Value → Option Section
  | .table _ es => if Toml.Entries.inRange es then some fun _ name => es.lookup name else none
  | .array items => some fun place _ => items[place]?
  | .tables items => some fun place _ => (items.reverse[place]?).map (.table .header)
  | .date => some fun _ _ => none
  | _ => none

/-- The names of the sections. -/
def sectionNames : List String :=
  ["blocked", "execution", "output", "audit"]

/-- The section with a name, which is empty if it is left out. -/
def sectionOf (es : Toml.Entries) (name : String) : Option Section :=
  match es.lookup name with
  | none => some fun _ _ => none
  | some v => readSection v

/-- A setting of a section, or its default if it is left out. -/
def setting {α : Type} (s : Section) (place : Nat) (name : String) (read : Toml.Value → Option α)
    (default : α) : Option α :=
  match s place name with
  | none => some default
  | some v => read v

/-- The configuration of the root table of a file. -/
def ofEntries (es : Toml.Entries) : Option Config := do
  let d : Config := {}
  if !es.all fun (name, v) => sectionNames.contains name || v.inRange then none
  let blocked ← sectionOf es "blocked"
  let execution ← sectionOf es "execution"
  let output ← sectionOf es "output"
  let audit ← sectionOf es "audit"
  return {
    packages := ← setting blocked 0 "packages" readList d.packages
    classes := ← setting blocked 1 "classes" readList d.classes
    methods := ← setting blocked 2 "methods" readList d.methods
    timeout := ← setting execution 0 "timeout_ms" readNumber d.timeout
    stopGrace := ← setting execution 1 "stop_grace_ms" readNumber d.stopGrace
    encoding := ← setting output 0 "encoding" readText d.encoding
    initialCapacity := ← setting output 1 "initial_capacity" readNumber d.initialCapacity
    maxBytes := ← setting output 2 "max_bytes" readNumber d.maxBytes
    auditEnabled := ← setting audit 0 "enabled" readFlag d.auditEnabled
    auditDestination := ← setting audit 1 "destination" readDestination d.auditDestination }

end Config
end GuardedRepl
