import GuardedRepl.Config.Setting
import GuardedRepl.Files.Tree
import GuardedRepl.Text.Numeral
import GuardedRepl.Toml.Parser

/-!
# Loading a configuration

A configuration is read from a file, and variables of the environment override single settings.  A
variable with a number or a truth value that cannot be read is passed over.
-/

namespace GuardedRepl

/-- The variables of an environment. -/
abbrev Environment := List (String × String)

namespace Config

/-- Reads a number of 64 bits from a variable. -/
def numberIn (s : String) : Option Nat :=
  Text.Numeral.readNat 0xFFFFFFFFFFFFFFFF s.toList

/-- Reads a truth value from a variable. -/
def flagIn : String → Option Bool
  | "true" => some true
  | "false" => some false
  | _ => none

/-- The value that a variable gives to a setting, or else the value that it has. -/
def override {α : Type} (env : Environment) (name : String) (read : String → Option α)
    (old : α) : α :=
  ((env.lookup ("SNIPBOX_" ++ name)).bind read).getD old

/-- The variables that have a say: the overrides, and the one that names the configuration file. -/
def variableNames : List String :=
  ["BLOCKED_PACKAGES", "BLOCKED_CLASSES", "BLOCKED_METHODS", "TIMEOUT_MS", "STOP_GRACE_MS",
    "OUTPUT_MAX_BYTES", "AUDIT_ENABLED", "AUDIT_DESTINATION", "CONFIG"].map ("SNIPBOX_" ++ ·)

/-- A configuration with the overrides of an environment. -/
def withEnvironment (env : Environment) (c : Config) : Config :=
  { c with
    packages := override env "BLOCKED_PACKAGES" (some ∘ splitList) c.packages
    classes := override env "BLOCKED_CLASSES" (some ∘ splitList) c.classes
    methods := override env "BLOCKED_METHODS" (some ∘ splitList) c.methods
    timeout := override env "TIMEOUT_MS" numberIn c.timeout
    stopGrace := override env "STOP_GRACE_MS" numberIn c.stopGrace
    maxBytes := override env "OUTPUT_MAX_BYTES" numberIn c.maxBytes
    auditEnabled := override env "AUDIT_ENABLED" flagIn c.auditEnabled
    auditDestination :=
      override env "AUDIT_DESTINATION" (some ∘ AuditDestination.ofSetting) c.auditDestination }

/-- Reads a configuration file. -/
def read (files : Files.Tree) (path : Files.Path) : Except ConfigError Config :=
  match files.readText path with
  | .error reason => .error (.unreadable path.text reason)
  | .ok text =>
    match (Toml.parse text).bind ofEntries with
    | some c => .ok c
    | none => .error .unparsable

/-- The configuration in effect, if it is valid. -/
def finish (env : Environment) (c : Config) : Except ConfigError Config :=
  let c := c.withEnvironment env
  c.validate.map fun _ => c

/-- Loads a configuration from a file that must exist. -/
def loadRequired (files : Files.Tree) (env : Environment) (path : Files.Path) :
    Except ConfigError Config := do
  finish env (← read files path)

/-- Loads a configuration from a file, or the default one if the file does not exist. -/
def load (files : Files.Tree) (env : Environment) (path : Files.Path) : Except ConfigError Config :=
  if files.leads path then loadRequired files env path else finish env {}

end Config
end GuardedRepl
