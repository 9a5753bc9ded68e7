import GuardedRepl.Text.Quoted

/-!
# Configuration errors

Why no evaluator can be built from a configuration.  Each cause has its message.
-/

namespace GuardedRepl

/-- A fault of a configuration. -/
inductive ConfigError where
  /-- The file could not be read, for the reason that the operating system gives. -/
  | unreadable (path reason : String)
  /-- The file is no table of settings, or a setting has the wrong kind. -/
  | unparsable
  /-- An entry of the blocked methods is not a class and a method joined by one hash. -/
  | malformedMethod (entry : String)
  /-- The output encoding has an unknown name. -/
  | unsupportedEncoding (name : String)
  /-- The deadline is zero. -/
  | zeroDeadline
  /-- The output is capped below the capacity it starts with. -/
  | capBelowCapacity (cap capacity : Nat)
deriving DecidableEq, Repr

namespace ConfigError

/-- A text in double quotes. -/
def quoted (s : String) : String :=
  String.ofList (Text.Quoted.encode s.toList)

/-- The message of an error. -/
def message : ConfigError → String
  | .unreadable path reason => "failed to read config file " ++ path ++ ": " ++ reason
  | .unparsable => "failed to parse config file"
  | .malformedMethod entry =>
    "malformed blocked method entry " ++ quoted entry ++ ": expected Class#method"
  | .unsupportedEncoding name =>
    "unsupported output encoding " ++ quoted name ++ ": only UTF-8 is available"
  | .zeroDeadline => "invalid configuration: execution.timeout_ms must be greater than zero"
  | .capBelowCapacity cap capacity =>
    "invalid configuration: output.max_bytes (" ++ toString cap ++
      ") is smaller than output.initial_capacity (" ++ toString capacity ++ ")"

end ConfigError

end GuardedRepl
