import GuardedRepl.Audit
import GuardedRepl.Capture
import GuardedRepl.Config.Error
import GuardedRepl.Policy.Filter

/-!
# Configurations

The settings of an evaluator, their values where nothing else is set, and the conditions under which
an evaluator can be built from them.
-/

namespace GuardedRepl

/-- The settings of an evaluator.  Times are given in milliseconds. -/
structure Config where
  packages : List String := ["java.nio"]
  classes : List String := ["java.io.File", "java.lang.Runtime", "java.lang.Thread"]
  /-- Pairs of a class and a method, joined by a hash. -/
  methods : List String := ["java.lang.System\x23exit", "java.lang.System#getenv"]
  timeout : Nat := 5000
  /-- The time that an engine gets to wind down once it has been told to stop. -/
  stopGrace : Nat := 1000
  encoding : String := "UTF-8"
  initialCapacity : Nat := 3200
  /-- The cap on the captured bytes of one evaluation. -/
  maxBytes : Nat := 65536
  auditEnabled : Bool := false
  auditDestination : AuditDestination := .stdout
deriving DecidableEq, Repr

namespace Config

/-- The filter of the block lists. -/
def filter (c : Config) : Except ConfigError Filter :=
  (Filter.ofLists c.packages c.classes c.methods).mapError fun e => .malformedMethod e.entry

/-- Checks the settings, and yields the filter of the block lists. -/
def validate (c : Config) : Except ConfigError Filter :=
  if c.timeout = 0 then .error .zeroDeadline
  else if c.maxBytes < c.initialCapacity then
    .error (.capBelowCapacity c.maxBytes c.initialCapacity)
  else
    match Encoding.ofName c.encoding with
    | .error e => .error e
    | .ok _ => c.filter

end Config

end GuardedRepl
