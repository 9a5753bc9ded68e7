import GuardedRepl.Text.Search

/-!
# Arguments

What the arguments of the command line ask for.  They are read from left to right, and a flag that
asks for help or for the version settles the matter.  The texts about the arguments are here, too.
-/

namespace GuardedRepl
namespace CommandLine

/-- What the arguments ask for. -/
inductive Order where
  | help
  | version
  /-- Commands are to be run: the given one, or else the ones on the lines of the input. -/
  | run (config command : Option String)
deriving DecidableEq, Repr

/-- The options that take a value. -/
inductive Setting where
  | config
  | command
deriving DecidableEq, Repr

/-- The values of options that have been read. -/
structure Options where
  config : Option String := none
  command : Option String := none

namespace Options

/-- Sets an option, unless it is set or cannot have this value: the name of a file is not empty. -/
def set (o : Options) (s : Setting) (value : String) : Option Options :=
  match s with
  | .config => if o.config.isSome || value = "" then none else some { o with config := some value }
  | .command => if o.command.isSome then none else some { o with command := some value }

end Options

/-- An argument by its form. -/
inductive Argument where
  | help
  | version
  | setting (s : Setting) (value : Option String)
  /-- Two hyphens, after which nothing may follow. -/
  | divider
  | unknown
deriving DecidableEq, Repr

namespace Argument

/-- The argument of a long option by name and value. -/
def long (name : List Char) (value : Option String) : Argument :=
  if name = "config".toList then .setting .config value
  else if name = "command".toList then .setting .command value
  else if name = "help".toList && value.isNone then .help
  else if name = "version".toList && value.isNone then .version
  else .unknown

/-- The form of an argument. -/
def ofText (s : String) : Argument :=
  match s.toList with
  | ['-', '-'] => .divider
  | '-' :: '-' :: cs =>
    match Text.cut? '=' cs with
    | some (name, value) => long name (some (String.ofList value))
    | none => long cs none
  | '-' :: 'h' :: _ => .help
  | '-' :: 'V' :: _ => .version
  | _ => .unknown

end Argument

/-- Whether an argument can be the value of the option before it. -/
def isValue (s : String) : Bool :=
  s = "-" || s.toList.head? ≠ some '-'

/-- Reads arguments, after the ones that gave `o`. -/
def read (o : Options) : List String → Option Order
  | [] => some (.run o.config o.command)
  | arg :: rest =>
    match Argument.ofText arg with
    | .help => some .help
    | .version => some .version
    | .divider => if rest.isEmpty then some (.run o.config o.command) else none
    | .setting s (some value) => (o.set s value).bind fun o => read o rest
    | .setting s none =>
      match rest with
      | [] => none
      | value :: rest =>
        if isValue value then (o.set s value).bind fun o => read o rest else none
    | .unknown => none

/-- The order that arguments give, if they can be understood. -/
def Order.ofArguments (args : List String) : Option Order :=
  read {} args

/-- The version of the program. -/
def versionText : String := "snipbox 0.3.0\n"

/-- The description of the program. -/
def helpText : String :=
  "Evaluate untrusted snippets under a symbol policy and a deadline\n\n" ++
  "Usage: snipbox [OPTIONS]\n\n" ++
  "Options:\n" ++
  "      --config <CONFIG>    TOML configuration file. Falls back to `SNIPBOX_CONFIG`, then " ++
  "`config/default.toml`. A file named here or in `SNIPBOX_CONFIG` must exist\n" ++
  "      --command <COMMAND>  Evaluate one command and exit instead of reading stdin\n" ++
  "  -h, --help               Print help\n" ++
  "  -V, --version            Print version\n"

/-- The complaint about arguments that cannot be understood. -/
def usageText : String :=
  "error: unexpected arguments\n\nUsage: snipbox [OPTIONS]\n\nFor more information, try '--help'.\n"

end CommandLine
end GuardedRepl
