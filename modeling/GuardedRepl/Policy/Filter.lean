import GuardedRepl.Access
import GuardedRepl.Config.Error
import GuardedRepl.Text.Blank

/-!
# Block lists

A filter is three lists of rules, for packages, classes and methods.  Whatever no rule names is
allowed.  A package rule covers the package and all packages below it.  Entries of the lists are
trimmed, and blank ones are skipped.
-/

namespace GuardedRepl

/-- A method of a class, by names. -/
structure MethodRule where
  cls : String
  method : String
deriving DecidableEq, Repr

/-- The rules of a policy. -/
structure Filter where
  packages : List String := []
  classes : List String := []
  methods : List MethodRule := []
deriving DecidableEq, Repr

/-- A decision on an access: allowed, or denied with the rule that matched, in words. -/
inductive Verdict where
  | allow
  | deny (reason : String)
deriving DecidableEq, Repr

/-- The first method entry that could not be read. -/
structure MalformedMethod where
  entry : String
deriving DecidableEq, Repr

/-- A text without the white space at its ends. -/
def trimmed (s : String) : String :=
  String.ofList (Text.trim s.toList)

namespace Filter

/-- The rule of a package entry: one `.*` at the end is dropped, and then all dots there. -/
def packageRule (entry : String) : String :=
  let name := (Text.trim entry.toList).reverse
  let name := if ['*', '.'].isPrefixOf name then name.drop 2 else name
  String.ofList (name.dropWhile (· = '.')).reverse

/-- The rule of a trimmed method entry, which has one hash with something on either side. -/
def methodRule? (entry : String) : Option MethodRule :=
  match Text.cut? '#' entry.toList with
  | none => none
  | some (before, after) =>
    let cls := Text.trim before
    let method := Text.trim after
    if cls.isEmpty || method.isEmpty || method.contains '#' then none
    else some ⟨String.ofList cls, String.ofList method⟩

/-- The rules of trimmed method entries, or the first entry that has none. -/
def methodRules : List String → Except MalformedMethod (List MethodRule)
  | [] => .ok []
  | entry :: entries =>
    match methodRule? entry with
    | none => .error ⟨entry⟩
    | some rule =>
      match methodRules entries with
      | .ok rules => .ok (rule :: rules)
      | .error e => .error e

/-- The trimmed entries of a list that are not blank. -/
def entries (raw : List String) : List String :=
  (raw.map trimmed).filter (· ≠ "")

/-- The filter of three lists of entries. -/
def ofLists (packages classes methods : List String) : Except MalformedMethod Filter :=
  match methodRules (entries methods) with
  | .error e => .error e
  | .ok rules =>
    .ok {
      packages := (packages.map packageRule).filter (· ≠ "")
      classes := entries classes
      methods := rules }

/-- Whether a package is the one a rule names or lies below it. -/
def coversPackage (rule package : String) : Bool :=
  rule.toList.isPrefixOf package.toList &&
    match package.toList.drop rule.toList.length with
    | [] => true
    | c :: _ => c = '.'

/-- The first class rule or method rule that matches, in words. -/
def memberReason? (f : Filter) (a : Access) : Option String :=
  match a with
  | .package _ => none
  | .cls c => if c ∈ f.classes then some ("class " ++ c ++ " is blocked") else none
  | .method c m =>
    if c ∈ f.classes then some ("class " ++ c ++ " is blocked")
    else if ⟨c, m⟩ ∈ f.methods then some ("method " ++ c ++ "#" ++ m ++ " is blocked")
    else none

/-- The decision on an access.  Package rules are tried first, in their order. -/
def check (f : Filter) (a : Access) : Verdict :=
  match f.packages.find? (coversPackage · a.inPackage) with
  | some rule => .deny ("package " ++ rule ++ " is blocked")
  | none =>
    match f.memberReason? a with
    | some reason => .deny reason
    | none => .allow

/-- Whether there is no rule at all. -/
def isEmpty (f : Filter) : Bool :=
  f.packages.isEmpty && f.classes.isEmpty && f.methods.isEmpty

end Filter

end GuardedRepl
