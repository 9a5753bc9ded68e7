/-!
# TOML values

What a configuration file says.  A table remembers how it came about, since that decides whether
more may be added to it.  Of a number with a fraction only its range is kept and of a date nothing,
since no setting has such a value.
-/

namespace GuardedRepl
namespace Toml

/-- How a table came about. -/
inductive TableForm where
  /-- In braces.  Nothing can be added to it. -/
  | braces
  /-- On the way to the table of a header. -/
  | implied
  /-- By a header of its own. -/
  | header
  /-- By a dotted key, or on the way to the table of a header and later to the value of a dotted
  key. -/
  | dotted
deriving DecidableEq, Repr

/-- A value. -/
inductive Value where
  | string (s : String)
  | integer (n : Int)
  /-- A number with a fraction or an exponent, and whether it is in the range of floating point
  numbers. -/
  | float (inRange : Bool)
  | boolean (b : Bool)
  | date
  | array (items : List Value)
  | table (form : TableForm) (entries : List (String × Value))
  /-- Tables by headers in double brackets, the last one first. -/
  | tables (items : List (List (String × Value)))
deriving Repr, Inhabited

/-- The entries of a table. -/
abbrev Entries := List (String × Value)

/-- Whether an integer is in the range of the words of 128 bits, with a sign or without one. -/
def integerInRange (n : Int) : Bool :=
  -0x80000000000000000000000000000000 ≤ n && n ≤ 0xFFFFFFFFFFFFFFFFFFFFFFFFFFFFFFFF

mutual

/-- Whether all numbers in a value are in range. -/
def Value.inRange : Value → Bool
  | .integer n => integerInRange n
  | .float b => b
  | .array items => allInRange items
  | .table _ es => Entries.inRange es
  | .tables items => tablesInRange items
  | _ => true

/-- Whether all numbers in some values are in range. -/
def allInRange : List Value → Bool
  | [] => true
  | v :: vs => v.inRange && allInRange vs

/-- Whether all numbers in the entries of a table are in range. -/
def Entries.inRange : List (String × Value) → Bool
  | [] => true
  | (_, v) :: es => v.inRange && Entries.inRange es

/-- Whether all numbers in some tables are in range. -/
def tablesInRange : List (List (String × Value)) → Bool
  | [] => true
  | es :: tables => Entries.inRange es && tablesInRange tables

end

namespace Entries

/-- Puts a value in the place of the one with the same key. -/
def replace (key : String) (v : Value) (es : Entries) : Entries :=
  es.map fun (k, w) => if k = key then (k, v) else (k, w)

/-- Changes the table that a header names, which exists already. -/
def within (change : Entries → Option Entries) : List String → Entries → Option Entries
  | [], es => change es
  | key :: path, es =>
    match es.lookup key with
    | some (.table .braces _) => none
    | some (.table form inner) => do
      return es.replace key (.table form (← within change path inner))
    | some (.tables (last :: others)) => do
      return es.replace key (.tables ((← within change path last) :: others))
    | _ => none

/-- Goes down a header, making the tables that are missing, and changes the last but one. -/
def below (change : Entries → Option Entries) : List String → Entries → Option Entries
  | [], es => change es
  | key :: path, es =>
    match es.lookup key with
    | none => do return es ++ [(key, .table .implied (← below change path []))]
    | some (.table .braces _) => none
    | some (.table form inner) => do
      return es.replace key (.table form (← below change path inner))
    | some (.tables (last :: others)) => do
      return es.replace key (.tables ((← below change path last) :: others))
    | _ => none

/-- Opens the table with a key, which may exist only as an implied one. -/
def openTable (key : String) (es : Entries) : Option Entries :=
  match es.lookup key with
  | none => some (es ++ [(key, .table .header [])])
  | some (.table .implied inner) => some (es.replace key (.table .header inner))
  | _ => none

/-- Adds a table to the ones with a key. -/
def appendTable (key : String) (es : Entries) : Option Entries :=
  match es.lookup key with
  | none => some (es ++ [(key, .tables [[]])])
  | some (.tables items) => some (es.replace key (.tables ([] :: items)))
  | _ => none

/-- Adds a value under a new key. -/
def add (key : String) (v : Value) (es : Entries) : Option Entries :=
  match es.lookup key with
  | none => some (es ++ [(key, v)])
  | some _ => none

/-- Adds a value under a dotted key, whose last part is `key`.  The tables on the way are made if
they are missing.  An implied one counts as made by dotted keys from then on, so that no header can
open it any more; the last one must not be made by a header. -/
def addDotted (key : String) (v : Value) : List String → Entries → Option Entries
  | [], es => es.add key v
  | part :: path, es =>
    match es.lookup part with
    | none => do return es ++ [(part, .table .dotted (← addDotted key v path []))]
    | some (.table .dotted inner) => do
      return es.replace part (.table .dotted (← addDotted key v path inner))
    | some (.table .implied inner) => do
      return es.replace part (.table .dotted (← addDotted key v path inner))
    | some (.tables (last :: others)) => do
      if path = [] then none
      return es.replace part (.tables ((← addDotted key v path last) :: others))
    | _ => none

end Entries

end Toml
end GuardedRepl
