import GuardedRepl.Machine.Basic
import GuardedRepl.Value.Strings

/-!
# Calls

What the static fields, methods and constructors of the library do.  That a call is allowed has
been settled before its arguments are evaluated, but for a method of an object, which is settled by
the class of the object once it is at hand.
-/

namespace GuardedRepl
namespace Machine

open Library

/-- The value of a static field. -/
def staticValue : StaticField → Value
  | .out => .stream .out
  | .err => .stream .err
  | .maxValue => .int 2147483647
  | .minValue => .int (-2147483648)

/-- The integer of 64 bits for a number, or the greatest one. -/
def clampedInt (n : Nat) : Int64 :=
  Int64.ofNat (min n 0x7FFFFFFFFFFFFFFF)

/-- A property of the system. -/
def systemProperty : String → Value
  | "java.version" => .str "17"
  | "line.separator" => .str "\n"
  | "os.name" => .str "linux"
  | _ => .null

/-- Reads an integer of 32 bits. -/
def parseInt (s : String) : Except Exception Value :=
  match Text.Numeral.readInt (-0x80000000) 0x7FFFFFFF s.toList with
  | some n => .ok (.int (Int64.ofInt n))
  | none => .error (.notNumber s)

/-- Whether a value is the word `true` in any case. -/
def parseBoolean : Value → Bool
  | .str s => s.toList.map Char.toLower = "true".toList
  | _ => false

/-- The content of a file as a string.  The length that is tested before the file is read is the one
that the file system reports; of an ordinary file, the only kind that a tree has, that is the length
of the content. -/
def readString (files : Files.Tree) (p : Files.Path) : Except Exception Value :=
  match files.lookup p with
  | .error _ => .error (.noSuchFile p)
  | .ok .directory => .error (.unreadable Files.Obstacle.isDirectory.message)
  | .ok (.file content) =>
    if Value.maxStringBytes < content.length then .error .outOfMemory
    else
      match Text.Utf8.decode content with
      | .ok cs => .ok (.str (String.ofList cs))
      | .error _ => .error (.unreadable Files.notText)

/-- Joins paths from left to right. -/
def joinPaths (p : Files.Path) : List Value → Except Exception Value
  | [] => .ok (.path p)
  | v :: vs => do joinPaths (p.join ⟨← v.asString⟩) vs

/-- Sleeps for a number of milliseconds. -/
def sleepFor (ms : Int64) : Run Value :=
  if ms < 0 then Run.throw .negativeTimeout
  else do
    Run.sleep ms.toNatClampNeg
    return .void

/-- Calls a static method. -/
def callStatic (m : StaticMethod) (args : List Value) : Run Value :=
  match m, args with
  | .currentTimeMillis, [] => return .int (clampedInt ((← Run.readClock) / 1000000))
  | .nanoTime, [] => return .int (clampedInt (← Run.readClock))
  | .exit, [_] => Run.throw .exitForbidden
  | .getProperty, [key] => return systemProperty (← Run.lift key.asString)
  | .getenv, [_] => return .null
  | .lineSeparator, [] => return .str "\n"
  | .abs, [v] => return .int (← Run.lift v.asInt).abs
  | .max, [v, w] => do
    let a ← Run.lift v.asInt
    let b ← Run.lift w.asInt
    return .int (if a < b then b else a)
  | .min, [v, w] => do
    let a ← Run.lift v.asInt
    let b ← Run.lift w.asInt
    return .int (if b < a then b else a)
  | .floorMod, [v, w] => do
    let a ← Run.lift v.asInt
    let b ← Run.lift w.asInt
    return .int (← Run.lift (Value.floorMod a b))
  | .valueOf, [v] => return .str v.text
  | .parseInt, [v] => do Run.lift (parseInt (← Run.lift v.asString))
  | .intToString, [v] => return .str (Value.intText (← Run.lift v.asInt))
  | .parseBoolean, [v] => return .bool (parseBoolean v)
  | .sleep, [v] => do sleepFor (← Run.lift v.asInt)
  | .getRuntime, [] => return .runtime
  | .fileExists, [v] => do
    let p ← Run.lift v.asPath
    return .bool ((← Run.files).leads p)
  | .readString, [v] => do
    let p ← Run.lift v.asPath
    Run.lift (readString (← Run.files) p)
  | .of, v :: vs => do
    let first ← Run.lift v.asString
    Run.lift (joinPaths ⟨first⟩ vs)
  | m, args => Run.throw (.badStaticCall m args.length)

/-- Constructs an object. -/
def construct (cls : HostClass) (args : List Value) : Except Exception Value :=
  match cls, args with
  | .file, [v] => return .file ⟨← v.asString⟩
  | cls, args => .error (.badConstruction cls args.length)

/-- Calls a method that every object has. -/
def callObject (target : Value) (m : ObjectMethod) (name : String) (args : List Value) :
    Except Exception Value :=
  match m, args with
  | .toString, [] => .ok (.str target.text)
  | .equals, [v] => .ok (.bool (target.same v))
  | .hashCode, [] => .ok (.int target.hash)
  | _, _ => .error (.badObjectCall name)

/-- The text that is printed for the arguments of a call. -/
def printed (m : PrintMethod) (args : List Value) : Except Exception String := do
  let text ← match args with
    | [] => .ok ""
    | [v] => .ok v.text
    | _ => .error .tooManyArguments
  return match m with
    | .println => text ++ "\n"
    | .print => text

/-- Prints to a stream. -/
def callPrint (s : Stream) (m : PrintMethod) (args : List Value) : Run Value := do
  Run.write s (← Run.lift (printed m args))
  return .void

/-- Calls a method of the runtime. -/
def callRuntime (m : RuntimeMethod) (name : String) (args : List Value) : Run Value :=
  match m, args with
  | .availableProcessors, [] => return .int (← Run.processors)
  | .exec, [_] => Run.throw .execForbidden
  | _, _ => Run.throw (.badCall name args.length)

/-- Calls a method of a file. -/
def callFile (p : Files.Path) (m : FileMethod) (name : String) (args : List Value) : Run Value :=
  match m, args with
  | .exists, [] => return .bool ((← Run.files).leads p)
  | .getName, [] => return .str (p.fileName?.getD "")
  | .getPath, [] => return .str p.text
  | _, _ => Run.throw (.badCall name args.length)

/-- Calls a method of a path. -/
def callPath (p : Files.Path) (m : PathMethod) (name : String) (args : List Value) :
    Except Exception Value :=
  match m, args with
  | .getFileName, [] =>
    match p.fileName? with
    | some s => .ok (.path ⟨s⟩)
    | none => .ok .null
  | _, _ => .error (.badCall name args.length)

/-- Calls a method of an object that belongs to its class. -/
def callOwn (cls : HostClass) (target : Value) (name : String) (args : List Value) : Run Value :=
  let missing : Run Value := Run.throw (.noSuchMethod cls name)
  match target with
  | .stream s => (PrintMethod.ofName? name).elim missing fun m => callPrint s m args
  | .str s => (StringMethod.ofName? name).elim missing fun m =>
      Run.lift (Value.Strings.call s m name args)
  | .runtime => (RuntimeMethod.ofName? name).elim missing fun m => callRuntime m name args
  | .file p => (FileMethod.ofName? name).elim missing fun m => callFile p m name args
  | .path p => (PathMethod.ofName? name).elim missing fun m => Run.lift (callPath p m name args)
  | _ => missing

/-- Calls a method of an object. -/
def callMethod (target : Value) (name : String) (args : List Value) : Run Value :=
  match target.cls? with
  | none => Run.throw (.nullTarget name)
  | some cls => do
    Run.check (.method cls.name name)
    match ObjectMethod.ofName? name with
    | some m => Run.lift (callObject target m name args)
    | none => callOwn cls target name args

end Machine
end GuardedRepl
