import GuardedRepl.Files.Path
import GuardedRepl.Text.Utf8

/-!
# Files

What can be seen of the file system: some files, the directories that they are in, and the working
directory.

All files are ordinary ones.  A file has one content, whoever reads it and however often, and the
length that the file system reports of it is the length of that content.  Devices, pipes and files
that a kernel makes up while they are read, which report another length or never come to an end, are
not among them.
-/

namespace GuardedRepl
namespace Files

/-- The working directory, more directories, and files, by the names on the way to them from the
root.  The directories on the way to one of them are there, too.  A file is given by its content,
which is all that a reader gets. -/
structure Tree where
  workingDirectory : List String
  directories : List (List String) := []
  files : List (List String × List UInt8) := []

/-- What a path leads to. -/
inductive Entry where
  | file (content : List UInt8)
  | directory

/-- Why a path cannot be used. -/
inductive Obstacle where
  | missing
  | notDirectory
  | isDirectory
  | tooLong
  /-- A null character in the path. -/
  | nul
deriving DecidableEq, Repr

/-- An obstacle as the operating system words it. -/
def Obstacle.message : Obstacle → String
  | .missing => "No such file or directory (os error 2)"
  | .notDirectory => "Not a directory (os error 20)"
  | .isDirectory => "Is a directory (os error 21)"
  | .tooLong => "File name too long (os error 36)"
  | .nul => "file name contained an unexpected NUL byte"

/-- The message for a file that is no text. -/
def notText : String := "stream did not contain valid UTF-8"

/-- A place on the way along a path. -/
inductive Place where
  /-- A directory, by the names on the way back to the root. -/
  | directory (names : List String)
  | file (names : List String) (content : List UInt8)

/-- The names on the way along a path. -/
def namesOf (path : String) : List String :=
  ((Text.splitOn '/' path.toList).filter fun s => s ≠ []).map String.ofList

namespace Tree

/-- The tree of the files that are given by paths below the working directory. -/
def ofFiles (workingDirectory : List String) (files : List (String × List UInt8)) : Tree :=
  { workingDirectory
    files := files.map fun (path, content) => (workingDirectory ++ namesOf path, content) }

/-- What lies under the names on the way from the root. -/
def child? (t : Tree) (names : List String) : Option Place :=
  match t.files.lookup names with
  | some content => some (.file names content)
  | none =>
    let known := t.workingDirectory :: t.directories ++ t.files.map Prod.fst
    if known.any names.isPrefixOf then some (.directory names.reverse) else none

/-- The number of bytes that a path can have. -/
def maxPathBytes : Nat := 4095

/-- The number of bytes that a name can have. -/
def maxNameBytes : Nat := 255

/-- Goes on by one piece of a path.  Only a directory can be gone through, and the root is its own
parent. -/
def step (t : Tree) (place : Place) (piece : List Char) : Except Obstacle Place :=
  match place with
  | .file _ _ => .error .notDirectory
  | .directory names =>
    match piece with
    | [] => .ok place
    | ['.'] => .ok place
    | ['.', '.'] => .ok (.directory names.tail)
    | s =>
      if maxNameBytes < Text.Utf8.size s then .error .tooLong
      else
        match t.child? (names.reverse ++ [String.ofList s]) with
        | some place => .ok place
        | none => .error .missing

/-- Goes along the pieces of a path. -/
def walk (t : Tree) (place : Place) (pieces : List (List Char)) : Except Obstacle Place :=
  pieces.foldlM t.step place

/-- The place where a path begins, unless it is no path at all. -/
def start (t : Tree) (p : Path) : Except Obstacle Place :=
  if p.text.toList.contains '\x00' then .error .nul
  else if p.text = "" then .error .missing
  else if maxPathBytes < p.text.utf8ByteSize then .error .tooLong
  else .ok (.directory (if p.isAbsolute then [] else t.workingDirectory.reverse))

/-- What a path leads to. -/
def lookup (t : Tree) (p : Path) : Except Obstacle Entry := do
  match ← t.walk (← t.start p) p.pieces with
  | .file _ content => return .file content
  | _ => return .directory

/-- Whether a path leads anywhere. -/
def leads (t : Tree) (p : Path) : Bool :=
  match t.lookup p with
  | .ok _ => true
  | .error _ => false

/-- The text of a file, or why it cannot be read. -/
def readText (t : Tree) (p : Path) : Except String (List Char) :=
  match t.lookup p with
  | .error o => .error o.message
  | .ok .directory => .error Obstacle.isDirectory.message
  | .ok (.file content) =>
    match Text.Utf8.decode content with
    | .ok cs => .ok cs
    | .error _ => .error notText

/-- The names on the way along the pieces of a path to where it leads if nothing is in the way. -/
def namesAlong (t : Tree) (p : Path) (pieces : List (List Char)) : List String :=
  pieces.foldl
    (fun names piece =>
      match piece with
      | [] => names
      | ['.'] => names
      | ['.', '.'] => names.dropLast
      | s => names ++ [String.ofList s])
    (if p.isAbsolute then [] else t.workingDirectory)

/-- The tree in which a path leads to a file with some content, or else to a directory. -/
def reveal (t : Tree) (p : Path) (content : Option (List UInt8)) : Tree :=
  let names := t.namesAlong p p.pieces
  let onTheWay := (List.range p.pieces.length).map fun n => t.namesAlong p (p.pieces.take n)
  match content with
  | some bytes =>
    { t with
      directories := onTheWay ++ t.directories
      files := (names, bytes) :: t.files.filter fun (path, _) => path ≠ names }
  | none => { t with directories := names :: onTheWay ++ t.directories }

/-- Adds bytes to the end of a file, which is made if it is missing. -/
def append (t : Tree) (names : List String) (bytes : List UInt8) : Tree :=
  { t with
    files :=
      match t.files.lookup names with
      | some _ => t.files.map fun (path, old) => (path, if path = names then old ++ bytes else old)
      | none => t.files ++ [(names, bytes)] }

/-- The names on the way to the file that a path leads to when it is opened for adding to it.  The
file need not exist, but its directory must. -/
def opened (t : Tree) (p : Path) : Except Obstacle (List String) := do
  let first ← t.start p
  let pieces := p.pieces.filter (· ≠ [])
  match ← t.walk first pieces.dropLast, pieces.getLast? with
  | .file _ _, _ => throw .notDirectory
  | .directory _, none => throw .isDirectory
  | .directory names, some last =>
    if p.pieces.getLast? = some [] then throw .isDirectory
    match t.step (.directory names) last with
    | .ok (.file names _) => return names
    | .ok (.directory _) => throw .isDirectory
    | .error .missing => return names.reverse ++ [String.ofList last]
    | .error o => throw o

end Tree

end Files
end GuardedRepl
