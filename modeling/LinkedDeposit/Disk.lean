import LinkedDeposit.Error
import LinkedDeposit.Table

/-!
# Files

What a path leads to (`FileView`), a disk as something to ask that question in any monad (`Disk`),
and a finite tree of files as a disk that is a value (`FileTree`).

A path is resolved segment by segment from the root. Empty segments and `.` stay where they are but
need a directory to stay in, `..` goes up, and every other segment has to be found in the directory
reached so far.
-/

namespace LinkedDeposit

abbrev Bytes := List UInt8

/-- What a path leads to. -/
inductive FileView where
  | file (bytes : Bytes)
  | directory
  /-- Nothing that can be opened, for the reason that the system gives. -/
  | failure (reason : String)
  deriving DecidableEq, Repr, Inhabited

namespace FileView

def noSuchFile : String := "No such file or directory (os error 2)"

def notADirectory : String := "Not a directory (os error 20)"

def isADirectory : String := "Is a directory (os error 21)"

def nameTooLong : String := "File name too long (os error 36)"

def holdsNul : String := "file name contained an unexpected NUL byte"

def notUtf8 : String := "stream did not contain valid UTF-8"

def isFile : FileView → Bool
  | .file _ => true
  | _ => false

/-- The bytes of a file, or the reason why there are none. A directory can be opened but not
read. -/
def read : FileView → Except String Bytes
  | .file bytes => .ok bytes
  | .directory => .error isADirectory
  | .failure reason => .error reason

end FileView

/-- A disk: what each path leads to. -/
abbrev Disk (m : Type → Type) := String → m FileView

/-- What each path leads to while nothing writes to the disk. -/
abbrev Files := String → FileView

/-! ## Finite trees of files -/

/-- A node of a file tree. -/
inductive FileNode where
  | file (bytes : Bytes)
  | directory
  deriving DecidableEq, Repr, Inhabited

/-- The nodes below the root by their segments. Every proper prefix of a path is a directory. -/
abbrev FileTree := Table (List String) FileNode

namespace FileTree

/-- The segments of a path, empty ones included. -/
def segments (path : String) : List String :=
  (path.toList.splitOn '/').map String.ofList

/-- The segments that name something. -/
def names (path : String) : List String := (segments path).filter fun s => s ≠ "" && s ≠ "."

/-- Adds the directories on the way to a node. -/
def addParents (t : FileTree) (path : List String) : FileTree :=
  (List.range path.length).foldl (fun (t : FileTree) n =>
    if n = 0 || t.contains (path.take n) then t else t.insert (path.take n) .directory) t

/-- Adds a node and the directories on the way to it. -/
def add (t : FileTree) (path : String) (node : FileNode) : FileTree :=
  (t.addParents (names path)).insert (names path) node

/-- The longest name of a node, in bytes. -/
def maxName : Nat := 255

/-- Follows segments from a node. -/
def resolve (t : FileTree) : (position : List String) → List String →
    Except String (List String × FileNode)
  | [], [] => .ok ([], .directory)
  | position, [] =>
    match t.get? position with
    | some node => .ok (position, node)
    | none => .error FileView.noSuchFile
  | position, segment :: rest =>
    let here := if position.isEmpty then some FileNode.directory else t.get? position
    match here with
    | none => .error FileView.noSuchFile
    | some (.file _) => .error FileView.notADirectory
    | some .directory =>
      if segment = "" || segment = "." then t.resolve position rest
      else if segment = ".." then t.resolve position.dropLast rest
      else if maxName < segment.utf8ByteSize then .error FileView.nameTooLong
      else t.resolve (position ++ [segment]) rest

/-- What a path leads to. -/
def view (t : FileTree) : Files := fun path =>
  if path.isEmpty then .failure FileView.noSuchFile
  else if path.toList.contains '\x00' then .failure FileView.holdsNul
  else match t.resolve [] (segments path) with
    | .ok (_, .file bytes) => .file bytes
    | .ok (_, .directory) => .directory
    | .error reason => .failure reason

/-- Adds bytes at the end of a file, which is created if its directory is there. -/
def append (t : FileTree) (path : String) (bytes : Bytes) : Except String FileTree :=
  match t.view path with
  | .directory => .error FileView.isADirectory
  | .file old =>
    match t.resolve [] (segments path) with
    | .ok (position, _) => .ok (t.insert position (.file (old ++ bytes)))
    | .error reason => .error reason
  | .failure reason =>
    match (segments path).getLast? with
    | some name =>
      if name = "" || name = "." || name = ".." || maxName < name.utf8ByteSize
          || path.toList.contains '\x00' then .error reason
      else match t.resolve [] (segments path).dropLast with
        | .ok (position, .directory) => .ok (t.insert (position ++ [name]) (.file bytes))
        | .ok (_, .file _) => .error FileView.notADirectory
        | .error reason => .error reason
    | none => .error reason

end FileTree

end LinkedDeposit
