import LinkedDeposit.Archive.Zip
import LinkedDeposit.Resource
import LinkedDeposit.Text.Cut

/-!
# Where a package's files are

A package is a directory, an archive, or a manifest alone. `PackageSource` hides the difference: it
reads a file by its path inside the package and says where the content of a binary is. Binaries of a
directory stay where they are until they are deposited; those of an archive are unpacked at once.

A path inside a package is relative and does not climb (`staysInside`), so that a manifest names no
file outside its package. An archive may hold its package in one top-level directory
(`packageDirectory?`).
-/

namespace LinkedDeposit

/-- The name of the file that describes a package. -/
def manifestName : String := "manifest.json"

/-- Access to the files of a package. -/
structure PackageSource (m : Type → Type) where
  /-- The bytes of the file at a path. -/
  read : String → ExceptT DepositError m Bytes
  /-- The content of the binary at a path. -/
  binary : String → ExceptT DepositError m Content

/-- Whether a path is relative and no segment of it climbs. -/
def staysInside (path : String) : Bool :=
  path ≠ "" && path.toList.head? ≠ some '/' && !(FileTree.segments path).contains ".."

/-- Puts a relative path behind a directory. -/
def joinPath (directory path : String) : String :=
  if directory.toList.getLast? = some '/' then directory ++ path else directory ++ "/" ++ path

/-- Refuses a path that may lead out of the package. -/
def checkInside {m : Type → Type} [Monad m] (path : String) : ExceptT DepositError m Unit :=
  if staysInside path then pure () else throw (.escapingPath path)

/-! ## Archives -/

/-- The part of an entry's name before its first slash. -/
def topLevel (name : String) : String := (Text.cutBefore (· = '/') name).1

/-- The directory of an archive that holds the package: none when the manifest stands at the root,
else the only top-level directory, if the manifest stands there. -/
def packageDirectory? (names : List String) : Option (Option String) :=
  if names.contains manifestName then some none
  else
    match (names.map topLevel).filter (· ≠ "") with
    | [] => none
    | directory :: rest =>
      if rest.all (· = directory) && names.contains (directory ++ "/" ++ manifestName)
      then some (some directory) else none

/-- The bytes of an entry. -/
def readEntry (path : String) (archive : Archive) (name : String) : Except DepositError Bytes :=
  match archive.find? name with
  | none => .error (.invalidPackage ("failed to extract " ++ name ++ " from " ++ path ++
      ": specified file not found in archive"))
  | some entry =>
    match entry.content with
    | .ok bytes => .ok bytes
    | .error reason => .error (.io reason)

namespace PackageSource

variable {m : Type → Type} [Monad m]

/-- The files below a directory. -/
def ofDirectory (disk : Disk m) (directory : String) : PackageSource m where
  read path := do
    checkInside path
    let full := joinPath directory path
    match (← disk full).read with
    | .ok bytes => return bytes
    | .error reason => throw (.invalidPackage ("cannot read " ++ full ++ ": " ++ reason))
  binary path := do
    checkInside path
    let full := joinPath directory path
    if (← disk full).isFile then return .file full
    else throw (.invalidPackage ("binary " ++ full ++ " does not exist"))

/-- The entries of an archive, which was read from `path`, at its root or below a directory. -/
def ofArchive (path : String) (archive : Archive) (directory : Option String) :
    PackageSource m :=
  let read (name : String) : ExceptT DepositError m Bytes := do
    checkInside name
    liftM (readEntry path archive (directory.elim name (· ++ "/" ++ name)))
  { read
    binary := fun name => Content.bytes <$> read name }

/-- A manifest alone, without files. -/
def none : PackageSource m :=
  let read (path : String) : ExceptT DepositError m Bytes :=
    throw (.invalidPackage (path ++ " is not available without a package root"))
  { read
    binary := fun path => Content.bytes <$> read path }

/-- Opens the package at a path. -/
def ofPath (disk : Disk m) (path : String) : ExceptT DepositError m (PackageSource m) := do
  match ← disk path with
  | .directory => return ofDirectory disk path
  | .failure _ => throw (.invalidPath path)
  | .file bytes =>
    match Archive.ofBytes? bytes with
    | Option.none =>
      throw (.invalidPackage ("failed to read zip archive " ++ path ++ ": no archive directory"))
    | some archive =>
      match packageDirectory? (archive.map (·.name)) with
      | Option.none =>
        throw (.invalidPackage ("no " ++ manifestName ++ " found at archive root"))
      | some directory => return ofArchive path archive directory

end PackageSource

end LinkedDeposit
