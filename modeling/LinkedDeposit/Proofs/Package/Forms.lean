import LinkedDeposit.Proofs.Package.Alike
import LinkedDeposit.Proofs.Package.Resolution

/-!
# One package in two forms

The same files can be kept in a directory (`FileTree.Holds`) or in an archive (`FileTree.Packs`). A
directory leaves the binaries of a package where they are, an archive unpacks them; apart from this,
what is loaded is the same.

An archive looks for the entry of exactly the name that the manifest gives, while a directory also
takes `./a` or `a//b` for the file that they lead to. So a package that loads from its archive loads
alike from its directory, and the other way round where the manifest spells its paths as the files
are named.

Results:
* `read_ofDirectory_iff`, `read_ofArchive_iff`: which files each form serves.
* `load_alike`: directories and archives of the same files.
* `loads_only_directory`: a path that begins with `./` parts them.
-/

namespace LinkedDeposit

open FileTree (segments IsName)

/-! ## What a source serves -/

namespace PackageSource

variable {disk : Files} {path : String}

/-- A path that leaves the package is refused before anything is done. -/
theorem checkInside_bind {m : Type → Type} [Monad m] [LawfulMonad m] {α : Type}
    (next : PUnit → ExceptT DepositError m α) : checkInside path >>= next =
      if staysInside path then next ⟨⟩ else throw (.escapingPath path) := by
  unfold checkInside
  split
  · rw [pure_bind]
  · refine ExceptT.ext ?_
    rw [ExceptT.run_bind]
    exact pure_bind _ _

/-- A check that has to pass before anything else is done. -/
theorem run_checkInside_bind {α : Type} (next : PUnit → ExceptT DepositError Id α) (a : α) :
    (checkInside path >>= next).run = .ok a ↔ staysInside path = true ∧ (next ⟨⟩).run = .ok a := by
  rw [checkInside_bind]
  by_cases inside : staysInside path = true
  · rw [if_pos inside, and_iff_right inside]
  · rw [if_neg inside, iff_false_right (fun passed => inside passed.1)]
    nofun

/-- What a directory makes of a file that was read. -/
def servedFile (full : String) : Except String Bytes → ExceptT DepositError Id Bytes
  | .ok bytes => pure bytes
  | .error reason => throw (.invalidPackage ("cannot read " ++ full ++ ": " ++ reason))

theorem read_ofDirectory_iff {directory : String} {bytes : Bytes} :
    ((ofDirectory (m := Id) disk directory).read path).run = .ok bytes ↔
      staysInside path = true ∧ disk (joinPath directory path) = .file bytes := by
  refine (run_checkInside_bind _ _).trans (and_congr_right fun _ => ?_)
  change (servedFile (joinPath directory path) (disk (joinPath directory path)).read).run =
    .ok bytes ↔ _
  cases disk (joinPath directory path) with
  | file found =>
    constructor
    · rintro ⟨⟩
      rfl
    · rintro ⟨⟩
      rfl
  | directory => constructor <;> intro h <;> cases h
  | failure reason => constructor <;> intro h <;> cases h

theorem binary_ofDirectory_iff {directory : String} {c : Content} :
    ((ofDirectory (m := Id) disk directory).binary path).run = .ok c ↔ staysInside path = true ∧
      c = .file (joinPath directory path) ∧ ∃ bytes, disk (joinPath directory path) = .file bytes := by
  refine (run_checkInside_bind _ _).trans (and_congr_right fun _ => ?_)
  change (if (disk (joinPath directory path)).isFile = true then
    (pure (.file (joinPath directory path)) : ExceptT DepositError Id Content)
    else throw _).run = .ok c ↔ _
  cases disk (joinPath directory path) with
  | file found =>
    constructor
    · rintro ⟨⟩
      exact ⟨rfl, found, rfl⟩
    · rintro ⟨rfl, -⟩
      rfl
  | directory =>
    constructor
    · intro h
      cases h
    · rintro ⟨-, bytes, h⟩
      cases h
  | failure reason =>
    constructor
    · intro h
      cases h
    · rintro ⟨-, bytes, h⟩
      cases h

variable {origin : String} {archive : Archive}

theorem readEntry_iff {bytes : Bytes} : readEntry origin archive path = .ok bytes ↔
    ∃ entry, archive.find? path = some entry ∧ entry.content = .ok bytes := by
  unfold readEntry
  cases archive.find? path with
  | none => simp
  | some entry => cases content : entry.content <;> simp [content]

/-- The name of the entry for a path of the package. -/
abbrev entryFor (inner : Option String) (path : String) : String :=
  inner.elim path (· ++ "/" ++ path)

variable {inner : Option String}

theorem read_ofArchive_iff {bytes : Bytes} :
    ((ofArchive (m := Id) origin archive inner).read path).run = .ok bytes ↔
      staysInside path = true ∧
        ∃ entry, archive.find? (entryFor inner path) = some entry ∧ entry.content = .ok bytes := by
  refine (run_checkInside_bind _ _).trans (and_congr_right fun _ => ?_)
  exact readEntry_iff

theorem binary_ofArchive_iff {c : Content} :
    ((ofArchive (m := Id) origin archive inner).binary path).run = .ok c ↔
      ∃ bytes, ((ofArchive (m := Id) origin archive inner).read path).run = .ok bytes ∧
        c = .bytes bytes := by
  change (Content.bytes <$> (ofArchive (m := Id) origin archive inner).read path).run = .ok c ↔ _
  rw [ExceptT.run_map]
  cases ((ofArchive (m := Id) origin archive inner).read path).run with
  | error e => exact ⟨nofun, nofun⟩
  | ok bytes =>
    constructor
    · rintro ⟨⟩
      exact ⟨bytes, rfl, rfl⟩
    · rintro ⟨_, ⟨⟩, rfl⟩
      rfl

/-- An archive is read from where its manifest is found. -/
theorem loadPackage_archive {bytes : Bytes} (found : disk origin = .file bytes)
    (packed : Archive.ofBytes? bytes = some archive)
    (place : packageDirectory? (archive.map (·.name)) = some inner) :
    (loadPackage (m := Id) disk origin).run = (ofArchive origin archive inner).load.run := by
  have opened : ofPath (m := Id) disk origin = pure (.ofArchive origin archive inner) := by
    unfold ofPath
    rw [found]
    refine (pure_bind (FileView.file bytes) _).trans ?_
    dsimp only
    rw [packed]
    dsimp only
    rw [place]
  unfold loadPackage
  rw [opened]
  rfl

end PackageSource

/-! ## Directories and archives -/

namespace FileTree

/-- Loads the package at a path while nothing writes to the disk. -/
def load (t : FileTree) (path : String) : Except DepositError (List Resource) :=
  (loadPackage (m := Id) t.view path).run

/-- A path whose segments all name something that a directory can hold. -/
structure IsPlainName (name : String) : Prop where
  segments : ∀ s ∈ segments name, IsName s ∧ s.utf8ByteSize ≤ maxName
  noNul : '\x00' ∉ name.toList

/-- A directory, whose node is at `base`, holds some files, with the directories on the way to
them, and no other file. -/
structure Holds (t : FileTree) (directory : String) (base : List String)
    (files : List (String × Bytes)) : Prop where
  view : t.view directory = .directory
  resolve : t.resolve [] (segments directory) = .ok (base, .directory)
  file_iff : ∀ names bytes, names ≠ [] → (t.get? (base ++ names) = some (.file bytes) ↔
    ∃ name, (name, bytes) ∈ files ∧ segments name = names)
  way : ∀ f ∈ files, ∀ front rest, segments f.1 = front ++ rest → front ≠ [] → rest ≠ [] →
    t.get? (base ++ front) = some .directory

/-- A file is an archive that has an entry for each of some files and no other entry. -/
structure Packs (t : FileTree) (archive : String) (files : List (String × Bytes)) : Prop where
  packed : ∃ bytes, t.view archive = .file bytes ∧
    Archive.ofBytes? bytes = some (files.map fun f => ⟨f.1, .ok f.2⟩)

/-- The same files, at plain names and with a manifest, are kept in a directory and in an
archive. -/
structure KeepsBoth (t : FileTree) (directory : String) (base : List String) (archive : String)
    (files : List (String × Bytes)) : Prop where
  plain : ∀ f ∈ files, IsPlainName f.1
  manifest : manifestName ∈ files.map (·.1)
  holds : Holds t directory base files
  packs : Packs t archive files

theorem segments_ne_nil (path : String) : segments path ≠ [] := by
  simp [segments]

/-- A joined path is the directory and the path, with a slash between them. -/
theorem toList_joinPath (directory path : String) : ∃ slash, slash ⊆ ['/'] ∧
    (joinPath directory path).toList = directory.toList ++ slash ++ path.toList := by
  unfold joinPath
  split
  · exact ⟨[], by simp, by simp⟩
  · exact ⟨['/'], by simp, by simp⟩

/-- What is seen of the node that segments lead to. -/
def viewOf : Except String (List String × FileNode) → FileView
  | .ok (_, .file bytes) => .file bytes
  | .ok (_, .directory) => .directory
  | .error reason => .failure reason

/-- A path that can be asked for is followed from the root. -/
theorem view_eq {t : FileTree} {path : String} (nonempty : path ≠ "")
    (noNul : '\x00' ∉ path.toList) : t.view path = viewOf (t.resolve [] (segments path)) := by
  have nonempty' : ¬ path.isEmpty = true := fun empty => nonempty (String.isEmpty_iff.mp empty)
  have noNul' : ¬ path.toList.contains '\x00' = true := fun nul =>
    noNul (List.contains_iff_mem.mp nul)
  exact (if_neg nonempty').trans (if_neg noNul')

/-- A path that leads somewhere can be asked for. -/
theorem of_view {t : FileTree} {path : String} {v : FileView} (found : t.view path = v)
    (opens : ∀ reason, v ≠ .failure reason) : path ≠ "" ∧ '\x00' ∉ path.toList := by
  unfold view at found
  split at found
  · exact absurd found.symm (opens _)
  · case isFalse nonempty =>
    split at found
    · exact absurd found.symm (opens _)
    · case isFalse noNul =>
      exact ⟨fun empty => nonempty (String.isEmpty_iff.mpr empty), fun nul =>
        noNul (List.contains_iff_mem.mpr nul)⟩

section Holding

variable {t : FileTree} {directory : String} {base : List String} {files : List (String × Bytes)}

/-- What a path below a directory leads to. -/
theorem view_joinPath (holds : Holds t directory base files) {path : String}
    (noNul : '\x00' ∉ path.toList) :
    t.view (joinPath directory path) = viewOf (t.resolve base (segments path)) := by
  obtain ⟨slash, only, text⟩ := toList_joinPath directory path
  obtain ⟨nonempty, noNul'⟩ := of_view holds.view nofun
  rw [view_eq, resolve_joinPath holds.resolve]
  · intro empty
    rw [empty] at text
    have : directory.toList = [] := by
      simpa using (List.append_eq_nil_iff.mp (List.append_eq_nil_iff.mp text.symm).1).1
    exact nonempty (String.toList_eq_nil_iff.mp this)
  · rw [text, List.mem_append, List.mem_append]
    rintro ((mem | mem) | mem)
    · exact noNul' mem
    · exact absurd (only mem) (by decide)
    · exact noNul mem

/-- A file that is held is found at its name. -/
theorem view_of_mem (holds : Holds t directory base files) {name : String} {bytes : Bytes}
    (plain : IsPlainName name) (mem : (name, bytes) ∈ files) :
    t.view (joinPath directory name) = .file bytes := by
  have here : t.IsDirectory base := by
    rcases node_of_resolve holds.resolve with ⟨root, -⟩ | node
    · exact .inl root
    · exact .inr node
  have nonempty := segments_ne_nil name
  have there : t.get? (base ++ segments name) = some (.file bytes) :=
    (holds.file_iff _ _ nonempty).mpr ⟨name, mem, rfl⟩
  rw [view_joinPath holds plain.noNul,
    resolve_of_get? here plain.segments nonempty (holds.way _ mem) there]
  rfl

/-- What is found at a path that is spelled as names are is a file that is held. -/
theorem mem_of_view (holds : Holds t directory base files) {path : String} {bytes : Bytes}
    (inside : staysInside path = true) (spelled : ∀ s ∈ segments path, s ≠ "" ∧ s ≠ ".")
    (found : t.view (joinPath directory path) = .file bytes) : (path, bytes) ∈ files := by
  have noNul : '\x00' ∉ path.toList := by
    obtain ⟨slash, -, text⟩ := toList_joinPath directory path
    obtain ⟨-, noNul⟩ := of_view found nofun
    rw [text, List.mem_append] at noNul
    exact fun mem => noNul (.inr mem)
  have names : ∀ s ∈ segments path, IsName s := by
    intro s mem
    refine ⟨(spelled s mem).1, (spelled s mem).2, ?_⟩
    rintro rfl
    simp [staysInside, mem] at inside
  rw [view_joinPath holds noNul] at found
  cases resolved : t.resolve base (segments path) with
  | error reason =>
    rw [resolved] at found
    cases found
  | ok node =>
    obtain ⟨position, node⟩ := node
    rw [resolved] at found
    cases node with
    | directory => cases found
    | file bytes' =>
      cases found
      have there := get?_of_resolve names (segments_ne_nil path) resolved
      obtain ⟨name, mem, same⟩ := (holds.file_iff _ _ (segments_ne_nil path)).mp there
      rwa [← segments_injective same]

end Holding

/-- Files that are kept under one name are the same. -/
theorem Holds.bytes_unique {t : FileTree} {directory : String} {base : List String}
    {files : List (String × Bytes)} (holds : Holds t directory base files) {name : String}
    {bytes bytes' : Bytes} (mem : (name, bytes) ∈ files) (mem' : (name, bytes') ∈ files) :
    bytes = bytes' := by
  have there := (holds.file_iff _ _ (segments_ne_nil name)).mpr ⟨name, mem, rfl⟩
  have there' := (holds.file_iff _ _ (segments_ne_nil name)).mpr ⟨name, mem', rfl⟩
  rw [there] at there'
  cases there'
  rfl

end FileTree

/-- Two contents that are read as the same bytes. -/
def SameBytes (disk : Files) (c c' : Content) : Prop :=
  ∃ bytes, c.read disk = .ok bytes ∧ c'.read disk = .ok bytes

theorem SameBytes.symm {disk : Files} {c c' : Content} (h : SameBytes disk c c') :
    SameBytes disk c' c := by
  obtain ⟨bytes, read, read'⟩ := h
  exact ⟨bytes, read', read⟩

/-- A file on the disk has the bytes that are found there. -/
theorem SameBytes.of_view {disk : Files} {path : String} {bytes : Bytes}
    (h : disk path = .file bytes) : SameBytes disk (.file path) (.bytes bytes) := by
  refine ⟨bytes, ?_, rfl⟩
  simp only [Content.read, Content.open?, Content.view, h]
  rfl

namespace FileTree

section Both

variable {t : FileTree} {directory archive : String} {base : List String}
variable {files : List (String × Bytes)}

/-- The entry of a name is the file of that name. -/
theorem find?_iff_mem (holds : Holds t directory base files) {path : String} {bytes : Bytes} :
    (∃ entry, Archive.find? (files.map fun f => ⟨f.1, .ok f.2⟩) path = some entry ∧
      entry.content = .ok bytes) ↔ (path, bytes) ∈ files := by
  constructor
  · rintro ⟨entry, found, content⟩
    have listed := List.mem_reverse.mp (List.mem_of_find?_eq_some found)
    obtain ⟨⟨name, bytes'⟩, mem, rfl⟩ := List.mem_map.mp listed
    have same : name = path := by simpa using List.find?_some found
    cases content
    rwa [← same]
  · intro mem
    have isSome : (Archive.find? (files.map fun f => ⟨f.1, .ok f.2⟩) path).isSome := by
      rw [Archive.find?, List.find?_isSome]
      exact ⟨⟨path, .ok bytes⟩, List.mem_reverse.mpr (List.mem_map.mpr ⟨_, mem, rfl⟩), by simp⟩
    obtain ⟨entry, found⟩ := Option.isSome_iff_exists.mp isSome
    refine ⟨entry, found, ?_⟩
    have listed := List.mem_reverse.mp (List.mem_of_find?_eq_some found)
    obtain ⟨⟨name, bytes'⟩, mem', rfl⟩ := List.mem_map.mp listed
    have same : name = path := by simpa using List.find?_some found
    subst same
    exact congrArg Except.ok (holds.bytes_unique mem' mem)

/-- **The directory serves what the archive serves.** -/
theorem servesLike_directory (both : KeepsBoth t directory base archive files)
    (paths : List String) : ServesLike (SameBytes t.view) paths
      (.ofArchive archive (files.map fun f => ⟨f.1, .ok f.2⟩) none)
      (.ofDirectory t.view directory) := by
  have found : ∀ path bytes, ((PackageSource.ofArchive (m := Id) archive
      (files.map fun f => ⟨f.1, .ok f.2⟩) none).read path).run = .ok bytes →
      staysInside path = true ∧ t.view (joinPath directory path) = .file bytes := by
    intro path bytes done
    obtain ⟨inside, entry⟩ := PackageSource.read_ofArchive_iff.mp done
    have mem := (find?_iff_mem both.holds).mp entry
    exact ⟨inside, view_of_mem both.holds (both.plain _ mem) mem⟩
  refine ⟨fun path _ bytes done => ?_, fun path _ c done => ?_⟩
  · exact ⟨bytes, PackageSource.read_ofDirectory_iff.mpr (found path bytes done), rfl⟩
  · obtain ⟨bytes, read, rfl⟩ := PackageSource.binary_ofArchive_iff.mp done
    obtain ⟨inside, view⟩ := found path bytes read
    exact ⟨_, PackageSource.binary_ofDirectory_iff.mpr ⟨inside, rfl, bytes, view⟩,
      (SameBytes.of_view view).symm⟩

/-- **The archive serves what the directory serves**, at paths that are spelled as names are. -/
theorem servesLike_archive (both : KeepsBoth t directory base archive files)
    {paths : List String} (spelled : ∀ path ∈ paths, ∀ s ∈ segments path, s ≠ "" ∧ s ≠ ".") :
    ServesLike (SameBytes t.view) paths (.ofDirectory t.view directory)
      (.ofArchive archive (files.map fun f => ⟨f.1, .ok f.2⟩) none) := by
  have read : ∀ path ∈ paths, ∀ bytes, staysInside path = true →
      t.view (joinPath directory path) = .file bytes →
      ((PackageSource.ofArchive (m := Id) archive
        (files.map fun f => ⟨f.1, .ok f.2⟩) none).read path).run = .ok bytes := by
    intro path named bytes inside view
    have mem := mem_of_view both.holds inside (spelled path named) view
    exact PackageSource.read_ofArchive_iff.mpr ⟨inside, (find?_iff_mem both.holds).mpr mem⟩
  refine ⟨fun path named bytes done => ?_, fun path named c done => ?_⟩
  · obtain ⟨inside, view⟩ := PackageSource.read_ofDirectory_iff.mp done
    exact ⟨bytes, read path named bytes inside view, rfl⟩
  · obtain ⟨inside, rfl, bytes, view⟩ := PackageSource.binary_ofDirectory_iff.mp done
    exact ⟨.bytes bytes, PackageSource.binary_ofArchive_iff.mpr
      ⟨bytes, read path named bytes inside view, rfl⟩, .of_view view⟩

/-- A directory is opened as such. -/
theorem load_directory (holds : Holds t directory base files) :
    t.load directory = (PackageSource.ofDirectory t.view directory).load.run := by
  have opened : PackageSource.ofPath (m := Id) t.view directory =
      pure (.ofDirectory t.view directory) := by
    unfold PackageSource.ofPath
    rw [holds.view]
    rfl
  unfold load loadPackage
  rw [opened]
  rfl

/-- An archive with a manifest at its root is read from there. -/
theorem load_archive (packs : Packs t archive files) (manifest : manifestName ∈ files.map (·.1)) :
    t.load archive = (PackageSource.ofArchive archive
      (files.map fun f => ⟨f.1, .ok f.2⟩) none).load.run := by
  obtain ⟨bytes, view, packed⟩ := packs.packed
  refine PackageSource.loadPackage_archive view packed ?_
  rw [List.map_map]
  exact if_pos (List.contains_iff_mem.mpr manifest)

/-- **Directories and archives of the same files load alike.** What loads from the archive loads
from the directory, with the same resources except for where the bytes of the binaries are, and what
loads from the directory loads from the archive, if the manifest spells its paths as names are
spelled: no segment of them is empty or a dot. -/
theorem load_alike (both : KeepsBoth t directory base archive files) :
    (∀ tree', t.load archive = .ok tree' → ∃ tree, t.load directory = .ok tree ∧
      Resource.AllAlike (SameBytes t.view) tree tree') ∧
    ((∀ bytes manifest, (manifestName, bytes) ∈ files → Manifest.ofBytes? bytes = some manifest →
        ∀ path ∈ ManifestNode.allPaths manifest.resources, ∀ s ∈ segments path, s ≠ "" ∧ s ≠ ".") →
      ∀ tree, t.load directory = .ok tree → ∃ tree', t.load archive = .ok tree' ∧
        Resource.AllAlike (SameBytes t.view) tree tree') := by
  have plainManifest : ∀ path ∈ [manifestName], ∀ s ∈ segments path, s ≠ "" ∧ s ≠ "." := by
    decide
  rw [load_directory both.holds, load_archive both.packs both.manifest]
  constructor
  · intro tree' done
    obtain ⟨tree, done', alike⟩ := carries_load
      ((servesLike_directory both [manifestName]).read _ (List.mem_singleton.mpr rfl))
      (fun _ _ _ _ => servesLike_directory both _) tree' done
    exact ⟨tree, done', alike.symm fun _ _ => SameBytes.symm⟩
  · intro spelled
    refine carries_load ((servesLike_archive both plainManifest).read _ (List.mem_singleton.mpr rfl))
      fun bytes manifest read parsed => servesLike_archive both ?_
    obtain ⟨inside, view⟩ := PackageSource.read_ofDirectory_iff.mp read
    have mem := mem_of_view both.holds inside (plainManifest _ (List.mem_singleton.mpr rfl)) view
    exact spelled bytes manifest mem parsed

end Both

/-! ## A package with one file -/

/-- A disk that keeps a manifest and a file `a` in a directory and in an archive. -/
def twoForms (manifest a : Bytes) : FileTree :=
  (((Table.empty.insert ["pkg"] .directory).insert ["pkg", "a"] (.file a)).insert
    ["pkg", manifestName] (.file manifest)).insert ["pkg.zip"]
      (.file (Archive.toBytes [("a", a), (manifestName, manifest)]))

theorem keepsBoth_twoForms {manifest a : Bytes}
    (packed : Archive.ofBytes? (Archive.toBytes [("a", a), (manifestName, manifest)]) =
      some [⟨"a", .ok a⟩, ⟨manifestName, .ok manifest⟩]) :
    KeepsBoth (twoForms manifest a) "pkg" ["pkg"] "pkg.zip"
      [("a", a), (manifestName, manifest)] := by
  have single : ∀ name ∈ ["a", manifestName], segments name = [name] := by decide
  have names : ∀ f ∈ [("a", a), (manifestName, manifest)], f.1 ∈ ["a", manifestName] :=
    fun f mem => List.mem_map_of_mem mem
  have plain : ∀ name ∈ ["a", manifestName], (∀ s ∈ segments name,
      (s ≠ "" ∧ s ≠ "." ∧ s ≠ "..") ∧ s.utf8ByteSize ≤ maxName) ∧ '\x00' ∉ name.toList := by
    decide +kernel
  refine ⟨fun f mem => ?_, by simp, ⟨rfl, rfl, ?_, ?_⟩, ⟨_, rfl, packed⟩⟩
  · obtain ⟨segments, noNul⟩ := plain f.1 (names f mem)
    refine ⟨fun s mem => ?_, noNul⟩
    obtain ⟨⟨nonempty, notHere, notUp⟩, short⟩ := segments s mem
    exact ⟨⟨nonempty, notHere, notUp⟩, short⟩
  · intro found bytes nonempty
    have ne : ["a"] ≠ [manifestName] := by decide
    have get? : (twoForms manifest a).get? (["pkg"] ++ found) =
        if found = [manifestName] then some (.file manifest)
        else if found = ["a"] then some (.file a) else none := by
      simp [twoForms, Table.get?_insert, nonempty]
    rw [get?]
    constructor
    · intro there
      split at there
      · case isTrue same =>
        cases there
        exact ⟨manifestName, by simp, by rw [same, single _ (by simp)]⟩
      · split at there
        · case isTrue same =>
          cases there
          exact ⟨"a", by simp, by rw [same, single _ (by simp)]⟩
        · cases there
    · rintro ⟨name, mem, rfl⟩
      rw [single name (names _ mem)]
      rcases List.mem_cons.mp mem with first | others
      · cases first
        rw [if_neg ne, if_pos rfl]
      · cases List.mem_singleton.mp others
        rw [if_pos rfl]
  · intro f mem front rest cut some_front some_rest
    have length := congrArg List.length cut
    rw [single _ (names f mem), List.length_append, List.length_singleton] at length
    have := List.length_pos_of_ne_nil some_front
    have := List.length_pos_of_ne_nil some_rest
    omega

/-- A manifest of one resource, whose fields are given without their names. -/
def shortManifest (fields : String) : Bytes := Text.toUtf8 ("[[[" ++ fields ++ "]]]")

/-- A binary in a file. -/
def binaryManifest : Bytes := shortManifest "\"b\",\"non-rdf-source\",null,\"a\""

/-- A graph in a file whose path begins with a dot. -/
def dottedManifest : Bytes := shortManifest "\"g\",\"rdf-source\",\"./a\""

theorem load_alike_binary :
    KeepsBoth (twoForms binaryManifest [1]) "pkg" ["pkg"] "pkg.zip"
      [("a", [1]), (manifestName, binaryManifest)] ∧
    ∃ tree tree', (twoForms binaryManifest [1]).load "pkg" = .ok tree ∧
      (twoForms binaryManifest [1]).load "pkg.zip" = .ok tree' ∧
      Resource.AllAlike (SameBytes (twoForms binaryManifest [1]).view) tree tree' := by
  have both : KeepsBoth (twoForms binaryManifest [1]) "pkg" ["pkg"] "pkg.zip"
      [("a", [1]), (manifestName, binaryManifest)] := keepsBoth_twoForms (by decide +kernel)
  have loads : ((twoForms binaryManifest [1]).load "pkg").isOk = true := by decide +kernel
  have spelled : ((Manifest.ofBytes? binaryManifest).all fun manifest =>
      (ManifestNode.allPaths manifest.resources).all fun path =>
        (segments path).all fun s => s ≠ "" ∧ s ≠ ".") = true := by decide +kernel
  cases done : (twoForms binaryManifest [1]).load "pkg" with
  | error e =>
    rw [done] at loads
    cases loads
  | ok tree =>
    obtain ⟨tree', done', alike⟩ := (load_alike both).2 (fun bytes manifest mem parsed => by
      have same : bytes = binaryManifest := by simpa [manifestName] using mem
      rw [same] at parsed
      simpa [parsed] using spelled) tree done
    exact ⟨both, tree, tree', rfl, done', alike⟩

/-- **A path with a dot in front loads from the directory only**, though such a path is one that
stays inside the package. -/
theorem loads_only_directory :
    KeepsBoth (twoForms dottedManifest (Text.toUtf8 "[]")) "pkg" ["pkg"] "pkg.zip"
      [("a", Text.toUtf8 "[]"), (manifestName, dottedManifest)] ∧
    staysInside "./a" = true ∧
    ((twoForms dottedManifest (Text.toUtf8 "[]")).load "pkg").isOk = true ∧
    ((twoForms dottedManifest (Text.toUtf8 "[]")).load "pkg.zip").isOk = false :=
  ⟨keepsBoth_twoForms (by decide +kernel), by decide +kernel, by decide +kernel, by decide +kernel⟩

end FileTree

end LinkedDeposit
