import Mathlib.Data.List.Nodup
import LinkedDeposit.Proofs.Package.Forms
import LinkedDeposit.Proofs.Text.Cutting

/-!
# Archives of a directory

An archive may have been made inside the directory of a package or around it. In the second case the
name of every entry begins with the directory (`ArchiveEntry.below`), the manifest is no longer at
the root, and the reader takes the only top-level directory for the place of the package. This makes
no difference to what is loaded.

The order of the entries makes no difference either: an archive is what it holds under each name
(`Archive.SameEntries`).

Results:
* `packageDirectory?_below`: the directory is found.
* `read_below_iff`: the files are found below it.
* `loads_below_iff`: the package as a whole.
-/

namespace LinkedDeposit

/-! ## Entries by their names -/

namespace Archive

variable {a b : Archive} {name : String} {e : ArchiveEntry}

theorem mem_of_find? (found : a.find? name = some e) : e ∈ a ∧ e.name = name :=
  ⟨List.mem_reverse.mp (List.mem_of_find?_eq_some found), by simpa using List.find?_some found⟩

theorem exists_find?_of_mem (mem : e ∈ a) : ∃ e', a.find? e.name = some e' := by
  rw [← Option.isSome_iff_exists, find?, List.find?_isSome]
  exact ⟨e, List.mem_reverse.mpr mem, by simp⟩

/-- Where each name is used once, an entry is what is found under its name. -/
theorem find?_eq_some_iff (nodup : (a.map (·.name)).Nodup) :
    a.find? name = some e ↔ e ∈ a ∧ e.name = name := by
  refine ⟨mem_of_find?, ?_⟩
  rintro ⟨mem, rfl⟩
  obtain ⟨e', found⟩ := exists_find?_of_mem mem
  obtain ⟨mem', same⟩ := mem_of_find? found
  obtain rfl : e' = e := List.inj_on_of_nodup_map nodup mem' mem same
  exact found

/-- Archives that hold the same under every name. Of entries with one name the last counts. -/
def SameEntries (a b : Archive) : Prop := ∀ name, a.find? name = b.find? name

theorem SameEntries.symm (same : SameEntries a b) : SameEntries b a := fun name => (same name).symm

/-- The order of the entries does not matter where each name is used once. -/
theorem sameEntries_of_perm (perm : a.Perm b) (nodup : (a.map (·.name)).Nodup) :
    SameEntries a b := by
  have nodup' : (b.map (·.name)).Nodup := (perm.map _).nodup_iff.mp nodup
  intro name
  refine Option.ext fun e => ?_
  rw [find?_eq_some_iff nodup, find?_eq_some_iff nodup', perm.mem_iff]

/-- Archives that hold the same use the same names. -/
theorem SameEntries.mem_names (same : SameEntries a b) (mem : name ∈ a.map (·.name)) :
    name ∈ b.map (·.name) := by
  obtain ⟨e, he, rfl⟩ := List.mem_map.mp mem
  obtain ⟨e', found⟩ := exists_find?_of_mem he
  rw [same e.name] at found
  obtain ⟨he', name⟩ := mem_of_find? found
  exact List.mem_map.mpr ⟨e', he', name⟩

end Archive

/-! ## Entries below a directory -/

/-- The entry with its name put below a directory. -/
def ArchiveEntry.below (directory : String) (e : ArchiveEntry) : ArchiveEntry :=
  { e with name := directory ++ "/" ++ e.name }

section Below

variable {a b : Archive} {directory : String}

theorem below_injective (directory : String) :
    Function.Injective fun name : String => directory ++ "/" ++ name := by
  intro name name' same
  have texts := congrArg String.toList same
  exact String.toList_injective (by simpa using texts)

/-- An entry is found below the directory if it was found at the root. -/
theorem find?_below (a : Archive) (directory name : String) :
    Archive.find? (a.map (·.below directory)) (directory ++ "/" ++ name) =
      (a.find? name).map (·.below directory) := by
  unfold Archive.find?
  rw [← List.map_reverse, List.find?_map]
  congr 2
  funext e
  exact decide_eq_decide.mpr (below_injective directory).eq_iff

theorem topLevel_below (flat : '/' ∉ directory.toList) (name : String) :
    topLevel (directory ++ "/" ++ name) = directory := by
  have run : ∀ c ∈ directory.toList, (!decide (c = '/')) = true := by
    intro c hc
    have : c ≠ '/' := by
      rintro rfl
      exact flat hc
    simpa using this
  have text : (directory ++ "/" ++ name).toList = directory.toList ++ '/' :: name.toList := by simp
  unfold topLevel Text.cutBefore
  rw [text, Text.takeWhile_append_stop run (by simp), String.ofList_toList]

/-- **The directory is found**, if every name is below it and the manifest is right there. -/
theorem packageDirectory?_below {names : List String} (nonempty : directory ≠ "")
    (flat : '/' ∉ directory.toList) (all : ∀ name ∈ names, ∃ rest, name = directory ++ "/" ++ rest)
    (manifest : directory ++ "/" ++ manifestName ∈ names) :
    packageDirectory? names = some (some directory) := by
  have notAtRoot : ¬ names.contains manifestName = true := by
    rw [List.contains_iff_mem]
    intro atRoot
    obtain ⟨rest, name⟩ := all _ atRoot
    have slash : '/' ∈ manifestName.toList := by rw [name]; simp
    exact absurd slash (by decide)
  have top : ∀ d ∈ (names.map topLevel).filter (· ≠ ""), d = directory := by
    intro d hd
    obtain ⟨name, hname, rfl⟩ := List.mem_map.mp (List.mem_filter.mp hd).1
    obtain ⟨rest, rfl⟩ := all name hname
    exact topLevel_below flat rest
  have some_top : directory ∈ (names.map topLevel).filter (· ≠ "") := by
    refine List.mem_filter.mpr ⟨List.mem_map.mpr ⟨_, manifest, topLevel_below flat _⟩, ?_⟩
    simpa using nonempty
  unfold packageDirectory?
  rw [if_neg notAtRoot]
  cases tops : (names.map topLevel).filter (· ≠ "") with
  | nil =>
    rw [tops] at some_top
    cases some_top
  | cons d rest =>
    rw [tops] at top
    obtain ⟨rfl, others⟩ := List.forall_mem_cons.mp top
    have here : (rest.all (· = d) && names.contains (d ++ "/" ++ manifestName)) = true := by
      simpa [manifest] using others
    exact if_pos here

/-! ## Loading from below the directory -/

namespace PackageSource

variable {origin origin' path : String}

/-- **The files are found below the directory.** -/
theorem read_below_iff (moved : b.SameEntries (a.map (·.below directory))) {bytes : Bytes} :
    ((ofArchive (m := Id) origin' b (some directory)).read path).run = .ok bytes ↔
      ((ofArchive (m := Id) origin a .none).read path).run = .ok bytes := by
  rw [read_ofArchive_iff, read_ofArchive_iff]
  refine and_congr_right fun _ => ?_
  have found : b.find? (entryFor (some directory) path) =
      (a.find? (entryFor .none path)).map (·.below directory) :=
    (moved _).trans (find?_below a directory path)
  rw [found]
  constructor
  · rintro ⟨e', he', content⟩
    obtain ⟨e, he, rfl⟩ := Option.map_eq_some_iff.mp he'
    exact ⟨e, he, content⟩
  · rintro ⟨e, he, content⟩
    exact ⟨e.below directory, by rw [he]; rfl, content⟩

theorem binary_below_iff (moved : b.SameEntries (a.map (·.below directory))) {c : Content} :
    ((ofArchive (m := Id) origin' b (some directory)).binary path).run = .ok c ↔
      ((ofArchive (m := Id) origin a .none).binary path).run = .ok c := by
  rw [binary_ofArchive_iff, binary_ofArchive_iff]
  exact exists_congr fun _ => and_congr_left' (read_below_iff moved)

end PackageSource

/-- Sources that give the same serve alike. -/
theorem servesLike_of_iff {source source' : PackageSource Id} (paths : List String)
    (read : ∀ path bytes, (source.read path).run = .ok bytes → (source'.read path).run = .ok bytes)
    (binary : ∀ path c, (source.binary path).run = .ok c → (source'.binary path).run = .ok c) :
    ServesLike Eq paths source source' :=
  ⟨fun path _ bytes done => ⟨bytes, read path bytes done, rfl⟩,
    fun path _ c done => ⟨c, binary path c done, rfl⟩⟩

namespace Resource

mutual

theorem Alike.eq {r r' : Resource} (h : Alike Eq r r') : r = r' := by
  cases h with
  | container below => rw [below.eq]
  | rdfSource => rfl
  | binary content => rw [content]

theorem AllAlike.eq {tree tree' : List Resource} (h : AllAlike Eq tree tree') : tree = tree' := by
  cases h with
  | nil => rfl
  | cons first others => rw [first.eq, others.eq]

end

end Resource

/-- What loads from one source loads from another one that gives the same. -/
theorem load_of_serves {source source' : PackageSource Id}
    (read : ∀ path bytes, (source.read path).run = .ok bytes → (source'.read path).run = .ok bytes)
    (binary : ∀ path c, (source.binary path).run = .ok c → (source'.binary path).run = .ok c)
    {tree : List Resource} (done : source.load.run = .ok tree) : source'.load.run = .ok tree := by
  have serves := fun paths => servesLike_of_iff paths read binary
  obtain ⟨tree', done', alike⟩ := carries_load
    ((serves [manifestName]).read _ (List.mem_singleton.mpr rfl)) (fun _ _ _ _ => serves _) tree done
  rwa [alike.eq]

/-- **A top-level directory makes no difference.** An archive with a manifest at its root and an
archive that holds the same entries below a directory, in any order, load the same package: one
loads if and only if the other does, with the same tree. -/
theorem loads_below_iff {disk disk' : Files} {origin origin' : String} {packed packed' : Bytes}
    (found : disk origin = .file packed) (entries : Archive.ofBytes? packed = some a)
    (found' : disk' origin' = .file packed') (entries' : Archive.ofBytes? packed' = some b)
    (manifest : manifestName ∈ a.map (·.name)) (nonempty : directory ≠ "")
    (flat : '/' ∉ directory.toList) (moved : b.SameEntries (a.map (·.below directory)))
    (tree : List Resource) :
    (loadPackage (m := Id) disk origin).run = .ok tree ↔
      (loadPackage (m := Id) disk' origin').run = .ok tree := by
  have atRoot : packageDirectory? (a.map (·.name)) = some none :=
    if_pos (List.contains_iff_mem.mpr manifest)
  have below : packageDirectory? (b.map (·.name)) = some (some directory) := by
    refine packageDirectory?_below nonempty flat (fun name mem => ?_) (moved.symm.mem_names ?_)
    · obtain ⟨e', he', rfl⟩ := List.mem_map.mp (moved.mem_names mem)
      obtain ⟨e, -, rfl⟩ := List.mem_map.mp he'
      exact ⟨e.name, rfl⟩
    · obtain ⟨e, he, name⟩ := List.mem_map.mp manifest
      rw [← name, List.map_map]
      exact List.mem_map.mpr ⟨e, he, rfl⟩
  rw [PackageSource.loadPackage_archive found entries atRoot,
    PackageSource.loadPackage_archive found' entries' below]
  constructor
  · exact load_of_serves (fun _ _ => (PackageSource.read_below_iff moved).mpr)
      fun _ _ => (PackageSource.binary_below_iff moved).mpr
  · exact load_of_serves (fun _ _ => (PackageSource.read_below_iff moved).mp)
      fun _ _ => (PackageSource.binary_below_iff moved).mp

end Below

/-- A package with a graph in a directory and a binary. -/
def nestedFiles : List (String × Bytes) :=
  [("g/", []), ("g/a", Text.toUtf8 "[]"), ("b", [1]),
    (manifestName, FileTree.shortManifest
      "\"x\",\"rdf-source\",\"g/a\"],[\"y\",\"non-rdf-source\",null,\"b\"")]

/-- The same files below a directory, in the opposite order. -/
def nestedBelow : List (String × Bytes) := nestedFiles.reverse.map fun f => ("top/" ++ f.1, f.2)

/-- The entries of some files. -/
def entriesOf (files : List (String × Bytes)) : Archive := files.map fun f => ⟨f.1, .ok f.2⟩

theorem loads_below_iff_nested :
    let disk : Files := fun _ => .file (Archive.toBytes nestedFiles)
    let disk' : Files := fun _ => .file (Archive.toBytes nestedBelow)
    (entriesOf nestedBelow).SameEntries ((entriesOf nestedFiles).map (·.below "top")) ∧
    ∃ tree, (loadPackage (m := Id) disk "a.zip").run = .ok tree ∧
      (loadPackage (m := Id) disk' "a.zip").run = .ok tree := by
  intro disk disk'
  have moved : (entriesOf nestedBelow).SameEntries ((entriesOf nestedFiles).map (·.below "top")) := by
    refine Archive.sameEntries_of_perm ?_ (by decide +kernel)
    have same : entriesOf nestedBelow = ((entriesOf nestedFiles).map (·.below "top")).reverse := by
      decide +kernel
    rw [same]
    exact List.reverse_perm _
  have entries : Archive.ofBytes? (Archive.toBytes nestedFiles) = some (entriesOf nestedFiles) := by
    decide +kernel
  have entries' : Archive.ofBytes? (Archive.toBytes nestedBelow) = some (entriesOf nestedBelow) := by
    decide +kernel
  have loads : ((loadPackage (m := Id) disk "a.zip").run).isOk = true := by decide +kernel
  cases done : (loadPackage (m := Id) disk "a.zip").run with
  | error e =>
    rw [done] at loads
    cases loads
  | ok tree =>
    exact ⟨moved, tree, rfl, (loads_below_iff rfl entries rfl entries' (by decide +kernel)
      (by decide) (by decide) moved tree).mp done⟩

end LinkedDeposit
