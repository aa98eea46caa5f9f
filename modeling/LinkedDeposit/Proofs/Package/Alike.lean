import LinkedDeposit.Package.Tree
import LinkedDeposit.Proofs.Package.Resolution

/-!
# The same package from two sources

Where two sources serve the paths of a manifest alike, the trees built from them differ at most in
where the bytes of the binaries are (`Resource.Alike`). This goes one way: `Carries` says that a
load which succeeds on the first source succeeds on the second one.

Results:
* `follows_toResources`: the resources of a manifest, by recursion on its nodes.
* `carries_load`: the package as a whole.
-/

namespace LinkedDeposit

namespace Resource

mutual

/-- Resources that differ at most in where the bytes of their binaries are. -/
inductive Alike (same : Content → Content → Prop) : Resource → Resource → Prop where
  | container {id : String} {g : Graph} {children children' : List Resource}
      (below : AllAlike same children children') :
      Alike same (.container id g children) (.container id g children')
  | rdfSource (id : String) (g : Graph) : Alike same (.rdfSource id g) (.rdfSource id g)
  | binary {id mediaType : String} {c c' : Content} {d : Option Description}
      (content : same c c') :
      Alike same (.binary id ⟨mediaType, c⟩ d) (.binary id ⟨mediaType, c'⟩ d)

inductive AllAlike (same : Content → Content → Prop) : List Resource → List Resource → Prop where
  | nil : AllAlike same [] []
  | cons {r r' : Resource} {rest rest' : List Resource} (first : Alike same r r')
      (others : AllAlike same rest rest') : AllAlike same (r :: rest) (r' :: rest')

end

end Resource

/-! ## The paths of a manifest -/

/-- The file that a graph is read from. -/
def GraphSource.path? : GraphSource → Option String
  | .file path => some path
  | .inline _ => none

namespace ManifestNode

mutual

/-- The paths that a node names, those of its description and its children included. -/
def paths : ManifestNode → List String
  | mk _ _ graph file _ description children =>
    (graph.bind GraphSource.path?).toList ++ file.toList ++ descriptionPaths description ++
      allPaths children

def descriptionPaths : Option ManifestNode → List String
  | none => []
  | some d => d.paths

def allPaths : List ManifestNode → List String
  | [] => []
  | n :: rest => n.paths ++ allPaths rest

end

section Subsets

variable (n : ManifestNode)

theorem graph_subset_paths : (n.graph.bind GraphSource.path?).toList ⊆ n.paths := by
  intro path h
  cases n
  simp only [graph, paths, List.mem_append] at h ⊢
  exact .inl (.inl (.inl h))

theorem file_subset_paths : n.file.toList ⊆ n.paths := by
  intro path h
  cases n
  simp only [file, paths, List.mem_append] at h ⊢
  exact .inl (.inl (.inr h))

theorem description_subset_paths : descriptionPaths n.description ⊆ n.paths := by
  intro path h
  cases n
  simp only [description, paths, List.mem_append] at h ⊢
  exact .inl (.inr h)

theorem children_subset_paths : allPaths n.children ⊆ n.paths := by
  intro path h
  cases n
  simp only [children, paths, List.mem_append] at h ⊢
  exact .inr h

end Subsets

end ManifestNode

/-! ## Loading from two sources -/

section Following

variable {α β γ δ : Type} {R : α → β → Prop} {S : γ → δ → Prop}

/-- Whenever the first load succeeds, the second one does, with a related outcome. -/
def Carries (R : α → β → Prop) (load : ExceptT DepositError Id α)
    (load' : ExceptT DepositError Id β) : Prop :=
  ∀ a, load.run = .ok a → ∃ b, load'.run = .ok b ∧ R a b

theorem Carries.pure {a : α} {b : β} (h : R a b) : Carries R (Pure.pure a) (Pure.pure b) := by
  intro a' done
  cases done
  exact ⟨b, rfl, h⟩

theorem Carries.refl (load : ExceptT DepositError Id α) : Carries Eq load load :=
  fun a done => ⟨a, done, rfl⟩

theorem Carries.throw (e : DepositError) (load' : ExceptT DepositError Id β) :
    Carries R (throw e) load' := fun _ done => by cases done

theorem Carries.bind {load : ExceptT DepositError Id α} {load' : ExceptT DepositError Id β}
    {next : α → ExceptT DepositError Id γ} {next' : β → ExceptT DepositError Id δ}
    (first : Carries R load load') (rest : ∀ a b, R a b → Carries S (next a) (next' b)) :
    Carries S (load >>= next) (load' >>= next') := by
  intro c done
  rw [ExceptT.run_bind] at done ⊢
  cases h : load.run with
  | error e =>
    rw [h] at done
    cases done
  | ok a =>
    obtain ⟨b, h', related⟩ := first a h
    rw [h] at done
    rw [h']
    exact rest a b related c done

/-- What the first load gives may be used. -/
theorem Carries.noted {load : ExceptT DepositError Id α} {load' : ExceptT DepositError Id β}
    (h : Carries R load load') :
    Carries (fun a b => load.run = .ok a ∧ R a b) load load' := by
  intro a done
  obtain ⟨b, done', related⟩ := h a done
  exact ⟨b, done', done, related⟩

/-- A check that both loads make. -/
theorem Carries.guard {c : Prop} [Decidable c] {e : DepositError}
    {next : PUnit → ExceptT DepositError Id α} {next' : PUnit → ExceptT DepositError Id β}
    (h : Carries R (next ⟨⟩) (next' ⟨⟩)) :
    Carries R (if c then MonadExcept.throw e >>= next else next ⟨⟩)
      (if c then MonadExcept.throw e >>= next' else next' ⟨⟩) := by
  split
  · exact (Carries.refl _).bind fun _ _ _ => h
  · exact h

/-- The same for loads that note ids: the second one notes the same ids. -/
def Follows (R : α → β → Prop) (load : StateT SeenIds (ExceptT DepositError Id) α)
    (load' : StateT SeenIds (ExceptT DepositError Id) β) : Prop :=
  ∀ seen, Carries (fun p q => R p.1 q.1 ∧ p.2 = q.2) (load.run seen) (load'.run seen)

theorem Follows.pure {a : α} {b : β} (h : R a b) : Follows R (Pure.pure a) (Pure.pure b) :=
  fun _ => .pure ⟨h, rfl⟩

theorem Follows.refl (load : StateT SeenIds (ExceptT DepositError Id) α) : Follows Eq load load :=
  fun _ p done => ⟨p, done, rfl, rfl⟩

theorem Follows.lift {load : ExceptT DepositError Id α} {load' : ExceptT DepositError Id β}
    (h : Carries R load load') :
    Follows R (liftM load : StateT SeenIds (ExceptT DepositError Id) α) (liftM load') :=
  fun _ => h.bind fun _ _ related => .pure ⟨related, rfl⟩

theorem Follows.bind {load : StateT SeenIds (ExceptT DepositError Id) α}
    {load' : StateT SeenIds (ExceptT DepositError Id) β}
    {next : α → StateT SeenIds (ExceptT DepositError Id) γ}
    {next' : β → StateT SeenIds (ExceptT DepositError Id) δ} (first : Follows R load load')
    (rest : ∀ a b, R a b → Follows S (next a) (next' b)) :
    Follows S (load >>= next) (load' >>= next') := by
  intro seen
  rw [StateT.run_bind, StateT.run_bind]
  refine (first seen).bind ?_
  rintro ⟨a, s⟩ ⟨b, s'⟩ ⟨related, same⟩
  obtain rfl : s = s' := same
  exact rest a b related s

end Following

/-- One source serves some paths as another one does: what is read from the first is read from the
second, and binaries are the same. -/
structure ServesLike (same : Content → Content → Prop) (paths : List String)
    (source source' : PackageSource Id) : Prop where
  read : ∀ path ∈ paths, Carries Eq (source.read path) (source'.read path)
  binary : ∀ path ∈ paths, Carries same (source.binary path) (source'.binary path)

section Sources

variable {same : Content → Content → Prop} {source source' : PackageSource Id}

theorem ServesLike.mono {paths fewer : List String} (h : ServesLike same paths source source')
    (sub : fewer ⊆ paths) : ServesLike same fewer source source' :=
  ⟨fun path hp => h.read path (sub hp), fun path hp => h.binary path (sub hp)⟩

theorem carries_loadGraph {graph : Option GraphSource}
    (like : ServesLike same (graph.bind GraphSource.path?).toList source source') :
    Carries Eq (loadGraph source graph) (loadGraph source' graph) := by
  match graph with
  | none => exact .pure rfl
  | some (.inline doc) => exact .refl _
  | some (.file path) =>
    refine (like.read path (by simp [GraphSource.path?])).bind ?_
    rintro bytes _ rfl
    exact .refl _

theorem carries_loadRdfSource {n : ManifestNode} (like : ServesLike same n.paths source source') :
    Carries Eq (n.loadRdfSource source) (n.loadRdfSource source') := by
  have graph : Carries Eq (loadGraph source n.graph) (loadGraph source' n.graph) :=
    carries_loadGraph (like.mono n.graph_subset_paths)
  unfold ManifestNode.loadRdfSource
  exact (Carries.refl _).bind fun _ _ _ => Carries.guard graph

theorem follows_loadDescription {d : Option ManifestNode}
    (like : ServesLike same (ManifestNode.descriptionPaths d) source source') :
    Follows Eq (ManifestNode.loadDescription source d) (ManifestNode.loadDescription source' d) := by
  cases d with
  | none => exact .pure rfl
  | some d =>
    refine (Follows.refl _).bind fun _ _ _ => (Follows.lift (carries_loadRdfSource like)).bind ?_
    rintro g _ rfl
    exact .pure rfl

/-- Binaries of one media type and of contents that are the same. -/
def Binary.Alike (same : Content → Content → Prop) (b b' : Binary) : Prop :=
  b.mediaType = b'.mediaType ∧ same b.content b'.content

theorem carries_loadBinary {n : ManifestNode}
    (like : ServesLike same n.file.toList source source') :
    Carries (Binary.Alike same) (n.loadBinary source) (n.loadBinary source') := by
  unfold ManifestNode.loadBinary
  refine Carries.guard ?_
  split
  · exact .throw _ _
  · split
    · exact .throw _ _
    · case h_2 file named =>
      exact (like.binary file (by simp [named])).bind fun c c' content => .pure ⟨rfl, content⟩

mutual

/-- **The same node is built** from a source that serves its paths alike. -/
theorem follows_toResource {n : ManifestNode} (like : ServesLike same n.paths source source') :
    Follows (Resource.Alike same) (n.toResource source) (n.toResource source') := by
  obtain ⟨id, kind, graph, file, mediaType, description, children⟩ := n
  unfold ManifestNode.toResource
  refine (Follows.refl _).bind fun _ _ _ => ?_
  cases kind with
  | container =>
    have graph := carries_loadGraph (like.mono (ManifestNode.graph_subset_paths _))
    have below := follows_toResources (like.mono (ManifestNode.children_subset_paths _))
    refine (Follows.refl _).bind fun _ _ _ => (Follows.lift graph).bind ?_
    rintro g _ rfl
    exact below.bind fun resources resources' below => .pure (.container below)
  | rdfSource =>
    refine (Follows.lift (carries_loadRdfSource like)).bind ?_
    rintro g _ rfl
    exact .pure (.rdfSource id g)
  | nonRdfSource =>
    have described := follows_loadDescription (like.mono (ManifestNode.description_subset_paths _))
    refine (Follows.lift (carries_loadBinary (like.mono (ManifestNode.file_subset_paths _)))).bind ?_
    rintro ⟨mediaType, c⟩ ⟨_, c'⟩ ⟨rfl, content⟩
    refine described.bind ?_
    rintro d _ rfl
    exact .pure (.binary content)

theorem follows_toResources {nodes : List ManifestNode}
    (like : ServesLike same (ManifestNode.allPaths nodes) source source') :
    Follows (Resource.AllAlike same) (ManifestNode.toResources source nodes)
      (ManifestNode.toResources source' nodes) := by
  cases nodes with
  | nil =>
    unfold ManifestNode.toResources
    exact .pure .nil
  | cons n rest =>
    unfold ManifestNode.toResources
    refine (follows_toResource (like.mono ?_)).bind fun r r' first =>
      (follows_toResources (like.mono ?_)).bind fun tree tree' others => .pure (.cons first others)
    · exact List.subset_append_left _ _
    · exact List.subset_append_right _ _

end

end Sources

namespace Resource

mutual

theorem Alike.symm {same : Content → Content → Prop} (comm : ∀ c c', same c c' → same c' c)
    {r r' : Resource} (h : Alike same r r') : Alike same r' r := by
  cases h with
  | container below => exact .container (below.symm comm)
  | rdfSource => exact .rdfSource _ _
  | binary content => exact .binary (comm _ _ content)

theorem AllAlike.symm {same : Content → Content → Prop} (comm : ∀ c c', same c c' → same c' c)
    {tree tree' : List Resource} (h : AllAlike same tree tree') : AllAlike same tree' tree := by
  cases h with
  | nil => exact .nil
  | cons first others => exact .cons (first.symm comm) (others.symm comm)

end

end Resource

/-! ## Loading a package -/

/-- The manifest in a file. -/
def Manifest.ofBytes? (bytes : Bytes) : Option Manifest :=
  (Json.partOfBytes? bytes).bind Manifest.ofPart?

/-- The tree of the package whose files a source serves. -/
def PackageSource.load (source : PackageSource Id) : ExceptT DepositError Id (List Resource) := do
  match Manifest.ofBytes? (← source.read manifestName) with
  | some manifest => manifest.toTree source
  | .none => throw .json

theorem carries_load {same : Content → Content → Prop} {source source' : PackageSource Id}
    (manifest : Carries Eq (source.read manifestName) (source'.read manifestName))
    (like : ∀ bytes manifest, (source.read manifestName).run = .ok bytes →
      Manifest.ofBytes? bytes = some manifest →
      ServesLike same (ManifestNode.allPaths manifest.resources) source source') :
    Carries (Resource.AllAlike same) source.load source'.load := by
  refine manifest.noted.bind ?_
  rintro bytes _ ⟨read, rfl⟩
  split
  · case h_1 manifest parsed =>
    have built := follows_toResources (like bytes manifest read parsed) []
    exact built.bind fun _ _ related => .pure related.1
  · exact .throw _ _

end LinkedDeposit
