import LinkedDeposit.Package.Manifest
import LinkedDeposit.Package.Source
import LinkedDeposit.Rdf.JsonLd

/-!
# From manifests to resource trees

`Manifest.toTree` builds the resources that a manifest lists, taking graphs and binaries from the
package's files. It holds every node to the rules of its kind:

* ids are distinct, those of descriptions included;
* a container has a graph at most, and children;
* an RDF source has a graph at most;
* a binary has a file, and at most a media type and a description, which is an RDF source.

The first broken rule in the order of the manifest is the one that is reported.
-/

namespace LinkedDeposit

variable {m : Type → Type} [Monad m]

/-- The ids met so far. -/
abbrev SeenIds := List String

/-- Notes an id, which must be new. -/
def noteId (id : String) : StateT SeenIds (ExceptT DepositError m) Unit := do
  if id ∈ (← get) then throw (.duplicateId id) else modify (id :: ·)

/-- Reads a JSON document of the package. -/
def readGraphFile (source : PackageSource m) (path : String) : ExceptT DepositError m Graph := do
  match Json.ofBytes? (← source.read path) with
  | some doc => liftM (JsonLd.toGraph doc)
  | none => throw .json

/-- The graph of a node; a node that names none has the empty graph. -/
def loadGraph (source : PackageSource m) : Option GraphSource → ExceptT DepositError m Graph
  | none => return Graph.empty
  | some (.inline doc) => liftM (JsonLd.toGraph doc)
  | some (.file path) => readGraphFile source path

namespace ManifestNode

/-- Whether the node has a field that only binaries have. -/
def hasBinaryField (n : ManifestNode) : Bool :=
  n.file.isSome || n.mediaType.isSome || n.description.isSome

/-- Refuses the fields of binaries. -/
def rejectBinaryFields (n : ManifestNode) : ExceptT DepositError m Unit :=
  if n.hasBinaryField then
    throw (.invalidPackage (n.kind.name ++ " " ++ n.id ++
      " cannot have file, media_type or description"))
  else pure ()

/-- Whether the node can describe a binary. -/
def isPlainRdfSource (n : ManifestNode) : Bool :=
  n.kind = .rdfSource && n.description.isNone && n.children.isEmpty

/-- The graph of an RDF source whose id has been noted. -/
def loadRdfSource (source : PackageSource m) (n : ManifestNode) : ExceptT DepositError m Graph := do
  n.rejectBinaryFields
  if !n.children.isEmpty then
    throw (.invalidPackage ("rdf-source " ++ n.id ++ " cannot have children"))
  loadGraph source n.graph

/-- The description of a binary. -/
def loadDescription (source : PackageSource m) :
    Option ManifestNode → StateT SeenIds (ExceptT DepositError m) (Option Description)
  | none => return none
  | some d => do
    noteId d.id
    return some ⟨d.id, ← loadRdfSource source d⟩

/-- The content of a binary, with the rules that are checked before it. -/
def loadBinary (source : PackageSource m) (n : ManifestNode) : ExceptT DepositError m Binary := do
  if n.graph.isSome || !n.children.isEmpty then
    throw (.invalidPackage ("non-rdf-source " ++ n.id ++ " cannot have a graph or children"))
  match n.description.filter (!·.isPlainRdfSource) with
  | some d => throw (.invalidPackage ("description " ++ d.id ++ " must be a plain rdf-source"))
  | none =>
    match n.file with
    | none => throw (.invalidPackage ("non-rdf-source " ++ n.id ++ " needs a file"))
    | some file => return ⟨n.mediaType.getD Vocabulary.octetStream, ← source.binary file⟩

mutual

/-- The resource of a node. -/
def toResource (source : PackageSource m) :
    ManifestNode → StateT SeenIds (ExceptT DepositError m) Resource
  | mk id kind graph file mediaType description children => do
    let n := mk id kind graph file mediaType description children
    noteId id
    match kind with
    | .container => do
      (n.rejectBinaryFields : ExceptT DepositError m Unit)
      let g ← loadGraph source graph
      return .container id g (← toResources source children)
    | .rdfSource => return .rdfSource id (← loadRdfSource source n)
    | .nonRdfSource => do
      let binary ← n.loadBinary source
      return .binary id binary (← loadDescription source description)

/-- The resources of some nodes, in their order. -/
def toResources (source : PackageSource m) :
    List ManifestNode → StateT SeenIds (ExceptT DepositError m) (List Resource)
  | [] => return []
  | n :: rest => do
    let r ← toResource source n
    return r :: (← toResources source rest)

end

end ManifestNode

namespace Manifest

/-- The resources that a manifest lists. -/
def toTree (source : PackageSource m) (manifest : Manifest) :
    ExceptT DepositError m (List Resource) :=
  (ManifestNode.toResources source manifest.resources).run' []

end Manifest

/-- The resources of a manifest whose graphs are all inline. -/
def treeOfManifest (text : String) : Except DepositError (List Resource) :=
  match (Json.partOfString? text).bind Manifest.ofPart? with
  | some manifest => (manifest.toTree (PackageSource.none : PackageSource Id)).run
  | none => .error .json

/-- The resources of the package at a path. -/
def loadPackage (disk : Disk m) (path : String) : ExceptT DepositError m (List Resource) := do
  let source ← PackageSource.ofPath disk path
  match (Json.partOfBytes? (← source.read manifestName)).bind Manifest.ofPart? with
  | some manifest => manifest.toTree source
  | none => throw .json

end LinkedDeposit
