import LinkedDeposit.Json.Document
import LinkedDeposit.Resource

/-!
# Manifests

A manifest lists the resources of a package. It says where each graph and each binary is found, and
it is only held to its shape here; what a node of some kind may have is decided when the tree is
built.
-/

namespace LinkedDeposit

open Json (Part)

/-- Where a graph is: in a file of the package, or in the manifest itself. -/
inductive GraphSource where
  | file (path : String)
  | inline (doc : Json)
  deriving Inhabited

/-- A node as the manifest gives it. -/
inductive ManifestNode where
  | mk (id : String) (kind : ResourceKind) (graph : Option GraphSource) (file : Option String)
    (mediaType : Option String) (description : Option ManifestNode)
    (children : List ManifestNode)
  deriving Inhabited

namespace ManifestNode

def id : ManifestNode → String
  | mk id .. => id

def kind : ManifestNode → ResourceKind
  | mk _ kind .. => kind

def graph : ManifestNode → Option GraphSource
  | mk _ _ graph .. => graph

def file : ManifestNode → Option String
  | mk _ _ _ file .. => file

def mediaType : ManifestNode → Option String
  | mk _ _ _ _ mediaType .. => mediaType

def description : ManifestNode → Option ManifestNode
  | mk _ _ _ _ _ description _ => description

def children : ManifestNode → List ManifestNode
  | mk _ _ _ _ _ _ children => children

/-- The names of a node's fields, in their order. -/
def fieldNames : List String :=
  ["id", "kind", "graph", "file", "media_type", "description", "children"]

/-- Reads a string as a path and any other value as a graph. -/
def graphSource? (p : Part) : Option GraphSource :=
  match p.text? with
  | some path => some (.file path)
  | none => p.json?.map .inline

/-- Reads a node whose parts nest at most `depth` deep. -/
def ofPart? : (depth : Nat) → Part → Option ManifestNode
  | 0, _ => none
  | depth + 1, p => do
    let fields ← Document.record? fieldNames p
    let id ← fields.required 0 Document.text?
    let kind ← fields.required 1 fun p => (Document.choice? p).bind ResourceKind.ofName?
    let graph ← fields.optional 2 graphSource?
    let file ← fields.optional 3 Document.text?
    let mediaType ← fields.optional 4 Document.text?
    let description ← fields.optional 5 (ofPart? depth)
    let children ← fields.defaulted 6 [] fun p => do (← Document.items? p).mapM (ofPart? depth)
    return mk id kind graph file mediaType description children

end ManifestNode

/-- The resources of a package, as its manifest lists them. -/
structure Manifest where
  resources : List ManifestNode

namespace Manifest

/-- Reads a manifest. A part has room for as many levels as may nest in it. -/
def ofPart? (p : Part) : Option Manifest := do
  let fields ← Document.record? ["resources"] p
  let items ← fields.required 0 Document.items?
  return ⟨← items.mapM (ManifestNode.ofPart? (p.room + 1))⟩

end Manifest

end LinkedDeposit
