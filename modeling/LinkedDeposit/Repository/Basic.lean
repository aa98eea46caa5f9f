import LinkedDeposit.Rdf.Vocabulary
import LinkedDeposit.Resource

/-!
# Repositories

A repository keeps resources under their URIs. Each one has a version, which grows with every change
of its graph and so can serve as the token of its state.
-/

namespace LinkedDeposit

/-- The bytes of a stored binary with their media type. -/
structure StoredBinary where
  mediaType : String
  bytes : Bytes
  deriving DecidableEq, Repr, Inhabited

/-- A resource as a repository keeps it. -/
structure Stored where
  kind : ResourceKind
  graph : Graph
  binary : Option StoredBinary
  version : Nat
  deriving DecidableEq, Inhabited

namespace Stored

/-- A new resource that has a graph. -/
def ofGraph (kind : ResourceKind) (g : Graph) : Stored := ⟨kind, g, none, 1⟩

/-- A new binary. -/
def ofBinary (mediaType : String) (bytes : Bytes) : Stored :=
  ⟨.nonRdfSource, Graph.empty, some ⟨mediaType, bytes⟩, 1⟩

/-- The token of the state that the resource is in. -/
def token (r : Stored) : String := toString r.version

/-- Notes a child of a container; the version grows if the child is new. -/
def contain (r : Stored) (t : Triple) : Stored :=
  if t ∈ r.graph then r else { r with graph := r.graph.insert t, version := r.version + 1 }

end Stored

/-- The committed resources by URI. -/
abbrev Repository := Table String Stored

namespace Repository

/-- A repository that holds one empty container. -/
def root (uri : String) : Repository :=
  Table.empty.insert uri (Stored.ofGraph .container Graph.empty)

/-- The statement that a container holds a child. -/
def containment (parent child : String) : Triple :=
  ⟨.iri parent, Vocabulary.ldpContains, .iri child⟩

def kind? (r : Repository) (uri : String) : Option ResourceKind := (r.get? uri).map (·.kind)

/-- The graph of a resource that has one. -/
def graph? (r : Repository) (uri : String) : Option Graph :=
  ((r.get? uri).filter (·.kind ≠ .nonRdfSource)).map (·.graph)

theorem graph?_eq_some {r : Repository} {uri : String} {stored : Stored}
    (h : r.get? uri = some stored) (rdf : stored.kind ≠ .nonRdfSource) :
    r.graph? uri = some stored.graph := by
  have kept : (some stored).filter (fun s => s.kind ≠ .nonRdfSource) = some stored := by
    rw [Option.filter_some, if_pos (decide_eq_true rdf)]
  rw [graph?, h, kept, Option.map_some]

def binary? (r : Repository) (uri : String) : Option StoredBinary := (r.get? uri).bind (·.binary)

/-- Notes children at their parents, in order. -/
def containAll (r : Repository) (children : List (String × String)) : Repository :=
  children.foldl (fun (r : Repository) (parent, child) =>
    match r.get? parent with
    | some stored => r.insert parent (stored.contain (containment parent child))
    | none => r) r

end Repository

end LinkedDeposit
