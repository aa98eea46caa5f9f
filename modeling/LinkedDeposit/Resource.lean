import LinkedDeposit.Disk
import LinkedDeposit.Rdf.Graph

/-!
# Resource trees

A package is a list of resource trees: containers with children, RDF sources, and binaries, each
binary with at most one description. A description is an RDF source of its own, but it is created
with its binary and never stands alone.

`allSubjects` lists a tree in the order in which a deposit visits it: each node before its children,
and a description right after its binary. `length_localIds` says that as many ids are listed as the
tree counts nodes.
-/

namespace LinkedDeposit

/-- The kinds of resources. -/
inductive ResourceKind where
  | container
  | rdfSource
  | nonRdfSource
  deriving DecidableEq, Repr, Inhabited

namespace ResourceKind

/-- The name of a kind in manifests, events and messages. -/
def name : ResourceKind → String
  | container => "container"
  | rdfSource => "rdf-source"
  | nonRdfSource => "non-rdf-source"

/-- The kind of a name. -/
def ofName? : String → Option ResourceKind
  | "container" => some container
  | "rdf-source" => some rdfSource
  | "non-rdf-source" => some nonRdfSource
  | _ => none

theorem ofName?_name (k : ResourceKind) : ofName? k.name = some k := by cases k <;> rfl

end ResourceKind

/-- Where the bytes of a binary are. -/
inductive Content where
  | bytes (bytes : Bytes)
  /-- A file that is read when the binary is deposited. -/
  | file (path : String)
  deriving DecidableEq, Repr, Inhabited

namespace Content

/-- The content as it is found when it is opened. -/
def view (files : Files) : Content → FileView
  | .bytes b => FileView.file b
  | .file path => files path

/-- Opens the content for reading; what cannot be opened is refused here. -/
def open? (files : Files) (c : Content) : Except DepositError FileView :=
  match c, c.view files with
  | .file path, .failure reason =>
    .error (.invalidPackage ("cannot open binary " ++ path ++ ": " ++ reason))
  | _, view => .ok view

/-- Reads the whole content. -/
def read (files : Files) (c : Content) : Except DepositError Bytes := do
  match (← c.open? files).read with
  | .ok b => .ok b
  | .error reason => .error (.io reason)

/-- Content that cannot be had breaks no lifecycle. -/
theorem isIllegalState_of_open? {files : Files} {content : Content} {e : DepositError}
    (h : content.open? files = .error e) : e.isIllegalState = false := by
  unfold open? at h
  split at h
  · exact Except.error.inj h ▸ rfl
  · cases h

theorem isIllegalState_of_read {files : Files} {content : Content} {e : DepositError}
    (h : content.read files = .error e) : e.isIllegalState = false := by
  unfold read at h
  cases opened : content.open? files with
  | error e' =>
    rw [opened] at h
    exact Except.error.inj h ▸ isIllegalState_of_open? opened
  | ok view =>
    simp only [opened, bind, Except.bind] at h
    split at h
    · cases h
    · exact Except.error.inj h ▸ rfl

end Content

/-- Opaque content with its media type. -/
structure Binary where
  mediaType : String
  content : Content
  deriving DecidableEq, Repr, Inhabited

/-- What an event or a record says of a node: its id inside the package and its kind. -/
structure Subject where
  id : String
  kind : ResourceKind
  deriving DecidableEq, Repr, Inhabited

namespace Subject

/-- Whether the node has a graph. -/
def isRdf (s : Subject) : Bool := s.kind ≠ .nonRdfSource

end Subject

/-- The RDF source that describes a binary. -/
structure Description where
  id : String
  graph : Graph
  deriving DecidableEq, Inhabited

namespace Description

def subject (d : Description) : Subject := ⟨d.id, .rdfSource⟩

end Description

/-- A resource of a package with what is below it. -/
inductive Resource where
  | container (id : String) (graph : Graph) (children : List Resource)
  | rdfSource (id : String) (graph : Graph)
  | binary (id : String) (binary : Binary) (description : Option Description)
  deriving Inhabited

namespace Resource

/-- The id of the resource inside its package. -/
def id : Resource → String
  | .container id .. => id
  | .rdfSource id _ => id
  | .binary id .. => id

def kind : Resource → ResourceKind
  | .container .. => .container
  | .rdfSource .. => .rdfSource
  | .binary .. => .nonRdfSource

/-- The graph of a resource that has one. -/
def graph? : Resource → Option Graph
  | .container _ g _ => some g
  | .rdfSource _ g => some g
  | .binary .. => none

def children : Resource → List Resource
  | .container _ _ children => children
  | _ => []

def description? : Resource → Option Description
  | .binary _ _ description => description
  | _ => none

def binary? : Resource → Option Binary
  | .binary _ b _ => some b
  | _ => none

def subject (r : Resource) : Subject := ⟨r.id, r.kind⟩

/-- Whether the resource has a graph. -/
def isRdf (r : Resource) : Bool := r.subject.isRdf

theorem isRdf_of_graph? {r : Resource} {g : Graph} (h : r.graph? = some g) : r.isRdf = true := by
  cases r with
  | container => rfl
  | rdfSource => rfl
  | binary => cases h

theorem kind_of_graph? {r : Resource} {g : Graph} (h : r.graph? = some g) :
    r.kind ≠ .nonRdfSource := of_decide_eq_true (isRdf_of_graph? h)

theorem kind_of_binary? {r : Resource} {b : Binary} (h : r.binary? = some b) :
    r.kind = .nonRdfSource := by
  cases r with
  | container => cases h
  | rdfSource => cases h
  | binary => rfl

theorem graph?_or_binary? (r : Resource) :
    (∃ g, r.graph? = some g) ∨ ∃ b, r.binary? = some b := by
  cases r with
  | container _ g _ => exact .inl ⟨g, rfl⟩
  | rdfSource _ g => exact .inl ⟨g, rfl⟩
  | binary _ b _ => exact .inr ⟨b, rfl⟩

/-- Describes a binary by an RDF source; nothing else has or is a description. -/
def describe (r description : Resource) : Except DepositError Resource :=
  match description with
  | .rdfSource descriptionId graph =>
    match r with
    | .binary id b _ => .ok (.binary id b (some ⟨descriptionId, graph⟩))
    | r => .error (.invalidPackage ("only non-rdf-source nodes carry a description, " ++ r.id ++
        " is a " ++ r.kind.name))
  | d => .error (.invalidPackage ("description " ++ d.id ++ " of " ++ r.id ++
      " must be an rdf-source, got " ++ d.kind.name))

mutual

/-- The number of nodes of a tree, descriptions included. -/
def count : Resource → Nat
  | .container _ _ children => 1 + countAll children
  | .rdfSource .. => 1
  | .binary _ _ description => 1 + description.toList.length

def countAll : List Resource → Nat
  | [] => 0
  | r :: rest => r.count + countAll rest

end

mutual

/-- The nodes of a tree in the order of a deposit. -/
def subjects : Resource → List Subject
  | .container id _ children => ⟨id, .container⟩ :: allSubjects children
  | .rdfSource id _ => [⟨id, .rdfSource⟩]
  | .binary id _ description =>
    ⟨id, .nonRdfSource⟩ :: description.toList.map Description.subject

/-- The nodes of a list of trees in the order of a deposit. -/
def allSubjects : List Resource → List Subject
  | [] => []
  | r :: rest => r.subjects ++ allSubjects rest

end

/-- The ids of a list of trees in the order of a deposit. -/
def localIds (tree : List Resource) : List String := (allSubjects tree).map (·.id)

mutual

theorem length_subjects (r : Resource) : r.subjects.length = r.count := by
  cases r with
  | container id g children => simp [subjects, count, length_allSubjects children, Nat.add_comm]
  | rdfSource id g => rfl
  | binary id b d => simp [subjects, count, Nat.add_comm]

theorem length_allSubjects (tree : List Resource) :
    (allSubjects tree).length = countAll tree := by
  cases tree with
  | nil => rfl
  | cons r rest => simp [allSubjects, countAll, length_subjects r, length_allSubjects rest]

end

/-- As many ids are listed as nodes are counted. -/
theorem length_localIds (tree : List Resource) : (localIds tree).length = countAll tree := by
  simp [localIds, length_allSubjects]

mutual

/-- The files that the binaries of a tree are read from. -/
def paths : Resource → List String
  | .container _ _ children => allPaths children
  | .rdfSource .. => []
  | .binary _ b _ =>
    match b.content with
    | .file path => [path]
    | .bytes _ => []

def allPaths : List Resource → List String
  | [] => []
  | r :: rest => r.paths ++ allPaths rest

end

end Resource

end LinkedDeposit
