import LinkedDeposit.Link.Remap
import LinkedDeposit.Repository.Basic
import LinkedDeposit.Session.Basic

/-!
# Transactions

A transaction stages the work of one session: new and changed resources, and for each new resource
its place below a parent. Containment is kept apart from the staged graphs and joins them when the
transaction is committed, so sessions that deposit below one container do not overwrite each other.

A commit makes all of it visible at once. It is refused when a committed resource that the
transaction patched has changed in the meantime.
-/

namespace LinkedDeposit

/-- The staged work of a session. -/
structure Transaction where
  lifecycle : Lifecycle
  staged : Table String Stored
  /-- Parents with their new children, in the order of their creation. -/
  contained : List (String × String)
  /-- The committed versions that patched resources had. -/
  baseVersions : Table String Nat
  /-- The number of requests made so far. -/
  requests : Nat
  deriving Inhabited

namespace Transaction

/-- A transaction that nothing has happened in. -/
def idle : Transaction := ⟨.idle, Table.empty, [], Table.empty, 0⟩

/-- A graph as a repository stores it when it is uploaded to a URI: blank nodes become fragments,
the resource's own id and relative references become its URI. -/
def ingest (id uri : String) (g : Graph) : Graph :=
  (g.skolemize.remap (Table.empty.insert id uri)).resolve uri

/-- The resource at a URI as the transaction sees it. -/
def lookup (repository : Repository) (t : Transaction) (uri : String) : Option Stored :=
  let found := (t.staged.get? uri).orElse fun _ => repository.get? uri
  let children := t.contained.filter fun (parent, _) => parent = uri
  found.map fun r => { r with graph := children.foldl (fun g (parent, child) =>
    g.insert (Repository.containment parent child)) r.graph }

/-- The URI of a child that was given a name. -/
def childUri (parent name : String) : String := Text.trimSlashes parent ++ "/" ++ name

/-- The URI of a binary's description. -/
def descriptionUri (uri : String) : String := uri ++ "/" ++ Vocabulary.descriptionSegment

/-- Stages a resource at a URI. Only the content of a binary can fail to be had. -/
def stage (files : Files) (uri : String) (t : Transaction) :
    Resource → Except DepositError (Transaction × Deposited)
  | .container id g _ =>
    .ok ({ t with staged := t.staged.insert uri (.ofGraph .container (ingest id uri g)) },
      ⟨uri, none⟩)
  | .rdfSource id g =>
    .ok ({ t with staged := t.staged.insert uri (.ofGraph .rdfSource (ingest id uri g)) },
      ⟨uri, none⟩)
  | .binary _ b description => do
    let bytes ← b.content.read files
    let staged := t.staged.insert uri (.ofBinary b.mediaType bytes)
    match description with
    | none => .ok ({ t with staged }, ⟨uri, none⟩)
    | some d =>
      let place := descriptionUri uri
      let described := Stored.ofGraph .rdfSource (ingest d.id place d.graph)
      .ok ({ t with staged := staged.insert place described }, ⟨uri, some place⟩)

/-- Begins an operation that asks the repository. -/
def request (t : Transaction) : Transaction :=
  { t with lifecycle := .active, requests := t.requests + 1 }

/-- Creates a resource below a container under a fresh name. -/
def deposit (files : Files) (name : String) (repository : Repository) (r : Resource)
    (parent : String) (t : Transaction) : Except DepositError Deposited × Transaction :=
  match t.lifecycle.checkOpen "deposit" with
  | .error e => (.error e, t)
  | .ok _ =>
    let t := t.request
    match (t.lookup repository parent).map Stored.kind with
    | none => (.error (.failure parent "parent not found"), t)
    | some .container =>
      let uri := childUri parent name
      match t.stage files uri r with
      | .error e => (.error e, t)
      | .ok (t, deposited) =>
        (.ok deposited, { t with contained := t.contained ++ [(parent, uri)] })
    | some _ => (.error (.failure parent "parent is not a container"), t)

/-- The graph of a resource and the token of its state. -/
def fetch (repository : Repository) (uri : String) (t : Transaction) :
    Except DepositError (Graph × Token) × Transaction :=
  match t.lifecycle.checkOpen "fetch graph" with
  | .error e => (.error e, t)
  | .ok _ =>
    let t := t.request
    match t.lookup repository uri with
    | none => (.error (.failure uri "resource not found"), t)
    | some r =>
      if r.kind = .nonRdfSource then (.error (.failure uri "resource is not an RDF source"), t)
      else (.ok (r.graph, r.token), t)

/-- Notes the committed version of a resource that is patched for the first time. -/
def noteBase (uri : String) (version : Nat) (t : Transaction) : Transaction :=
  if t.staged.contains uri then t
  else { t with baseVersions := t.baseVersions.insert uri version }

/-- Patches a resource whose state the token names. An empty patch asks nothing. -/
def patch (repository : Repository) (uri : String) (p : Patch) (token : Token) (t : Transaction) :
    Except DepositError Unit × Transaction :=
  match t.lifecycle.checkOpen "apply patch" with
  | .error e => (.error e, t)
  | .ok _ =>
    if p.isEmpty then (.ok (), { t with lifecycle := .active })
    else
      let t := t.request
      match t.lookup repository uri with
      | none => (.error (.failure uri "resource not found"), t)
      | some r =>
        if r.token ≠ token then (.error (.concurrentModification uri), t)
        else
          let t := t.noteBase uri r.version
          let patched := { r with graph := p.applyTo r.graph, version := r.version + 1 }
          (.ok (), { t with staged := t.staged.insert uri patched })

/-- The first patched resource whose committed version is not the one it had. -/
def conflict? (repository : Repository) (t : Transaction) : Option String :=
  (t.baseVersions.entries.find? fun (uri, version) =>
    (repository.get? uri).map (·.version) ≠ some version).map (·.1)

/-- The repository with the staged work. -/
def merge (repository : Repository) (t : Transaction) : Repository :=
  Repository.containAll (repository.union t.staged) t.contained

/-- The transaction after it was finished. -/
def finish (isCommit : Bool) (t : Transaction) : Transaction :=
  { idle with lifecycle := .finished isCommit, requests := t.requests }

/-- Makes the staged work visible. -/
def commit (repository : Repository) (t : Transaction) :
    Except DepositError Unit × Repository × Transaction :=
  match t.lifecycle.checkOpen "commit" with
  | .error e => (.error e, repository, t)
  | .ok _ =>
    match t.conflict? repository with
    | some uri => (.error (.concurrentModification uri), repository, t)
    | none => (.ok (), t.merge repository, t.finish true)

/-- Discards the staged work. -/
def rollback (t : Transaction) : Except DepositError Unit × Transaction :=
  match t.lifecycle.checkOpen "rollback" with
  | .error e => (.error e, t)
  | .ok _ => (.ok (), t.finish false)

end Transaction

end LinkedDeposit
