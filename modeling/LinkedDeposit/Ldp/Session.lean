import LinkedDeposit.Config
import LinkedDeposit.Http.Message
import LinkedDeposit.Ldp.LinkHeader
import LinkedDeposit.Link.Remap
import LinkedDeposit.Rdf.JsonLd
import LinkedDeposit.Session.Basic

/-!
# Sessions over HTTP

A session with an LDP repository. With a transaction, every resource is addressed below the base
that the repository gave it, until the transaction ends; the session converts URIs at its edge, so its
callers only see the URIs that resources have outside. Without one, every change is visible at once,
and a rollback deletes what was created, the last first.
-/

namespace LinkedDeposit.Ldp

open Http (Request Response Transport Method Headers)

/-- What a session needs around it. -/
structure Client (m : Type → Type) where
  settings : RepositorySettings
  disk : Disk m
  transport : Transport m

/-- What a session knows. -/
structure State where
  /-- The base of the open transaction. -/
  transaction : Option String
  lifecycle : Lifecycle
  /-- The URIs created so far, the last first. -/
  created : List String
  deriving DecidableEq, Repr, Inhabited

/-- The state of a session before its first request. -/
def State.initial : State := ⟨none, .idle, []⟩

/-- An operation of a session, which may fail. -/
abbrev Operation (m : Type → Type) (α : Type) := ExceptT DepositError (StateT State m) α

/-! ## Addresses -/

/-- The base of the repository. -/
def baseOf (settings : RepositorySettings) : String := Text.trimSlashes settings.baseUrl

/-- The address of a URI while a transaction may be open. -/
def toWire (base : String) (transaction : Option String) (uri : String) : String :=
  transaction.elim uri fun tx => rebase base tx uri

/-- The URI of an address that the repository gave. -/
def fromWire (base : String) (transaction : Option String) (uri : String) : String :=
  transaction.elim uri fun tx => rebase tx base uri

/-- A graph with addresses for URIs. -/
def graphToWire (base : String) (transaction : Option String) (g : Graph) : Graph :=
  transaction.elim g fun tx => g.rebase base tx

/-- A graph with URIs for addresses. -/
def graphFromWire (base : String) (transaction : Option String) (g : Graph) : Graph :=
  transaction.elim g fun tx => g.rebase tx base

/-! ## Slugs

The name that a client suggests for a new resource: the last part of its local id, without what a
path segment should not hold.
-/

/-- Whether a character separates the parts of a local id. -/
def separatesParts (c : Char) : Bool := c = '/' || c = ':' || c = '#'

/-- Whether a character may stand in a slug. -/
def isSlugChar (c : Char) : Bool := c.isAlphanum || c = '-' || c = '_' || c = '.'

/-- The slug of a local id. One that is empty or begins with a dot is not suggested. -/
def slug? (id : String) : Option String :=
  let part := Text.afterLast separatesParts (Text.trimSlashes id).toList
  match part.filter isSlugChar with
  | [] | '.' :: _ => none
  | s => some (String.ofList s)

example : slug? "./data/figure 2.png" = some "figure2.png" ∧ slug? "urn:pkg:" = none := by
  decide +kernel

/-! ## Bodies -/

/-- Asks the repository to leave out what it adds itself. -/
def preferLenient : String := "handling=lenient; received=\"minimal\""

/-- The link that declares what a new resource is. -/
def interactionModel : ResourceKind → String
  | .container => Link.write Vocabulary.ldpBasicContainer "type"
  | .rdfSource => Link.write Vocabulary.ldpRdfSource "type"
  | .nonRdfSource => Link.write Vocabulary.ldpNonRdfSource "type"

/-- The upload of a graph: blank nodes are fragments, and the resource's own id is the empty
reference. -/
def turtleBody (id : String) (g : Graph) : Bytes := Text.toUtf8 (g.skolemize.toTurtle id)

/-- A patch with addresses for URIs, as an update. -/
def updateBody (base : String) (transaction : Option String) (p : Patch) : Bytes :=
  Text.toUtf8 (Patch.toSparql ⟨graphToWire base transaction p.added,
    graphToWire base transaction p.removed⟩)

/-! ## Requests -/

namespace Client

variable {m : Type → Type} [Monad m] (c : Client m)

def base : String := baseOf c.settings

/-- The credentials that every request carries. -/
def credentials : Headers :=
  match c.settings.username with
  | some username => [("authorization", Http.basicCredentials username c.settings.password)]
  | none => []

/-- The status of a precondition that did not hold. -/
def preconditionFailed : Nat := 412

/-- Sends a request and takes its response, if that is a success. A failure names `uri`. -/
def send (method : Method) (address : String) (headers : Headers) (body : Except String Bytes)
    (uri : String) : Operation m Response := do
  let request : Request := ⟨method, address, c.credentials ++ headers, body⟩
  let received : m (Except String Response) := c.transport.checked request
  match ← received with
  | .error reason => throw (.failure uri ("HTTP request failed: " ++ reason))
  | .ok response =>
    if response.isSuccess then return response
    else if response.status = preconditionFailed then throw (.concurrentModification uri)
    else
      let text := String.ofList (Text.trimBlank (response.text?.getD "").toList)
      throw (.failure uri (toString response.status ++ " " ++ text))

/-- The token of a response that gives none. -/
def noToken : Token := ""

/-- Reads the graph at an address, with URIs for addresses. Failures name the address. -/
def fetchGraph (address : String) : Operation m (Graph × Token) := do
  let response ← c.send .get address [("accept", Vocabulary.jsonLd)] (.ok []) address
  match response.text? with
  | none => throw (.failure address "cannot read body: unexpected end")
  | some text =>
    match Json.ofString? text with
    | none => throw (.failure address "unreadable JSON-LD: not a JSON text")
    | some doc =>
      let g ← liftM (JsonLd.toGraph doc)
      return (graphFromWire c.base (← get).transaction g, (response.header? "etag").getD noToken)

/-- Writes the description of a binary at an address. -/
def putDescription (d : Description) (address : String) : Operation m Unit := do
  let _ ← c.send .put address
    [("content-type", Vocabulary.turtle), ("prefer", preferLenient)]
    (.ok (turtleBody d.id d.graph)) address

/-- Ends the open transaction, if there is one. -/
def endTransaction (action : String) : Operation m Unit := do
  match (← get).transaction with
  | some tx =>
    let address := tx ++ "/" ++ Vocabulary.transactionSegment ++ "/fcr:" ++ action
    let _ ← c.send .post address [] (.ok []) address
  | none => pure ()

/-- Opens a transaction of the repository. -/
def beginTransaction : Operation m Unit := do
  let address := c.base ++ "/" ++ Vocabulary.transactionSegment
  let response ← c.send .post address [] (.ok []) address
  match response.header? "location" with
  | some location => modify fun s => { s with transaction := some (Text.trimSlashes location) }
  | none => throw (.failure address "transaction has no Location")

/-- Deletes resources, each at its URI, and gives those that could not be deleted. -/
def deleteAll : List String → StateT State m (List String)
  | [] => return []
  | uri :: rest => do
    let result ← (c.send .delete uri [] (.ok []) uri).run
    let failed ← deleteAll rest
    return match result with
      | .ok _ => failed
      | .error _ => uri :: failed

/-- Deletes what was created, the last first. -/
def deleteCreated : Operation m Unit := do
  let created := (← get).created
  let deleted : StateT State m (List String) := c.deleteAll created
  let failed ← deleted
  modify fun s => { s with created := [] }
  if !failed.isEmpty then
    throw (.failure c.base ("could not delete " ++ toString failed.length ++ " resource(s): " ++
      ", ".intercalate failed))

/-! ## The operations -/

/-- Begins an operation. -/
def enter (operation : String) : Operation m Unit := do
  let lifecycle ← liftM ((← get).lifecycle.enter operation)
  modify fun s => { s with lifecycle }

/-- The headers and the body that create a resource. -/
def creation (r : Resource) : Operation m (Headers × Except String Bytes) := do
  let slug : Headers := match slug? r.id with
    | some slug => [("slug", slug)]
    | none => []
  let headers (mediaType : String) : Headers :=
    slug ++ [("link", interactionModel r.kind), ("content-type", mediaType)]
  match r with
  | .container id g _ | .rdfSource id g => return (headers Vocabulary.turtle, .ok (turtleBody id g))
  | .binary _ b _ =>
    let opened : m FileView := match b.content with
      | .bytes bytes => pure (.file bytes)
      | .file path => c.disk path
    let view ← opened
    let found ← liftM (b.content.open? fun _ => view)
    return (headers b.mediaType, found.read)

/-- The address of a new binary's description, which its response links to. -/
def describedBy? (response : Response) : Option String :=
  ((response.values "link").filter Response.isReadable).findSome?
    (Link.find? Vocabulary.describedBy)

/-- Creates a resource below a container, and its description. -/
def deposit (r : Resource) (parent : String) : Operation m Deposited := do
  enter "deposit"
  let address := toWire c.base (← get).transaction parent
  let (headers, body) ← c.creation r
  let response ← c.send .post address headers body parent
  match response.header? "location" with
  | none => throw (.failure parent "created resource has no Location")
  | some location =>
    let uri := fromWire c.base (← get).transaction location
    modify fun s => { s with created := uri :: s.created }
    match r.description? with
    | none => return ⟨uri, none⟩
    | some d =>
      match describedBy? response with
      | none => throw (.missingDescription uri)
      | some address =>
        c.putDescription d address
        return ⟨uri, some (fromWire c.base (← get).transaction address)⟩

/-- Reads the graph of a resource. -/
def fetch (uri : String) : Operation m (Graph × Token) := do
  enter "fetch graph"
  c.fetchGraph (toWire c.base (← get).transaction uri)

/-- The condition under which a resource is written. -/
def condition (token : Token) : Headers := if token = noToken then [] else [("if-match", token)]

/-- Writes a patch as an update. -/
def update (uri : String) (p : Patch) (token : Token) : Operation m Unit := do
  let transaction := (← get).transaction
  let _ ← c.send .patch (toWire c.base transaction uri)
    ([("content-type", Vocabulary.sparqlUpdate)] ++ condition token)
    (.ok (updateBody c.base transaction p)) uri

/-- Reads a graph, applies a patch, and writes the whole back. -/
def replace (uri : String) (p : Patch) (token : Token) : Operation m Unit := do
  let transaction := (← get).transaction
  let address := toWire c.base transaction uri
  let (g, _) ← c.fetchGraph address
  let body := (graphToWire c.base transaction (p.applyTo g)).toNTriples
  let _ ← c.send .put address
    [("content-type", Vocabulary.nTriples), ("if-match", token), ("prefer", preferLenient)]
    (.ok (Text.toUtf8 body)) uri

/-- Patches a resource. An empty patch sends nothing. -/
def patch (uri : String) (p : Patch) (token : Token) : Operation m Unit := do
  enter "apply patch"
  if p.isEmpty then return ()
  match c.settings.patchMode with
  | .sparqlUpdate => c.update uri p token
  | .replace => c.replace uri p token

/-- Refuses to finish a session twice. -/
def checkOpen (operation : String) : Operation m Unit := do
  liftM ((← get).lifecycle.checkOpen operation)

/-- Commits the open transaction. A session that could not commit stays open. -/
def commit : Operation m Unit := do
  checkOpen "commit"
  c.endTransaction "commit"
  modify fun s => { s with lifecycle := .finished true }

/-- Rolls the open transaction back, or deletes what was created. The session ends in any case. -/
def rollback : Operation m Unit := do
  checkOpen "rollback"
  let undo : Operation m Unit :=
    if (← get).transaction.isSome then c.endTransaction "rollback" else c.deleteCreated
  let result ← ExceptT.lift undo.run
  modify fun s => { s with lifecycle := .finished false }
  liftM result

/-- The operations of a session. -/
def session : Session (StateT State m) where
  deposit := c.deposit
  fetch := c.fetch
  patch := c.patch
  commit := c.commit
  rollback := c.rollback

/-- Opens a session, with a transaction if the settings ask for one. -/
def openSession : Operation m (Session (StateT State m)) := do
  if c.settings.useTransactions then c.beginTransaction
  return c.session

end Client

end LinkedDeposit.Ldp
