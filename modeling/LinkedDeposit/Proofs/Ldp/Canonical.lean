import LinkedDeposit.Proofs.Ldp.Confinement
import LinkedDeposit.Session.Call

/-!
# Which URIs leave a session

A session with a transaction addresses resources below the transaction, and its callers should only
see the URIs that resources have outside. So they do in what succeeds: records and graphs are moved
to the base of the repository on their way out. Failures name the URI that the caller asked for,
with two exceptions, which name the address that was used: a request for a graph, also when a patch
is written as a whole graph, and the request that writes the description of a new binary. Only the
last request of a call fails, so these are told by the exchange at the end of the log (`EndsInVain`).

`Names` is a program logic for this. It is about one operation in an open transaction: what is true
of its result and of the exchanges up to then, and which URIs its failures may name.

Results:
* `isBelow_fromWire`: no address that the peer gives comes out below the transaction, unless it has
  the transaction's segment twice.
* `names_deposit`, `names_fetch`, `names_patch`: what the operations of a session name.
* `failed_fetch_names_address`: a read that fails names its address below the transaction.
* `calls_canonical`: what callers see otherwise.
* `failed_read_escapes`: a run in which a read fails.
-/

namespace LinkedDeposit

/-- The URI that a failure of a repository names. -/
def DepositError.uri? : DepositError → Option String
  | .failure uri _ | .concurrentModification uri | .missingDescription uri => some uri
  | _ => none

/-- The URI that a call is about. -/
def SessionCall.uri? : SessionCall → Option String
  | .deposit _ uri | .fetch uri | .patch uri _ _ => some uri
  | .commit | .rollback => none

/-- The URIs in an answer. -/
def SessionAnswer.uris : SessionAnswer → List String
  | .deposited d => d.uri :: d.description.toList
  | .fetched g _ => g.iris
  | .done => []

namespace Ldp

open Http (Request Response Transport Method Headers)

/-! ## Addresses that the peer gives -/

/-- Whether an address has the transaction's segment twice: whether it is below the address that the
transaction itself would have inside. -/
def isNested (base tx address : String) : Bool := isBelow (toWire base (some tx) tx) address

/-- **No address comes out below the transaction** that does not have its segment twice. -/
theorem isBelow_fromWire {base tx address : String} (within : isBelow base tx = true)
    (once : isNested base tx address = false) :
    isBelow tx (fromWire base (some tx) address) = false := by
  rw [fromWire_some]
  cases below : isBelow tx address with
  | false => rw [rebase_of_not_isBelow below, below]
  | true =>
    obtain ⟨rest, ends, rfl⟩ := exists_of_isBelow below
    rw [rebase_append ends tx base]
    refine Bool.eq_false_iff.mpr fun again => ?_
    obtain ⟨rest', ends', same⟩ := exists_of_isBelow again
    obtain ⟨segment, endsBase, rfl⟩ := exists_of_isBelow within
    -- behind the base there is the segment, so it is behind the transaction a second time
    rw [Text.trimSlashes_trimmed, String.append_assoc, String.append_right_inj] at same
    have nested : isNested base (Text.trimSlashes base ++ String.ofList segment)
        (Text.trimSlashes (Text.trimSlashes base ++ String.ofList segment) ++ String.ofList rest) =
          true := by
      rw [isNested, toWire_some, rebase_append endsBase, same, ← String.append_assoc,
        ← Text.trimSlashes_trimmed]
      exact isBelow_append ends' _
    rw [once] at nested
    cases nested

/-- An IRI of a graph with URIs for addresses was one of the graph. -/
theorem exists_of_mem_iris_rebase {g : Graph} {source destination i : String}
    (h : i ∈ (g.rebase source destination).iris) :
    ∃ j ∈ g.iris, i = rebase source destination j := by
  obtain ⟨t, ht, names⟩ := Graph.mem_iris.mp h
  obtain ⟨u, hu, rfl⟩ := Graph.mem_map.mp ht
  have moved {v : Term} (h : v.mapIri (rebase source destination) = .iri i) :
      ∃ j, v = .iri j ∧ i = rebase source destination j := by
    cases v with
    | iri j => exact ⟨j, rfl, (Term.iri.inj h).symm⟩
    | blank label => cases h
    | literal text datatype language => cases h
  rcases names with subject | object
  · obtain ⟨j, named, same⟩ := moved subject
    exact ⟨j, Graph.mem_iris.mpr ⟨u, hu, .inl named⟩, same⟩
  · obtain ⟨j, named, same⟩ := moved object
    exact ⟨j, Graph.mem_iris.mpr ⟨u, hu, .inr named⟩, same⟩

/-- The graph that was read. -/
def Exchange.graph? (e : Exchange) : Option Graph :=
  if e.request.method = .get then
    ((e.success?.bind (·.text?)).bind Json.ofString?).bind fun doc => (JsonLd.toGraph doc).toOption
  else none

/-- Whether no address that an exchange gives has the transaction's segment twice. -/
def Exchange.isPlain (base tx : String) (e : Exchange) : Bool :=
  e.location?.all (! isNested base tx ·) && e.description?.all (! isNested base tx ·) &&
    e.graph?.all fun g => g.iris.all (! isNested base tx ·)

theorem Exchange.isPlain_iff {base tx : String} {e : Exchange} : e.isPlain base tx = true ↔
    (∀ address ∈ e.location?, isNested base tx address = false) ∧
      (∀ address ∈ e.description?, isNested base tx address = false) ∧
        ∀ g ∈ e.graph?, ∀ i ∈ g.iris, isNested base tx i = false := by
  simp only [isPlain, Bool.and_eq_true, Option.all_eq_true, List.all_eq_true, Bool.not_eq_true',
    and_assoc]
  rfl

/-! ## Requests in vain -/

/-- Whether an exchange came to nothing: to no graph where one was asked for, else to no success. -/
def Exchange.isInVain (e : Exchange) : Bool :=
  if e.request.method = .get then e.graph?.isNone else e.success?.isNone

theorem Exchange.isInVain_of_refused {e : Exchange} (refused : e.success? = none) :
    e.isInVain = true := by
  unfold isInVain graph?
  split <;> simp [refused]

/-- The last request is one to the address, and it failed: it came to nothing, or could not even be
sent. -/
def EndsInVain (method : Method) (address : String) (log : Log) : Prop :=
  isReachable address = false ∨ ∃ e, log.getLast? = some e ∧ Asks e method address ∧
    e.isInVain = true

theorem EndsInVain.snoc {method : Method} {address : String} {e : Exchange}
    (asks : Asks e method address) (vain : e.isInVain = true) (log : Log) :
    EndsInVain method address (log ++ [e]) :=
  .inr ⟨e, List.getLast?_concat, asks, vain⟩

/-! ## The logic -/

section Logic

variable {σ α β : Type} {tx : String} {since : Log} {Gives : α → Log → Prop}
  {Then : β → Log → Prop} {Blames : String → Log → Prop}

/-- What an operation names that is started in a transaction, after the exchanges `since`. If it
succeeds, `Gives` is true of its result and of the exchanges up to then; a failure names only URIs
that `Blames` admits. The transaction stays the same. -/
def Names (tx : String) (since : Log) (a : Operation (StateM (σ × Log)) α)
    (Gives : α → Log → Prop) (Blames : String → Log → Prop) : Prop :=
  ∀ w : World σ, w.1.transaction = some tx → ∃ added,
    (perform a w).2.1.transaction = some tx ∧ (perform a w).2.2.2 = w.2.2 ++ added ∧
      match (perform a w).1 with
      | .ok v => Gives v (since ++ added)
      | .error e => ∀ uri ∈ e.uri?, Blames uri (since ++ added)

theorem Names.pure {v : α} (h : Gives v since) :
    Names tx since (Pure.pure v : Operation (StateM (σ × Log)) α) Gives Blames := by
  intro w opened
  refine ⟨[], opened, (List.append_nil _).symm, ?_⟩
  rw [List.append_nil]
  exact h

theorem Names.throw {e : DepositError} (h : ∀ uri ∈ e.uri?, Blames uri since) :
    Names tx since (MonadExcept.throw e : Operation (StateM (σ × Log)) α) Gives Blames := by
  intro w opened
  refine ⟨[], opened, (List.append_nil _).symm, ?_⟩
  rw [List.append_nil]
  exact h

/-- A computation names nothing when it fails. -/
theorem Names.compute {v : Except DepositError α} (given : ∀ u, v = .ok u → Gives u since)
    (silent : ∀ e, v = .error e → e.uri? = none) :
    Names tx since (liftM v : Operation (StateM (σ × Log)) α) Gives Blames := by
  cases v with
  | ok u => exact Names.pure (given u rfl)
  | error e =>
    refine Names.throw fun uri named => ?_
    rw [silent e rfl] at named
    cases named

/-- What does not reach the peer changes nothing that is known. -/
theorem Names.beside {m : StateM σ α} (given : ∀ v, Gives v since) :
    Names tx since (liftM (onFirst m : StateM (σ × Log) α) : Operation (StateM (σ × Log)) α) Gives
      Blames := by
  intro w opened
  refine ⟨[], opened, (List.append_nil _).symm, ?_⟩
  rw [List.append_nil]
  exact given _

theorem Names.change {change : State → State}
    (keeps : ∀ s, (change s).transaction = s.transaction) {Gives : Unit → Log → Prop}
    (given : Gives () since) :
    Names tx since (modify change : Operation (StateM (σ × Log)) Unit) Gives Blames := by
  intro w opened
  refine ⟨[], (keeps w.1).trans opened, (List.append_nil _).symm, ?_⟩
  rw [List.append_nil]
  exact given

/-- What a session knows includes its transaction. -/
theorem Names.known {f : State → Operation (StateM (σ × Log)) β}
    (next : ∀ s : State, s.transaction = some tx → Names tx since (f s) Then Blames) :
    Names tx since (get >>= f) Then Blames :=
  fun w opened => next w.1 opened w opened

theorem Names.bind {a : Operation (StateM (σ × Log)) α} {f : α → Operation (StateM (σ × Log)) β}
    (first : Names tx since a Gives Blames)
    (next : ∀ v since', Gives v since' → Names tx since' (f v) Then Blames) :
    Names tx since (a >>= f) Then Blames := by
  intro w opened
  obtain ⟨added, still, log, came⟩ := first w opened
  rw [perform_bind]
  cases ha : (perform a w).1 with
  | error e =>
    rw [ha] at came
    exact ⟨added, still, log, came⟩
  | ok v =>
    rw [ha] at came
    obtain ⟨more, still', log', came'⟩ := next v _ came (perform a w).2 still
    refine ⟨added ++ more, still', ?_, ?_⟩
    · rw [log', log, List.append_assoc]
    · rwa [← List.append_assoc]

theorem Names.mono {a : Operation (StateM (σ × Log)) α} {Gives' : α → Log → Prop}
    (h : Names tx since a Gives Blames) (gives : ∀ v log, Gives v log → Gives' v log) :
    Names tx since a Gives' Blames := by
  intro w opened
  obtain ⟨added, still, log, came⟩ := h w opened
  refine ⟨added, still, log, ?_⟩
  cases ha : (perform a w).1 with
  | error e => rwa [ha] at came
  | ok v =>
    rw [ha] at came
    exact gives v _ came

/-- What is done with a result does not fail. -/
theorem Names.map {a : Operation (StateM (σ × Log)) α} {f : α → β}
    (h : Names tx since a (fun v => Then (f v)) Blames) : Names tx since (f <$> a) Then Blames := by
  rw [map_eq_pure_bind]
  exact h.bind fun _ _ given => .pure given

variable {settings : RepositorySettings} {disk : Disk (StateM σ)} {peer : Transport (StateM σ)}

/-- A failure names the URI that it is told to name. -/
theorem uri?_of_outcome {uri : String} {received : Except String Response} {e : DepositError}
    (h : outcome uri received = .error e) : e.uri? = some uri := by
  unfold outcome at h
  split at h
  · exact Except.error.inj h ▸ rfl
  · split at h
    · cases h
    · split at h
      · exact Except.error.inj h ▸ rfl
      · exact Except.error.inj h ▸ rfl

/-- The last exchange was a request that came to its response. -/
def CameTo (since : Log) (method : Method) (address : String) (response : Response) (log : Log) :
    Prop :=
  ∃ e, log = since ++ [e] ∧ Asks e method address ∧ e.success? = some response

/-- A request that fails names the URI that it is sent for. -/
theorem names_send (method : Method) (address : String) {headers : Headers}
    {body : Except String Bytes} (uri : String)
    (refused : ∀ e, Asks e method address → e.success? = none → Blames uri (since ++ [e]))
    (unsent : isSendable ⟨method, address, (logged settings disk peer).credentials ++ headers,
      body⟩ = false → Blames uri since) :
    Names tx since ((logged settings disk peer).send method address headers body uri)
      (CameTo since method address) Blames := by
  intro w opened
  have sends := @perform_send σ settings disk peer method address headers body uri w
  have failed {received : Except String Response} {e : DepositError} {log : Log}
      (h : outcome uri received = .error e) (blames : Blames uri log) :
      ∀ named ∈ e.uri?, Blames named log := by
    intro named hn
    rw [uri?_of_outcome h] at hn
    exact Option.some.inj hn ▸ blames
  rcases sends with ⟨-, sent⟩ | ⟨unsendable, reason, sent⟩
  · rw [sent]
    refine ⟨_, opened, rfl, ?_⟩
    cases came : outcome uri ((peer _).run w.2.1).1 with
    | error e =>
      refine failed came (refused _ ⟨rfl, rfl⟩ ?_)
      rw [Exchange.success?_eq, came]
      rfl
    | ok response =>
      refine ⟨_, rfl, ⟨rfl, rfl⟩, ?_⟩
      rw [Exchange.success?_eq, came]
      rfl
  · rw [sent]
    refine ⟨[], opened, (List.append_nil _).symm, ?_⟩
    rw [List.append_nil]
    cases came : outcome uri (.error reason) with
    | error e => exact failed came (unsent unsendable)
    | ok response => cases came

/-- A request that may name its URI in any case. -/
theorem names_send_always (method : Method) (address : String) {headers : Headers}
    {body : Except String Bytes} (uri : String) (blames : ∀ log, Blames uri log) :
    Names tx since ((logged settings disk peer).send method address headers body uri)
      (CameTo since method address) Blames :=
  names_send method address uri (fun _ _ _ => blames _) fun _ => blames _

/-- A request whose headers are proper and whose failure names its own address. -/
theorem names_send_address (method : Method) (address : String) {headers : Headers}
    {body : Except String Bytes} (proper : ∀ h ∈ headers, Http.isHeaderValue h.2 = true)
    (blames : ∀ more, EndsInVain method address (since ++ more) →
      Blames address (since ++ more)) :
    Names tx since ((logged settings disk peer).send method address headers body address)
      (CameTo since method address) Blames := by
  refine names_send method address address (fun e asks refused => ?_) fun unsent => ?_
  · exact blames [e] (.snoc asks (Exchange.isInVain_of_refused refused) since)
  · rw [isSendable_eq _ method address proper] at unsent
    have none := blames [] (.inl unsent)
    rwa [List.append_nil] at none

theorem names_enter (operation : String) :
    Names tx since (Client.enter operation : Operation (StateM (σ × Log)) Unit)
      (fun _ log => log = since) Blames := by
  unfold Client.enter
  refine Names.known fun s _ => ?_
  have entered : Names tx since (liftM (s.lifecycle.enter operation) :
      Operation (StateM (σ × Log)) Lifecycle) (fun _ log => log = since) Blames := by
    refine Names.compute (fun _ _ => rfl) fun e he => ?_
    unfold Lifecycle.enter Lifecycle.checkOpen at he
    split at he
    · cases he
      rfl
    · cases he
  refine entered.bind fun lifecycle since' given => ?_
  refine Names.change (fun _ => ?_) given
  rfl

/-! ## The operations -/

/-- A graph that was read is one that the peer gave, with URIs for addresses. -/
def ReadFrom (base tx : String) (read : Graph × Token) (log : Log) : Prop :=
  ∃ e ∈ log, ∃ g ∈ e.graph?, read.1 = g.rebase tx base

/-- **Reading a graph names its address** when it fails. -/
theorem names_fetchGraph (address : String)
    (blames : ∀ log, EndsInVain .get address log → Blames address log) :
    Names tx since ((logged settings disk peer).fetchGraph address)
      (ReadFrom (baseOf settings) tx) Blames := by
  unfold Client.fetchGraph
  have proper : ∀ h ∈ [("accept", Vocabulary.jsonLd)], Http.isHeaderValue h.2 = true := by
    decide +kernel
  refine (names_send_address .get address proper fun _ => blames _).bind fun response since' given => ?_
  obtain ⟨e, rfl, asks, came⟩ := given
  have he : e ∈ since ++ [e] := List.mem_append_right _ List.mem_cons_self
  have unreadable (reason : String) (unread : e.graph? = none) :
      ∀ uri ∈ (DepositError.failure address reason).uri?, Blames uri (since ++ [e]) := by
    intro uri named
    have vain : e.isInVain = true := by rw [Exchange.isInVain, if_pos asks.1, unread]; rfl
    exact Option.some.inj named ▸ blames _ (.snoc asks vain since)
  cases body : response.text? with
  | none => exact Names.throw (unreadable _ (by simp [Exchange.graph?, came, body]))
  | some text =>
    dsimp only
    cases json : Json.ofString? text with
    | none => exact Names.throw (unreadable _ (by simp [Exchange.graph?, came, body, json]))
    | some doc =>
      dsimp only
      have read : Names tx (since ++ [e])
          (liftM (JsonLd.toGraph doc) : Operation (StateM (σ × Log)) Graph)
          (fun g log => ∃ e ∈ log, g ∈ e.graph?) Blames := by
        refine Names.compute (fun g hg => ⟨e, he, ?_⟩) fun failure hf => ?_
        · simp [Exchange.graph?, asks.1, came, body, json, hg, Except.toOption]
        · obtain ⟨reason, rfl⟩ := JsonLd.toGraph_refuses hf
          rfl
      refine read.bind fun g since' given => Names.known fun s opened => Names.pure ?_
      obtain ⟨e, he, hg⟩ := given
      refine ⟨e, he, g, hg, ?_⟩
      dsimp only
      rw [opened]
      rfl

theorem names_fetch (uri : String) (blames : ∀ log,
      EndsInVain .get (toWire (baseOf settings) (some tx) uri) log →
        Blames (toWire (baseOf settings) (some tx) uri) log) :
    Names tx since ((logged settings disk peer).fetch uri) (ReadFrom (baseOf settings) tx)
      Blames := by
  unfold Client.fetch
  refine (names_enter _).bind fun _ since' same => ?_
  subst same
  refine Names.known fun s opened => ?_
  rw [opened]
  exact names_fetchGraph _ blames

/-- A patch that is written as an update names the URI. -/
theorem names_update (uri : String) (p : Patch) (token : Token) (blames : ∀ log, Blames uri log) :
    Names tx since ((logged settings disk peer).update uri p token) (fun _ _ => True) Blames := by
  unfold Client.update
  exact Names.known fun s _ => (names_send_always _ _ uri blames).bind fun _ _ _ => .pure trivial

/-- A patch that is written as a whole graph names the URI, or its address where it reads. -/
theorem names_replace (uri : String) (p : Patch) (token : Token) (blames : ∀ log, Blames uri log)
    (reads : ∀ log, EndsInVain .get (toWire (baseOf settings) (some tx) uri) log →
      Blames (toWire (baseOf settings) (some tx) uri) log) :
    Names tx since ((logged settings disk peer).replace uri p token) (fun _ _ => True) Blames := by
  unfold Client.replace
  refine Names.known fun s opened => ?_
  dsimp only
  rw [opened]
  refine (names_fetchGraph _ reads).bind fun read since' _ => ?_
  exact (names_send_always _ _ uri blames).bind fun _ _ _ => .pure trivial

/-- **A patch names the URI**; only one that is written as a whole graph can name its address, where
it reads. -/
theorem names_patch (uri : String) (p : Patch) (token : Token) (blames : ∀ log, Blames uri log)
    (reads : settings.patchMode = .replace →
      ∀ log, EndsInVain .get (toWire (baseOf settings) (some tx) uri) log →
        Blames (toWire (baseOf settings) (some tx) uri) log) :
    Names tx since ((logged settings disk peer).patch uri p token) (fun _ _ => True) Blames := by
  unfold Client.patch
  refine (names_enter _).bind fun _ since' _ => ?_
  by_cases empty : p.isEmpty
  · rw [if_pos empty]
    exact .pure trivial
  · rw [if_neg empty]
    cases mode : (logged settings disk peer).settings.patchMode with
    | sparqlUpdate => exact names_update uri p token blames
    | replace => exact names_replace uri p token blames (reads mode)

/-- What a deposit gives comes from addresses that the peer gave. -/
def PlacedFrom (base tx : String) (d : Deposited) (log : Log) : Prop :=
  (∃ address ∈ locations log, d.uri = fromWire base (some tx) address) ∧
    ∀ uri ∈ d.description, ∃ address ∈ descriptions log, uri = fromWire base (some tx) address

/-- Opening a file names nothing. -/
theorem names_creation (r : Resource) :
    Names tx since ((logged settings disk peer).creation r) (fun _ _ => True) Blames := by
  have silent {files : Files} {content : Content} (e : DepositError)
      (h : content.open? files = .error e) : e.uri? = none := by
    unfold Content.open? at h
    split at h
    · exact Except.error.inj h ▸ rfl
    · cases h
  unfold Client.creation
  cases r with
  | container id g children => exact .pure trivial
  | rdfSource id g => exact .pure trivial
  | binary id b d =>
    refine Names.bind (?_ : Names tx since _ (fun _ _ => True) Blames) fun view since' _ =>
      Names.bind (?_ : Names tx since' _ (fun _ _ => True) Blames) fun found since'' _ =>
        .pure trivial
    · cases b.content with
      | bytes bytes => exact .pure trivial
      | file path => exact .beside fun _ => trivial
    · exact .compute (fun _ _ => trivial) silent

/-- Writing a description names its address. -/
theorem names_putDescription (d : Description) (target : String)
    (blames : ∀ more, EndsInVain .put target (since ++ more) → Blames target (since ++ more)) :
    Names tx since ((logged settings disk peer).putDescription d target)
      (fun _ log => ∃ more, log = since ++ more) Blames := by
  unfold Client.putDescription
  have proper : ∀ h ∈ [("content-type", Vocabulary.turtle), ("prefer", preferLenient)],
      Http.isHeaderValue h.2 = true := by decide +kernel
  refine (names_send_address .put target proper blames).bind fun response since' given =>
    Names.pure ?_
  obtain ⟨e, same, -⟩ := given
  exact ⟨[e], same⟩

/-- A new resource is named where its description has no address, else the address of the
description, where it is written. -/
theorem names_describing (r : Resource) {response : Response} {uri : String}
    (placed : ∃ address ∈ locations since, uri = fromWire (baseOf settings) (some tx) address)
    (linked : ∀ d, Client.describedBy? response = some d → d ∈ descriptions since)
    (created : Blames uri since)
    (describes : ∀ log, ∀ address ∈ descriptions log, EndsInVain .put address log →
      Blames address log) :
    Names tx since (describing (logged settings disk peer) r response uri)
      (PlacedFrom (baseOf settings) tx) Blames := by
  unfold describing
  cases r.description? with
  | none => exact .pure ⟨placed, fun _ h => by cases h⟩
  | some d =>
    cases link : Client.describedBy? response with
    | none => exact .throw fun uri named => Option.some.inj named ▸ created
    | some target =>
      have still (more : Log) : target ∈ descriptions (since ++ more) :=
        stays_descriptions target since more (linked target link)
      refine (names_putDescription d target fun more => describes _ _ (still more)).bind
        fun _ since' given => Names.known fun s opened => Names.pure ?_
      obtain ⟨more, rfl⟩ := given
      obtain ⟨address, known, came⟩ := placed
      have later : address ∈ locations (since ++ more) := by
        rw [locations_append]
        exact List.mem_append_left _ known
      refine ⟨⟨address, later, came⟩, fun uri described => ⟨target, still more, ?_⟩⟩
      rw [← Option.some.inj described, opened]
      rfl

/-- Noting what was created asks nothing. -/
theorem names_note (uri : String) :
    Names tx since (modify fun s => { s with created := uri :: s.created } :
      Operation (StateM (σ × Log)) Unit) (fun _ log => log = since) Blames := by
  refine Names.change (fun _ => ?_) rfl
  rfl

/-- **A deposit names its parent**, a URI that was created without a description, or the address of
a description, where it is written. -/
theorem names_deposit (r : Resource) (parent : String) (blames : ∀ log, Blames parent log)
    (created : ∀ log, ∀ address ∈ locations log,
      Blames (fromWire (baseOf settings) (some tx) address) log)
    (describes : ∀ log, ∀ address ∈ descriptions log, EndsInVain .put address log →
      Blames address log) :
    Names tx since ((logged settings disk peer).deposit r parent) (PlacedFrom (baseOf settings) tx)
      Blames := by
  rw [deposit_eq]
  refine (names_enter _).bind fun _ since' _ => Names.known fun s opened => ?_
  refine (names_creation r).bind fun request since' _ => ?_
  refine (names_send_always .post _ parent blames).bind fun response since'' given => ?_
  obtain ⟨e, rfl, asks, came⟩ := given
  have creates := asks.1
  unfold noting
  cases located : response.header? "location" with
  | none => exact .throw fun uri named => Option.some.inj named ▸ blames _
  | some address =>
    have last : e ∈ since' ++ [e] := List.mem_append_right _ List.mem_cons_self
    have location : e.location? = some address := by
      rw [Exchange.location?, if_pos creates, came]
      exact located
    have linked (d : String) (link : Client.describedBy? response = some d) :
        d ∈ descriptions (since' ++ [e]) := by
      refine List.mem_filterMap.mpr ⟨e, last, ?_⟩
      rw [Exchange.description?, if_pos creates, came]
      exact link
    have known : address ∈ locations (since' ++ [e]) := List.mem_filterMap.mpr ⟨e, last, location⟩
    refine Names.known fun s opened => ?_
    rw [opened]
    refine (names_note _).bind fun _ since'' same => ?_
    subst same
    exact names_describing r ⟨address, known, rfl⟩ linked (created _ _ known) describes

/-! ## What callers see -/

/-- Which failure of a call names an address as it is. The graph at the address was asked for in
vain, for a patch only where it is written as a whole graph; or the description of a new binary was
written in vain. -/
def NamesAddress (settings : RepositorySettings) (tx address : String) (log : Log) :
    SessionCall → Prop
  | .deposit .. => address ∈ descriptions log ∧ EndsInVain .put address log
  | .fetch uri =>
    address = toWire (baseOf settings) (some tx) uri ∧ EndsInVain .get address log
  | .patch uri _ _ => settings.patchMode = .replace ∧
    address = toWire (baseOf settings) (some tx) uri ∧ EndsInVain .get address log
  | .commit | .rollback => False

/-- The URIs of an answer are those that resources have outside, if no address has the transaction's
segment twice. -/
def ShowsCanonical (base tx : String) (answer : SessionAnswer) (log : Log) : Prop :=
  (∀ e ∈ log, e.isPlain base tx = true) → ∀ u ∈ answer.uris, isBelow tx u = false

/-- So is the URI of a failure, with the exception of some requests in vain. -/
def BlamesCanonical (settings : RepositorySettings) (tx : String) (call : SessionCall) (u : String)
    (log : Log) : Prop :=
  (∀ e ∈ log, e.isPlain (baseOf settings) tx = true) →
    isBelow tx u = false ∨ NamesAddress settings tx u log call

/-- A location of a plain exchange comes out canonical. -/
theorem isBelow_location {base address : String} {log : Log} (within : isBelow base tx = true)
    (plain : ∀ e ∈ log, e.isPlain base tx = true) (known : address ∈ locations log) :
    isBelow tx (fromWire base (some tx) address) = false := by
  obtain ⟨e, he, given⟩ := List.mem_filterMap.mp known
  exact isBelow_fromWire within ((Exchange.isPlain_iff.mp (plain e he)).1 address given)

theorem PlacedFrom.shows {base : String} {d : Deposited} {log : Log}
    (within : isBelow base tx = true) (h : PlacedFrom base tx d log) :
    ShowsCanonical base tx (.deposited d) log := by
  intro plain u hu
  rcases List.mem_cons.mp hu with rfl | hu
  · obtain ⟨address, known, created⟩ := h.1
    rw [created]
    exact isBelow_location within plain known
  · obtain ⟨address, known, described⟩ := h.2 u (Option.mem_toList.mp hu)
    obtain ⟨e, he, given⟩ := List.mem_filterMap.mp known
    rw [described]
    exact isBelow_fromWire within ((Exchange.isPlain_iff.mp (plain e he)).2.1 address given)

theorem ReadFrom.shows {base : String} {read : Graph × Token} {log : Log}
    (within : isBelow base tx = true) (h : ReadFrom base tx read log) :
    ShowsCanonical base tx (.fetched read.1 read.2) log := by
  intro plain u hu
  obtain ⟨e, he, g, hg, moved⟩ := h
  change u ∈ read.1.iris at hu
  rw [moved] at hu
  obtain ⟨j, hj, same⟩ := exists_of_mem_iris_rebase hu
  rw [same, ← fromWire_some]
  exact isBelow_fromWire within ((Exchange.isPlain_iff.mp (plain e he)).2.2 g hg j hj)

/-- What a call about a canonical URI names. -/
theorem names_answer (within : isBelow (baseOf settings) tx = true) {call : SessionCall}
    {uri : String} (about : call.uri? = some uri) (canonical : isBelow tx uri = false) :
    Names tx since ((logged settings disk peer).session.answer call)
      (ShowsCanonical (baseOf settings) tx) (BlamesCanonical settings tx call) := by
  cases call with
  | deposit r parent =>
    obtain rfl := Option.some.inj about
    refine Names.map ((names_deposit r parent (fun _ _ => .inl canonical)
      (fun log address known plain => .inl (isBelow_location within plain known))
      fun log address known vain _ => .inr ⟨known, vain⟩).mono fun d log placed =>
        placed.shows within)
  | fetch uri =>
    refine Names.map ((names_fetch uri fun _ vain _ => .inr ⟨rfl, vain⟩).mono
      fun read log came => came.shows within)
  | patch uri p token =>
    obtain rfl := Option.some.inj about
    refine Names.map ((names_patch uri p token (fun _ _ => .inl canonical)
      fun mode log vain _ => .inr ⟨mode, rfl, vain⟩).mono fun _ log _ _ u hu => by cases hu)
  | commit => cases about
  | rollback => cases about

end Logic

/-- **A read that fails names the address that it read**, so a resource of the repository is named
below the transaction. -/
theorem failed_fetch_names_address {σ : Type} {settings : RepositorySettings}
    {disk : Disk (StateM σ)} {peer : Transport (StateM σ)} {w : World σ} {tx uri u : String}
    {e : DepositError} (opened : w.1.transaction = some tx)
    (failed : (perform ((logged settings disk peer).fetch uri) w).1 = .error e)
    (named : u ∈ e.uri?) :
    u = toWire (baseOf settings) (some tx) uri ∧
      (isBelow (baseOf settings) uri = true → isBelow tx u = true) := by
  have address : u = toWire (baseOf settings) (some tx) uri := by
    obtain ⟨added, -, -, came⟩ := @names_fetch σ tx [] (fun named _ => named = toWire _ _ uri)
      settings disk peer uri (fun _ _ => rfl) w opened
    rw [failed] at came
    exact came u named
  exact ⟨address, fun below => address ▸ isBelow_toWire below⟩

/-- **Callers see canonical URIs.** In a transaction below the repository, a deposit, a read or a
patch that is about a URI outside the transaction answers with URIs outside the transaction, and a
failure names one. There is one kind of exception: where the last request asked for a graph in vain,
its address is named, and where it was to write the description of a new binary, the address of
that. The peer may answer anything, as long as no address has the transaction's segment twice. -/
theorem calls_canonical {σ : Type} (settings : RepositorySettings) (disk : Disk (StateM σ))
    (peer : Transport (StateM σ)) (w : World σ) (call : SessionCall) {tx uri : String}
    (within : isBelow (baseOf settings) tx = true) (opened : w.1.transaction = some tx)
    (about : call.uri? = some uri) (canonical : isBelow tx uri = false) :
    let came := perform ((logged settings disk peer).session.answer call) w
    ∃ added, came.2.2.2 = w.2.2 ++ added ∧
      ((∀ e ∈ added, e.isPlain (baseOf settings) tx = true) →
        (∀ answer, came.1 = .ok answer → ∀ u ∈ answer.uris, isBelow tx u = false) ∧
        ∀ e, came.1 = .error e → ∀ u ∈ e.uri?,
          isBelow tx u = false ∨ NamesAddress settings tx u added call) := by
  obtain ⟨added, -, log, named⟩ :=
    @names_answer σ tx [] settings disk peer within call uri about canonical w opened
  refine ⟨added, log, fun plain => ⟨fun answer ok => ?_, fun e failed => ?_⟩⟩
  · rw [ok] at named
    exact named plain
  · rw [failed] at named
    exact fun u hu => named u hu plain

/-- Settings of a repository with transactions. -/
def transactionSettings : RepositorySettings := { baseUrl := "http://h/rest" }

/-- No file can be read. -/
def noFiles : Disk (StateM Nat) := fun _ => pure (.failure FileView.noSuchFile)

/-- A session in the transaction that the peer of these runs opens. -/
def inTransaction : World Nat := (⟨some "http://h/rest/tx", .active, []⟩, 1, [])

theorem calls_canonical_deposit :
    let came := perform ((logged transactionSettings noFiles transactionPeer).session.answer
      (.deposit (.rdfSource "r" Graph.empty) "http://h/rest/c")) inTransaction
    came.1 = .ok (.deposited ⟨"http://h/rest/1", none⟩) ∧
      ∃ added, came.2.2.2 = inTransaction.2.2 ++ added ∧
        ((∀ e ∈ added, e.isPlain (baseOf transactionSettings) "http://h/rest/tx" = true) →
          (∀ answer, came.1 = .ok answer →
            ∀ u ∈ answer.uris, isBelow "http://h/rest/tx" u = false) ∧
          ∀ e, came.1 = .error e → ∀ u ∈ e.uri?, isBelow "http://h/rest/tx" u = false ∨
            NamesAddress transactionSettings "http://h/rest/tx" u added
              (.deposit (.rdfSource "r" Graph.empty) "http://h/rest/c")) :=
  ⟨by decide +kernel, calls_canonical transactionSettings noFiles transactionPeer inTransaction
    (.deposit (.rdfSource "r" Graph.empty) "http://h/rest/c") (by decide +kernel) rfl rfl
    (by decide +kernel)⟩

/-- A peer that opens a transaction and has nothing in it. -/
def emptyPeer : Transport (StateM Nat) := fun r => do
  if r.method = .post then return .ok ⟨201, [("location", "http://h/rest/tx")], some []⟩
  else return .ok ⟨404, [], some []⟩

/-- **A read that fails names its address.** A session opens a transaction and reads a resource that
does not exist; the failure names the resource below the transaction. -/
theorem failed_read_escapes :
    let client := logged transactionSettings noFiles emptyPeer
    let opened := perform client.openSession (State.initial, 0, [])
    let came := perform (client.session.answer (.fetch "http://h/rest/a")) opened.2
    opened.1.isOk = true ∧ opened.2.1.transaction = some "http://h/rest/tx" ∧
      isBelow (baseOf transactionSettings) "http://h/rest/tx" = true ∧
      isBelow "http://h/rest/tx" "http://h/rest/a" = false ∧
      (∀ e ∈ came.2.2.2, e.isPlain (baseOf transactionSettings) "http://h/rest/tx" = true) ∧
      came.1 = .error (.failure "http://h/rest/tx/a" "404 ") ∧
      isBelow "http://h/rest/tx" "http://h/rest/tx/a" = true := by
  decide +kernel

end Ldp

end LinkedDeposit
