import LinkedDeposit.Proofs.Ldp.Operation
import LinkedDeposit.Proofs.Link.Rebase

/-!
# The two ways to patch over HTTP

A session sends a patch as an update, or it reads the graph, patches it and writes the whole back.
The first way moves the patch to the addresses of the transaction; the second moves the graph to
URIs, patches it there and moves the result back. That the two write the same rests on
`Patch.rebase_applyTo`; what is sent is read off a transport that notes its requests
(`recording`). A request that cannot be sent is not noted.

Results:
* `requests_patch_sparqlUpdate`: an update is one request.
* `requests_patch_replace`: a replacement is two, if the peer gives a graph.
* `patch_modes_agree`: both go to one address under one condition, and write one graph.
-/

namespace LinkedDeposit.Ldp

open Http (Request Response Transport Method Headers)

/-- A transport that notes the requests that it carries. -/
def recording {σ : Type} (peer : Transport (StateM σ)) :
    Transport (StateM (σ × List Request)) := fun r x =>
  (((peer r).run x.1).1, (((peer r).run x.1).2, x.2 ++ [r]))

/-- What a recording transport has noted after an operation. -/
def notesAfter {σ α : Type} (a : Operation (StateM (σ × List Request)) α) (s : State)
    (x : σ × List Request) : List Request :=
  ((a.run.run s).run x).2.2

/-- The request for the graph at an address. -/
def graphRequest (credentials : Headers) (address : String) : Request :=
  ⟨.get, address, credentials ++ [("accept", Vocabulary.jsonLd)], .ok []⟩

/-- The request that sends a patch as an update. -/
def updateRequest (credentials : Headers) (address : String) (p : Patch) (token : Token) :
    Request :=
  ⟨.patch, address,
    credentials ++ [("content-type", Vocabulary.sparqlUpdate), ("if-match", token)],
    .ok (Text.toUtf8 p.toSparql)⟩

/-- The request that replaces a graph. -/
def replaceRequest (credentials : Headers) (address : String) (g : Graph) (token : Token) :
    Request :=
  ⟨.put, address,
    credentials ++ [("content-type", Vocabulary.nTriples), ("if-match", token),
      ("prefer", preferLenient)],
    .ok (Text.toUtf8 g.toNTriples)⟩

/-- A patch with addresses for URIs. -/
def patchToWire (base : String) (transaction : Option String) (p : Patch) : Patch :=
  ⟨graphToWire base transaction p.added, graphToWire base transaction p.removed⟩

/-- **Replacing writes the graph that the update makes.** A graph with addresses that is read,
patched and written back is patched by the patch with addresses. -/
theorem graphToWire_applyTo {base : String} {transaction : Option String} {p : Patch} {g : Graph}
    (known : ∀ tx ∈ transaction, ∀ iri ∈ g.iris, isBelow base iri = true → isBelow tx iri = true)
    (foreign : ∀ tx ∈ transaction, ∀ iri ∈ p.removed.iris, isBelow tx iri = false) :
    graphToWire base transaction (p.applyTo (graphFromWire base transaction g)) =
      (patchToWire base transaction p).applyTo g := by
  cases transaction with
  | none => rfl
  | some tx => exact Patch.rebase_applyTo (known tx rfl) (foreign tx rfl)

section Requests

variable {σ : Type} {c : Client (StateM (σ × List Request))} {peer : Transport (StateM σ)}

/-- A recording transport carries a request that can be sent to the peer, and notes it. -/
theorem run_checked (carried : c.transport = recording peer) {r : Request}
    (h : isSendable r = true) (x : σ × List Request) :
    (c.transport.checked r).run x =
      (((peer r).run x.1).1, (((peer r).run x.1).2, x.2 ++ [r])) := by
  unfold isSendable at h
  unfold Transport.checked
  rw [carried, Option.isNone_iff_eq_none.mp h]
  rfl

/-- What can replace a graph can ask for it. -/
theorem isSendable_graphRequest {credentials : Headers} {address : String} {g : Graph}
    {token : Token} (h : isSendable (replaceRequest credentials address g token) = true) :
    isSendable (graphRequest credentials address) = true := by
  obtain ⟨url, hu, http, headers⟩ := isSendable_iff.mp h
  refine isSendable_iff.mpr ⟨url, hu, http, fun field hf => ?_⟩
  rcases List.mem_append.mp hf with hf | hf
  · exact headers field (List.mem_append_left _ hf)
  · rw [List.mem_singleton.mp hf]
    decide +kernel

/-- What a session sends once is noted, if it can be sent. -/
theorem notes_send (carried : c.transport = recording peer) (method : Method) (address : String)
    (headers : Headers) (body : Except String Bytes) (uri : String) (s : State)
    (x : σ × List Request) :
    (((c.send method address headers body uri).run.run s).run x).2.2 =
      x.2 ++ [⟨method, address, c.credentials ++ headers, body⟩].filter isSendable := by
  let r : Request := ⟨method, address, c.credentials ++ headers, body⟩
  cases sent : isSendable r with
  | true =>
    rw [run_send (run_checked carried sent x), List.filter_cons_of_pos sent]
    rfl
  | false =>
    obtain ⟨reason, refused⟩ := run_checked_unsent c sent x
    rw [run_send refused, List.filter_cons_of_neg (Bool.not_eq_true _ ▸ sent)]
    exact (List.append_nil x.2).symm

/-- An update is one request. -/
theorem requests_update (carried : c.transport = recording peer) (uri : String) (p : Patch)
    {token : Token} (named : token ≠ Client.noToken) (s : State) (x : σ × List Request) :
    notesAfter (c.update uri p token) s x =
      x.2 ++ [updateRequest c.credentials (toWire c.base s.transaction uri)
        (patchToWire c.base s.transaction p) token].filter isSendable := by
  have condition : Client.condition token = [("if-match", token)] := if_neg named
  unfold notesAfter Client.update
  rw [run_bind_ok (run_get s x), snd_run_discard, notes_send carried, condition]
  rfl

/-- Reading a graph is one request, too, and gives what the answer holds. -/
theorem run_fetchGraph (carried : c.transport = recording peer) {address text : String}
    {response : Response} {doc : Json} {g : Graph} {x : σ × List Request}
    (sent : isSendable (graphRequest c.credentials address) = true)
    (got : ((peer (graphRequest c.credentials address)).run x.1).1 = .ok response)
    (success : response.isSuccess = true) (read : response.text? = some text)
    (parsed : Json.ofString? text = some doc) (loaded : JsonLd.toGraph doc = .ok g) (s : State) :
    ∃ token y, ((c.fetchGraph address).run.run s).run x =
      ((.ok (graphFromWire c.base s.transaction g, token), s),
        (y, x.2 ++ [graphRequest c.credentials address])) := by
  have brought := run_checked carried sent x
  rw [got] at brought
  have asked := run_send brought address s
  rw [outcome, if_pos success] at asked
  generalize ((peer (graphRequest c.credentials address)).run x.1).2 = y at asked
  have graph : ((liftM (JsonLd.toGraph doc) : Operation (StateM (σ × List Request)) Graph).run.run
      s).run (y, x.2 ++ [graphRequest c.credentials address]) =
        ((.ok g, s), (y, x.2 ++ [graphRequest c.credentials address])) := by
    rw [loaded]
    rfl
  refine ⟨(response.header? "etag").getD Client.noToken, y, ?_⟩
  unfold Client.fetchGraph
  rw [run_bind_ok asked, read]
  dsimp only
  rw [parsed]
  dsimp only
  rw [run_bind_ok graph, run_bind_ok (run_get s _)]
  rfl

/-- Reading a graph fails without a request if the request cannot be sent. -/
theorem run_fetchGraph_unsent (c : Client (StateM (σ × List Request))) {address : String}
    (unsent : isSendable (graphRequest c.credentials address) = false) (s : State)
    (x : σ × List Request) :
    ∃ e, ((c.fetchGraph address).run.run s).run x = ((.error e, s), x) := by
  obtain ⟨reason, refused⟩ := run_checked_unsent c unsent x
  exact ⟨_, run_bind_error (run_send refused address s)⟩

/-- Replacing a graph is two requests, if the first can be sent. -/
theorem requests_replace (carried : c.transport = recording peer) {uri text : String} (p : Patch)
    (token : Token) {response : Response} {doc : Json} {g : Graph} {s : State}
    {x : σ × List Request}
    (got : ((peer (graphRequest c.credentials (toWire c.base s.transaction uri))).run x.1).1 =
      .ok response)
    (success : response.isSuccess = true) (read : response.text? = some text)
    (parsed : Json.ofString? text = some doc) (loaded : JsonLd.toGraph doc = .ok g) :
    notesAfter (c.replace uri p token) s x =
      x.2 ++ [graphRequest c.credentials (toWire c.base s.transaction uri),
        replaceRequest c.credentials (toWire c.base s.transaction uri)
          (graphToWire c.base s.transaction
            (p.applyTo (graphFromWire c.base s.transaction g))) token].filter isSendable := by
  let address := toWire c.base s.transaction uri
  let written := graphToWire c.base s.transaction (p.applyTo (graphFromWire c.base s.transaction g))
  unfold notesAfter Client.replace
  rw [run_bind_ok (run_get s x)]
  cases sent : isSendable (graphRequest c.credentials address) with
  | true =>
    obtain ⟨etag, y, fetched⟩ := run_fetchGraph carried sent got success read parsed loaded s
    dsimp only
    rw [run_bind_ok fetched, snd_run_discard, notes_send carried, List.filter_cons_of_pos sent,
      List.append_assoc]
    rfl
  | false =>
    have unsent : isSendable (replaceRequest c.credentials address written token) = false := by
      refine Bool.eq_false_iff.mpr fun h => ?_
      rw [isSendable_graphRequest h] at sent
      cases sent
    obtain ⟨e, failed⟩ := run_fetchGraph_unsent c sent s x
    have none : [graphRequest c.credentials address,
        replaceRequest c.credentials address written token].filter isSendable = [] := by
      simp [sent, unsent]
    dsimp only
    rw [run_bind_error failed]
    change x.2 = x.2 ++ [graphRequest c.credentials address,
      replaceRequest c.credentials address written token].filter isSendable
    rw [none, List.append_nil]

/-- A patch that names a triple is sent in the way that the settings choose. -/
theorem notes_patch {s : State} (unfinished : s.lifecycle.isFinished = false) {p : Patch}
    (proper : p.isEmpty = false) (uri : String) (token : Token) (x : σ × List Request) :
    notesAfter (c.patch uri p token) s x =
      notesAfter (match c.settings.patchMode with
        | .sparqlUpdate => c.update uri p token
        | .replace => c.replace uri p token) { s with lifecycle := .active } x := by
  have entered := run_enter unfinished "apply patch" x
  have named : ¬p.isEmpty = true := by rw [proper]; exact Bool.false_ne_true
  unfold notesAfter Client.patch
  cases c.settings.patchMode with
  | sparqlUpdate => rw [run_bind_ok entered, if_neg named]
  | replace => rw [run_bind_ok entered, if_neg named]

end Requests

section Modes

variable {σ : Type} {c : Client (StateM (σ × List Request))} {peer : Transport (StateM σ)}
  {s : State} {p : Patch}

/-- In one mode a patch is one request. -/
theorem requests_patch_sparqlUpdate (mode : c.settings.patchMode = .sparqlUpdate)
    (carried : c.transport = recording peer) (unfinished : s.lifecycle.isFinished = false)
    (proper : p.isEmpty = false) (uri : String) {token : Token} (named : token ≠ Client.noToken)
    (x : σ × List Request) :
    notesAfter (c.patch uri p token) s x =
      x.2 ++ [updateRequest c.credentials (toWire c.base s.transaction uri)
        (patchToWire c.base s.transaction p) token].filter isSendable := by
  rw [notes_patch unfinished proper, mode]
  exact requests_update carried uri p named { s with lifecycle := .active } x

/-- In the other it is two. -/
theorem requests_patch_replace (mode : c.settings.patchMode = .replace)
    (carried : c.transport = recording peer) (unfinished : s.lifecycle.isFinished = false)
    (proper : p.isEmpty = false) {uri text : String} (token : Token) {response : Response}
    {doc : Json} {g : Graph} {x : σ × List Request}
    (got : ((peer (graphRequest c.credentials (toWire c.base s.transaction uri))).run x.1).1 =
      .ok response)
    (success : response.isSuccess = true) (read : response.text? = some text)
    (parsed : Json.ofString? text = some doc) (loaded : JsonLd.toGraph doc = .ok g)
    (known : ∀ tx ∈ s.transaction, ∀ iri ∈ g.iris,
      isBelow c.base iri = true → isBelow tx iri = true)
    (foreign : ∀ tx ∈ s.transaction, ∀ iri ∈ p.removed.iris, isBelow tx iri = false) :
    notesAfter (c.patch uri p token) s x =
      x.2 ++ [graphRequest c.credentials (toWire c.base s.transaction uri),
        replaceRequest c.credentials (toWire c.base s.transaction uri)
          ((patchToWire c.base s.transaction p).applyTo g) token].filter isSendable := by
  rw [notes_patch unfinished proper, mode, ← graphToWire_applyTo known foreign]
  let active : State := { s with lifecycle := .active }
  exact requests_replace (s := active) carried p token got success read parsed loaded

end Modes

/-- What a session sends over a peer when it patches in a mode. -/
def patchRequests {σ : Type} (settings : RepositorySettings) (mode : PatchMode)
    (disk : Disk (StateM (σ × List Request))) (peer : Transport (StateM σ)) (s : State) (x : σ)
    (uri : String) (p : Patch) (token : Token) : List Request :=
  let client : Client (StateM (σ × List Request)) :=
    ⟨{ settings with patchMode := mode }, disk, recording peer⟩
  notesAfter (client.patch uri p token) s (x, [])

/-- **Both ways to patch write the same graph.** Whatever a session patches, with or without a
transaction and over whatever peer: when the peer answers the question for the graph by `g`, the
replacement is the graph that the update makes of `g`. Both go to the same address, under the same
condition. In a transaction this needs that the peer names nothing below the repository outside the
transaction, and that nothing below the transaction is removed. -/
theorem patch_modes_agree {σ : Type} (settings : RepositorySettings)
    (disk : Disk (StateM (σ × List Request))) (peer : Transport (StateM σ)) (s : State) (x : σ)
    (uri : String) (p : Patch) (token : Token) (response : Response) (text : String) (doc : Json)
    (g : Graph) :
    let requests (mode : PatchMode) := patchRequests settings mode disk peer s x uri p token
    let credentials := Client.credentials ⟨settings, disk, recording peer⟩
    let address := toWire (baseOf settings) s.transaction uri
    let moved := patchToWire (baseOf settings) s.transaction p
    s.lifecycle.isFinished = false → p.isEmpty = false → token ≠ Client.noToken →
    ((peer (graphRequest credentials address)).run x).1 = .ok response →
    response.isSuccess = true → response.text? = some text → Json.ofString? text = some doc →
    JsonLd.toGraph doc = .ok g →
    (∀ tx ∈ s.transaction, ∀ iri ∈ g.iris,
      isBelow (baseOf settings) iri = true → isBelow tx iri = true) →
    (∀ tx ∈ s.transaction, ∀ iri ∈ p.removed.iris, isBelow tx iri = false) →
    requests .sparqlUpdate =
        [updateRequest credentials address moved token].filter isSendable ∧
      requests .replace = [graphRequest credentials address,
        replaceRequest credentials address (moved.applyTo g) token].filter isSendable := by
  intro requests credentials address moved unfinished proper named got success read parsed loaded
    known foreign
  let client (mode : PatchMode) : Client (StateM (σ × List Request)) :=
    ⟨{ settings with patchMode := mode }, disk, recording peer⟩
  constructor
  · exact (requests_patch_sparqlUpdate (c := client .sparqlUpdate) rfl rfl unfinished proper uri
      named (x, [])).trans (List.nil_append _)
  · exact (requests_patch_replace (c := client .replace) (x := (x, [])) rfl rfl unfinished proper
      token got success read parsed loaded known foreign).trans (List.nil_append _)

/-- A graph in a transaction: a resource links to another one there. -/
def linkedText : String :=
  "[\x7b\"@id\":\"http://h/tx/a\",\"http://v/p\":[\x7b\"@id\":\"http://h/tx/b\"\x7d]\x7d]"

/-- A peer that answers every request by that graph. -/
def linkedPeer : Transport (StateM Unit) := fun _ =>
  pure (.ok ⟨200, [], some (Text.toUtf8 linkedText)⟩)

/-- A patch that replaces the link. -/
def relinking : Patch :=
  ⟨Graph.ofList [⟨.iri "http://h/a", "http://v/p", .iri "http://h/c"⟩],
    Graph.ofList [⟨.iri "http://h/a", "http://v/p", .iri "http://h/b"⟩]⟩

theorem patch_modes_agree_relinking :
    let settings : RepositorySettings := { baseUrl := "http://h" }
    let disk : Disk (StateM (Unit × List Request)) := fun _ => pure (.failure FileView.noSuchFile)
    let requests (mode : PatchMode) : List Request :=
      patchRequests settings mode disk linkedPeer ⟨some "http://h/tx", .active, []⟩ () "http://h/a"
        relinking "\"e1\""
    requests .sparqlUpdate = [⟨.patch, "http://h/tx/a",
        [("content-type", Vocabulary.sparqlUpdate), ("if-match", "\"e1\"")], .ok (Text.toUtf8
          ("DELETE DATA \x7b\n<http://h/tx/a> <http://v/p> <http://h/tx/b> .\n\x7d ;\n" ++
            "INSERT DATA \x7b\n<http://h/tx/a> <http://v/p> <http://h/tx/c> .\n\x7d"))⟩] ∧
      requests .replace = [⟨.get, "http://h/tx/a", [("accept", Vocabulary.jsonLd)], .ok []⟩,
        ⟨.put, "http://h/tx/a", [("content-type", Vocabulary.nTriples), ("if-match", "\"e1\""),
          ("prefer", preferLenient)],
          .ok (Text.toUtf8 "<http://h/tx/a> <http://v/p> <http://h/tx/c> .\n")⟩] := by
  intro settings disk requests
  let g := Graph.ofList [⟨.iri "http://h/tx/a", "http://v/p", .iri "http://h/tx/b"⟩]
  let moved := patchToWire (baseOf settings) (some "http://h/tx") relinking
  have address : toWire (baseOf settings) (some "http://h/tx") "http://h/a" = "http://h/tx/a" := by
    decide +kernel
  have update : moved.toSparql =
      "DELETE DATA \x7b\n<http://h/tx/a> <http://v/p> <http://h/tx/b> .\n\x7d ;\n" ++
        "INSERT DATA \x7b\n<http://h/tx/a> <http://v/p> <http://h/tx/c> .\n\x7d" := by
    decide +kernel
  have replacement : (moved.applyTo g).toNTriples =
      "<http://h/tx/a> <http://v/p> <http://h/tx/c> .\n" := by decide +kernel
  have read : (⟨200, [], some (Text.toUtf8 linkedText)⟩ : Response).text? = some linkedText := by
    decide +kernel
  have known : ∀ tx ∈ some "http://h/tx", ∀ iri ∈ g.iris,
      isBelow (baseOf settings) iri = true → isBelow tx iri = true := by decide +kernel
  have foreign : ∀ tx ∈ some "http://h/tx", ∀ iri ∈ relinking.removed.iris,
      isBelow tx iri = false := by decide +kernel
  have found : ((Json.ofString? linkedText).bind fun doc => (JsonLd.toGraph doc).toOption) =
      some g := by decide +kernel
  obtain ⟨doc, parsed, found⟩ := Option.bind_eq_some_iff.mp found
  have loaded : JsonLd.toGraph doc = .ok g := by
    cases loaded : JsonLd.toGraph doc with
    | error e =>
      rw [loaded] at found
      cases found
    | ok g' =>
      rw [loaded] at found
      rw [Option.some.inj found]
  obtain ⟨updated, replaced⟩ := patch_modes_agree settings disk linkedPeer
    ⟨some "http://h/tx", .active, []⟩ () "http://h/a" relinking "\"e1\"" _ linkedText doc g rfl
    (by decide +kernel) (by decide) rfl rfl read parsed loaded known foreign
  have sent : ∀ r ∈ [updateRequest [] "http://h/tx/a" moved "\"e1\"",
      graphRequest [] "http://h/tx/a",
      replaceRequest [] "http://h/tx/a" (moved.applyTo g) "\"e1\""], isSendable r = true := by
    decide +kernel
  rw [address] at updated replaced
  constructor
  · refine updated.trans ((List.filter_eq_self.mpr fun r hr => ?_).trans ?_)
    · exact sent r (List.mem_append_left _ hr)
    · rw [updateRequest, update]
      rfl
  · refine replaced.trans ((List.filter_eq_self.mpr fun r hr => ?_).trans ?_)
    · exact sent r (List.mem_cons_of_mem _ hr)
    · rw [replaceRequest, replacement]
      rfl

end LinkedDeposit.Ldp
