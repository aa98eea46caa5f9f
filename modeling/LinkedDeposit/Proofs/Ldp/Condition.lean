import LinkedDeposit.Proofs.Ldp.Lifetime

/-!
# Conditional writes

A patch is written under the condition that the resource is still the one that was read: the entity
tag that came with its graph goes back in `if-match`, in whichever way the patch is written. The two
ways part where no tag came. An update then leaves the condition out; a replacement sends an empty
one, which no resource meets.

A session hands the tag to its caller as a token, and the empty token stands for none, so the
results are about a graph that was read at some time (`perform_fetchGraph_ok`) and a patch that is
written later with its token.

Results:
* `perform_fetchGraph_ok`: a graph that was read came with an answer, and the token is its tag.
* `writes_update`, `writes_replace`: in either way, a patch is one write under a condition.
* `patch_conditional`: the condition is the tag, and what the write has come to is its answer.
* `untagged_replacement_conditional`: a replacement without a tag has a condition nevertheless.
-/

namespace LinkedDeposit.Ldp

open Http (Request Response Transport Method Headers)

/-- The values of a request's condition on the state of the resource. -/
def ifMatch (headers : Headers) : List String := (headers.filter (·.1 = "if-match")).map (·.2)

/-- The entity tag of a response, if it gives one that is not empty. -/
def entityTag? (response : Response) : Option String :=
  (response.header? "etag").filter (· ≠ Client.noToken)

/-- The condition under which a patch is written after a graph came with a tag, or without one. -/
def conditions (mode : PatchMode) (tag : Option String) : List String :=
  match mode with
  | .sparqlUpdate => tag.toList
  | .replace => [tag.getD Client.noToken]

/-- What a write has come to, by what came back for it. Failures name the URI of the caller. -/
inductive Verdict (uri : String) : Except String Response → Except DepositError Unit → Prop where
  | written {response : Response} (success : 200 ≤ response.status ∧ response.status < 300) :
    Verdict uri (.ok response) (.ok ())
  | stale {response : Response} (failed : response.status = 412) :
    Verdict uri (.ok response) (.error (.concurrentModification uri))
  | refused {response : Response} (other : ¬(200 ≤ response.status ∧ response.status < 300))
    (otherwise : response.status ≠ 412) (reason : String) :
    Verdict uri (.ok response) (.error (.failure uri reason))
  | unanswered (cause reason : String) :
    Verdict uri (.error cause) (.error (.failure uri reason))

section Writes

variable {σ : Type}

/-- A write that is due in a world and what it has come to: one request to the address, with the
condition, or a failure where nothing can be sent to the address. -/
inductive Writes (method : Method) (address uri : String) (condition : List String)
    (due : World σ) : Except DepositError Unit × World σ → Prop where
  | answered {r : Request} {received : Except String Response} {result : Except DepositError Unit}
    {x : σ} (asks : r.method = method ∧ r.url = address)
    (conditional : ifMatch r.headers = condition) (verdict : Verdict uri received result)
    (reachable : isReachable address = true) :
    Writes method address uri condition due (result, due.1, x, due.2.2 ++ [⟨r, received⟩])
  | unreachable (lost : isReachable address = false) (reason : String) :
    Writes method address uri condition due (.error (.failure uri reason), due)

/-- What a session is in when it has begun an operation. -/
def World.active (w : World σ) : World σ := ({ w.1 with lifecycle := .active }, w.2)

theorem perform_enter {w : World σ} (unfinished : w.1.lifecycle.isFinished = false)
    (operation : String) :
    perform (Client.enter operation : Operation (StateM (σ × Log)) Unit) w =
      (.ok (), w.active) := by
  unfold perform
  rw [run_enter unfinished]
  rfl

/-! ## Answers -/

/-- What an answer comes to is its verdict. -/
theorem verdict_outcome (uri : String) (received : Except String Response) :
    Verdict uri received ((outcome uri received).map fun _ => ()) := by
  cases received with
  | error cause => exact .unanswered cause _
  | ok response =>
    have status : response.isSuccess = true ↔ 200 ≤ response.status ∧ response.status < 300 := by
      simp [Response.isSuccess]
    unfold outcome
    dsimp only
    split
    case isTrue success => exact .written (status.mp success)
    case isFalse other =>
      split
      case isTrue failed => exact .stale failed
      case isFalse otherwise =>
        exact .refused (fun success => other (status.mpr success)) otherwise _

/-- The token of a response is its tag. -/
theorem token_eq (response : Response) :
    (response.header? "etag").getD Client.noToken = (entityTag? response).getD Client.noToken := by
  unfold entityTag?
  cases response.header? "etag" with
  | none => rfl
  | some tag =>
    by_cases none : tag = Client.noToken
    · simp [Option.filter, none]
    · simp [Option.filter, none]

/-- A token is conditional where it is a tag. -/
theorem condition_token (response : Response) :
    Client.condition ((entityTag? response).getD Client.noToken) =
      (entityTag? response).toList.map ("if-match", ·) := by
  cases given : entityTag? response with
  | none => rfl
  | some tag =>
    have proper : tag ≠ Client.noToken := by
      simpa using (Option.filter_eq_some_iff.mp given).2
    exact if_neg proper

/-- A tag that could be read can be sent. -/
theorem isHeaderValue_token (response : Response) :
    Http.isHeaderValue ((entityTag? response).getD Client.noToken) = true := by
  rw [← token_eq]
  cases given : response.header? "etag" with
  | none => rfl
  | some tag =>
    have readable := (Option.filter_eq_some_iff.mp given).2
    refine isHeaderValue_iff.mpr fun c hc => ?_
    have plain := List.all_eq_true.mp readable c hc
    simp only [isHeaderChar, Bool.or_eq_true, Bool.and_eq_true, decide_eq_true_eq] at plain ⊢
    exact plain.imp id fun within => ⟨within.1, by omega⟩

/-! ## Requests -/

variable {settings : RepositorySettings} {disk : Disk (StateM σ)} {peer : Transport (StateM σ)}

theorem base_logged : (logged settings disk peer).base = baseOf settings := rfl

theorem ifMatch_credentials (c : Client (StateM σ)) (headers : Headers) :
    ifMatch (c.credentials ++ headers) = ifMatch headers := by
  unfold ifMatch Client.credentials
  cases c.settings.username <;> simp

/-- **A write is one request with its condition.** -/
theorem writes_send (method : Method) (address : String) {headers : Headers}
    (proper : ∀ h ∈ headers, Http.isHeaderValue h.2 = true) (body : Except String Bytes)
    (uri : String) (w : World σ) :
    Writes method address uri (ifMatch headers) w
      (perform ((logged settings disk peer).send method address headers body uri >>= fun _ =>
        pure ()) w) := by
  let c := logged settings disk peer
  have sendable := isSendable_eq c method address proper body
  have sends := @perform_send σ settings disk peer method address headers body uri w
  have discarded {result : Except DepositError Response} {w' : World σ}
      (sent : perform (c.send method address headers body uri) w = (result, w')) :
      perform (c.send method address headers body uri >>= fun _ => pure ()) w =
        (result.map fun _ => (), w') := by
    rw [perform_bind, sent]
    cases result <;> rfl
  rcases sends with ⟨sent, came⟩ | ⟨unsent, reason, came⟩
  · rw [discarded came]
    exact .answered ⟨rfl, rfl⟩ (ifMatch_credentials c headers) (verdict_outcome uri _)
      (sendable ▸ sent)
  · rw [discarded came]
    exact .unreachable (sendable ▸ unsent) _

/-- What is made of the answer to the request for a graph. -/
def reading (c : Client (StateM (σ × Log))) (address : String) (response : Response) :
    Operation (StateM (σ × Log)) (Graph × Token) := do
  match response.text? with
  | none => throw (.failure address "cannot read body: unexpected end")
  | some text =>
    match Json.ofString? text with
    | none => throw (.failure address "unreadable JSON-LD: not a JSON text")
    | some doc =>
      let g ← liftM (JsonLd.toGraph doc)
      return (graphFromWire c.base (← get).transaction g,
        (response.header? "etag").getD Client.noToken)

theorem fetchGraph_eq (c : Client (StateM (σ × Log))) (address : String) :
    c.fetchGraph address =
      c.send .get address [("accept", Vocabulary.jsonLd)] (.ok []) address >>=
        reading c address := by
  unfold Client.fetchGraph reading
  rfl

/-- Nothing more is asked then, and the token is the tag of the answer. -/
theorem perform_reading (c : Client (StateM (σ × Log))) (address : String) (response : Response)
    (w : World σ) :
    (perform (reading c address response) w).2 = w ∧
      ∀ g token, (perform (reading c address response) w).1 = .ok (g, token) →
        token = (entityTag? response).getD Client.noToken := by
  unfold reading
  cases response.text? with
  | none => exact ⟨rfl, fun _ _ read => nomatch read⟩
  | some text =>
    dsimp only
    cases Json.ofString? text with
    | none => exact ⟨rfl, fun _ _ read => nomatch read⟩
    | some doc =>
      dsimp only
      cases JsonLd.toGraph doc with
      | error e => exact ⟨rfl, fun _ _ read => nomatch read⟩
      | ok h =>
        rw [← token_eq]
        refine ⟨rfl, fun g token read => ?_⟩
        exact ((Prod.mk.inj (Except.ok.inj read)).2).symm

/-- **A graph that was read came with an answer**, and the token is its tag. -/
theorem perform_fetchGraph_ok {address : String} {g : Graph} {token : Token} {w : World σ}
    (read : (perform ((logged settings disk peer).fetchGraph address) w).1 = .ok (g, token)) :
    isReachable address = true ∧ ∃ e response,
      (perform ((logged settings disk peer).fetchGraph address) w).2.2.2 = w.2.2 ++ [e] ∧
        e.success? = some response ∧ token = (entityTag? response).getD Client.noToken := by
  let c := logged settings disk peer
  have proper : ∀ h ∈ [("accept", Vocabulary.jsonLd)], Http.isHeaderValue h.2 = true := by
    decide +kernel
  have sendable := isSendable_eq c .get address proper (.ok [])
  have sends := @perform_send σ settings disk peer .get address [("accept", Vocabulary.jsonLd)]
    (.ok []) address w
  rw [fetchGraph_eq] at read ⊢
  rcases sends with ⟨sent, came⟩ | ⟨-, reason, came⟩
  · cases answered : outcome address ((peer ⟨.get, address, _, .ok []⟩).run w.2.1).1 with
    | error e =>
      rw [answered] at came
      rw [perform_bind_error came] at read
      cases read
    | ok response =>
      rw [answered] at came
      rw [perform_bind_ok came] at read ⊢
      obtain ⟨same, tagged⟩ := perform_reading c address response
        (w.1, ((peer ⟨.get, address, _, .ok []⟩).run w.2.1).2, w.2.2 ++ [⟨_, _⟩])
      refine ⟨sendable ▸ sent, _, response, congrArg (·.2.2) same, ?_, tagged g token read⟩
      rw [Exchange.success?_eq, answered]
      rfl
  · rw [perform_bind_error came] at read
    cases read

/-! ## Patches -/

/-- Reading a graph begins an operation first. -/
theorem perform_fetch {w : World σ} (unfinished : w.1.lifecycle.isFinished = false) (uri : String) :
    perform ((logged settings disk peer).fetch uri) w =
      perform ((logged settings disk peer).fetchGraph
        (toWire (baseOf settings) w.1.transaction uri)) w.active := by
  unfold Client.fetch
  rw [perform_bind_ok (perform_enter unfinished _), perform_bind_ok (perform_get _)]
  rfl

theorem perform_fetch_ok {uri : String} {g : Graph} {token : Token} {w : World σ}
    (read : (perform ((logged settings disk peer).fetch uri) w).1 = .ok (g, token)) :
    isReachable (toWire (baseOf settings) w.1.transaction uri) = true ∧ ∃ e response,
      (perform ((logged settings disk peer).fetch uri) w).2.2.2 = w.2.2 ++ [e] ∧
        e.success? = some response ∧ token = (entityTag? response).getD Client.noToken := by
  have unfinished : w.1.lifecycle.isFinished = false := by
    refine Bool.eq_false_iff.mpr fun finished => ?_
    unfold Client.fetch at read
    rw [perform_bind_error (perform_enter_of_finished finished _)] at read
    cases read
  rw [perform_fetch unfinished] at read ⊢
  exact perform_fetchGraph_ok read

/-- An update is conditional where there is a tag. -/
theorem writes_update (uri : String) (p : Patch) (response : Response) (w : World σ) :
    Writes .patch (toWire (baseOf settings) w.1.transaction uri) uri
      (conditions .sparqlUpdate (entityTag? response)) w
      (perform ((logged settings disk peer).update uri p
        ((entityTag? response).getD Client.noToken)) w) := by
  have token := isHeaderValue_token response
  have proper : ∀ h ∈ [("content-type", Vocabulary.sparqlUpdate)] ++
      Client.condition ((entityTag? response).getD Client.noToken),
      Http.isHeaderValue h.2 = true := by
    rw [condition_token]
    cases given : entityTag? response with
    | none => decide +kernel
    | some tag =>
      rw [given] at token
      exact List.forall_mem_cons.mpr ⟨by decide +kernel, by simpa using token⟩
  have conditional : ifMatch ([("content-type", Vocabulary.sparqlUpdate)] ++
      Client.condition ((entityTag? response).getD Client.noToken)) =
        conditions .sparqlUpdate (entityTag? response) := by
    rw [condition_token]
    cases entityTag? response <;> rfl
  unfold Client.update
  rw [perform_bind_ok (perform_get w), ← conditional]
  exact writes_send _ _ proper _ uri w

/-- A replacement is conditional in any case. -/
theorem writes_replace (uri : String) (p : Patch) (response : Response) {w read : World σ}
    {again : Graph × Token}
    (came : perform ((logged settings disk peer).fetchGraph
      (toWire (baseOf settings) w.1.transaction uri)) w = (.ok again, read)) :
    Writes .put (toWire (baseOf settings) w.1.transaction uri) uri
      (conditions .replace (entityTag? response)) read
      (perform ((logged settings disk peer).replace uri p
        ((entityTag? response).getD Client.noToken)) w) := by
  have proper : ∀ h ∈ [("content-type", Vocabulary.nTriples),
      ("if-match", (entityTag? response).getD Client.noToken), ("prefer", preferLenient)],
      Http.isHeaderValue h.2 = true := by
    refine List.forall_mem_cons.mpr ⟨by decide +kernel, List.forall_mem_cons.mpr
      ⟨isHeaderValue_token response, by decide +kernel⟩⟩
  unfold Client.replace
  rw [perform_bind_ok (perform_get w)]
  dsimp only
  rw [base_logged, perform_bind_ok came]
  exact writes_send _ _ proper _ uri read

theorem replace_of_failed (uri : String) (p : Patch) (token : Token) {w read : World σ}
    {e : DepositError}
    (came : perform ((logged settings disk peer).fetchGraph
      (toWire (baseOf settings) w.1.transaction uri)) w = (.error e, read)) :
    perform ((logged settings disk peer).replace uri p token) w = (.error e, read) := by
  unfold Client.replace
  rw [perform_bind_ok (perform_get w)]
  dsimp only
  rw [base_logged, perform_bind_error came]

/-- A patch in a world, after a graph came with a tag or without one, and what the patch has come
to. An update is written at once. A replacement reads the graph again, and is written if that
succeeds. A session that is finished refuses both. -/
def Patches (settings : RepositorySettings) (disk : Disk (StateM σ)) (peer : Transport (StateM σ))
    (uri : String) (tag : Option String) (w : World σ) (came : Except DepositError Unit × World σ) :
    Prop :=
  let address := toWire (baseOf settings) w.1.transaction uri
  let condition := conditions settings.patchMode tag
  if w.1.lifecycle.isFinished then
    came = (.error (.illegalState "apply patch" w.1.lifecycle.name), w)
  else match settings.patchMode with
  | .sparqlUpdate => Writes .patch address uri condition w.active came
  | .replace =>
    match perform ((logged settings disk peer).fetch uri) w with
    | (.ok _, read) => isReachable address = true ∧ Writes .put address uri condition read came
    | (.error e, read) => came = (.error e, read)

theorem patches_patch (uri : String) {p : Patch} (proper : p.isEmpty = false) (response : Response)
    (w : World σ) :
    Patches settings disk peer uri (entityTag? response) w
      (perform ((logged settings disk peer).patch uri p
        ((entityTag? response).getD Client.noToken)) w) := by
  have named : ¬p.isEmpty = true := by rw [proper]; exact Bool.false_ne_true
  have chosen : (logged settings disk peer).settings.patchMode = settings.patchMode := rfl
  unfold Patches Client.patch
  dsimp only
  by_cases finished : w.1.lifecycle.isFinished = true
  · rw [if_pos finished]
    exact perform_bind_error (perform_enter_of_finished finished _) _
  · have unfinished := Bool.eq_false_iff.mpr finished
    rw [if_neg finished, perform_bind_ok (perform_enter unfinished _), if_neg named, chosen]
    cases settings.patchMode with
    | sparqlUpdate => exact writes_update uri p response w.active
    | replace =>
      dsimp only
      rw [perform_fetch unfinished]
      rcases came : perform ((logged settings disk peer).fetchGraph
        (toWire (baseOf settings) w.1.transaction uri)) w.active with ⟨e | again, read⟩
      · exact replace_of_failed (w := w.active) uri p _ came
      · have reachable := (perform_fetchGraph_ok (congrArg Prod.fst came)).1
        exact ⟨reachable, writes_replace (w := w.active) uri p response came⟩

end Writes

/-- **A patch is written under the tag that came with the graph.** A session reads a graph, at some
time, and writes a patch that is not empty with its token, in either way and over whatever peer.
Then the patch is one write to the address of its resource, unless the session is finished by then.
The condition of the write is the tag of the answer that the graph came with; where there was no
tag, an update has no condition, and a replacement an empty one. What the write has come to is told
by what came back for it, with the URI of the caller. It can be sent at least wherever the graph was
read. -/
theorem patch_conditional {σ : Type} (settings : RepositorySettings) (disk : Disk (StateM σ))
    (peer : Transport (StateM σ)) (read uri : String) (p : Patch) (g : Graph) (token : Token)
    (earlier w : World σ) :
    let c := logged settings disk peer
    let fetched := perform (c.fetch read) earlier
    let address (v : World σ) := toWire (baseOf settings) v.1.transaction
    fetched.1 = .ok (g, token) → p.isEmpty = false →
    ∃ e response, fetched.2.2.2 = earlier.2.2 ++ [e] ∧ e.success? = some response ∧
      Patches settings disk peer uri (entityTag? response) w (perform (c.patch uri p token) w) ∧
      (address w uri = address earlier read → isReachable (address w uri) = true) := by
  intro c fetched address came proper
  obtain ⟨reachable, e, response, log, success, rfl⟩ := perform_fetch_ok came
  exact ⟨e, response, log, success, patches_patch uri proper response w,
    fun same => same ▸ reachable⟩

/-- Settings for patches that are written as whole graphs. -/
def replacing : RepositorySettings := { baseUrl := "http://h", patchMode := .replace }

/-- No file can be read. -/
def emptyDisk : Disk (StateM Unit) := fun _ => pure (.failure FileView.noSuchFile)

/-- A session that has not asked anything. -/
def start : World Unit := (State.initial, (), [])

/-- A patch that adds a statement. -/
def titling : Patch :=
  ⟨Graph.ofList [⟨.iri "http://h/a", "http://v/title", .plain "A"⟩], Graph.empty⟩

/-- A peer that gives a tag with every graph, and takes no write. -/
def strictPeer : Transport (StateM Unit) := fun r =>
  pure (.ok (if r.method = .get then ⟨200, [("etag", "\"e1\"")], some (Text.toUtf8 "[]")⟩
    else ⟨412, [], some []⟩))

theorem patch_conditional_stale :
    let c := logged replacing emptyDisk strictPeer
    let fetched := perform (c.fetch "http://h/a") start
    let came := perform (c.patch "http://h/a" titling "\"e1\"") fetched.2
    (came.1 = .error (.concurrentModification "http://h/a") ∧
      (came.2.2.2.map fun e => (e.request.method, ifMatch e.request.headers)) =
        [(.get, []), (.get, []), (.put, ["\"e1\""])]) ∧
      ∃ (e : Exchange) (response : Response), fetched.2.2.2 = start.2.2 ++ [e] ∧
        e.success? = some response ∧
        Patches replacing emptyDisk strictPeer "http://h/a" (entityTag? response) fetched.2 came ∧
        (toWire (baseOf replacing) fetched.2.1.transaction "http://h/a" =
            toWire (baseOf replacing) start.1.transaction "http://h/a" →
          isReachable (toWire (baseOf replacing) fetched.2.1.transaction "http://h/a") = true) := by
  dsimp only
  refine ⟨by decide +kernel, ?_⟩
  exact patch_conditional replacing emptyDisk strictPeer "http://h/a" "http://h/a" titling
    Graph.empty "\"e1\"" start (perform ((logged replacing emptyDisk strictPeer).fetch "http://h/a") start).2
    (by decide +kernel) (by decide +kernel)

/-- A peer that gives no tags. -/
def untaggedPeer : Transport (StateM Unit) := fun _ =>
  pure (.ok ⟨200, [], some (Text.toUtf8 "[]")⟩)

/-- **A replacement has a condition even if there was no tag.** The graph comes without a tag, and
still the write that follows has an `if-match`, with nothing in it. -/
theorem untagged_replacement_conditional :
    let c := logged replacing emptyDisk untaggedPeer
    let fetched := perform (c.fetch "http://h/a") start
    let came := perform (c.patch "http://h/a" titling Client.noToken) fetched.2
    fetched.1 = .ok (Graph.empty, Client.noToken) ∧
      (fetched.2.2.2.map fun e => e.success?.bind entityTag?) = [none] ∧
      (came.2.2.2.map fun e => (e.request.method, ifMatch e.request.headers)) =
        [(.get, []), (.get, []), (.put, [""])] := by
  decide +kernel

end LinkedDeposit.Ldp
