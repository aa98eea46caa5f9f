import LinkedDeposit.Deposit.Run
import LinkedDeposit.Proofs.Deposit.WalkTranscript
import LinkedDeposit.Proofs.Ldp.Conversation
import LinkedDeposit.Proofs.Rdf.Refusal

/-!
# A session at work

Each operation of a session follows the rules of the logic of conversations: one lemma for each says
what it needs to know, and what is known after it. From these lemmas the walk and the remapping of
links are put together.

Results:
* `works_deposit`, `works_fetch`, `works_patch`: the operations of a session.
* `works_walk`: after a walk, everything that it recorded is known.
* `works_walkAndRemap`: a deposit works up to its end.
-/

namespace LinkedDeposit.Ldp

open Http (Request Response Transport Method Headers)

variable {σ α : Type} {settings : RepositorySettings} {disk : Disk (StateM σ)}
  {peer : Transport (StateM σ)} {base : String} {transaction : Option String} {target : String}
  {before : Log}

/-! ## Requests -/

theorem works_enter (operation : String) (Needs : Log → Prop) :
    Works base transaction target before
      (Client.enter operation : Operation (StateM (σ × Log)) Unit) Needs fun _ => Needs := by
  intro since w atWork needed
  have entered : perform (Client.enter operation) w =
      (.ok (), { w.1 with lifecycle := .active }, w.2) := by
    unfold perform
    rw [run_enter atWork.unfinished]
  have active : AtWork base transaction target before since
      ({ w.1 with lifecycle := .active }, w.2) :=
    ⟨atWork.opened, rfl, atWork.created, atWork.log, atWork.conversation⟩
  rw [entered]
  exact active.comes_ok needed

/-- A request that creates nothing needs a known address. -/
theorem works_send {method : Method} (creates : method ≠ .post) (address : String)
    (headers : Headers) (body : Except String Bytes) (uri : String) {Needs : Log → Prop}
    (justified : ∀ log, Needs log → Justified base transaction target log method address)
    (stays : Stays Needs) :
    Works base transaction target before
      ((logged settings disk peer).send method address headers body uri) Needs fun _ => Needs := by
  intro since w atWork needed
  have sends := @perform_send σ settings disk peer method address headers body uri w
  rcases sends with ⟨-, sent⟩ | ⟨-, reason, sent⟩
  · rw [sent]
    refine ⟨_, atWork.exchange_silent (justified since needed)
      (Exchange.location?_of_ne_post creates) _, ?_⟩
    cases came : outcome uri ((peer _).run w.2.1).1 with
    | ok response => exact stays _ _ needed
    | error e => exact isIllegalState_of_outcome came
  · rw [sent]
    exact atWork.comes_error rfl

/-- What is done with a response that should tell where something was created: its URI is noted. -/
def noting (c : Client (StateM (σ × Log))) (parent : String)
    (next : Response → String → Operation (StateM (σ × Log)) α) (response : Response) :
    Operation (StateM (σ × Log)) α :=
  match response.header? "location" with
  | none => throw (.failure parent "created resource has no Location")
  | some location => do
    let uri := fromWire c.base (← get).transaction location
    modify fun s => { s with created := uri :: s.created }
    next response uri

/-- What is known of a new resource: its URI, and the address of its description. -/
def Created (base : String) (transaction : Option String) (response : Response) (uri : String)
    (log : Log) : Prop :=
  uri ∈ resources base transaction log ∧
    ∀ address, Client.describedBy? response = some address → address ∈ descriptions log

/-- A request that creates something needs a known parent, and its answer is noted. -/
theorem works_create {parent : String} (headers : Headers) (body : Except String Bytes)
    {next : Response → String → Operation (StateM (σ × Log)) α} {Then : α → Log → Prop}
    (goesOn : ∀ response uri, Works (baseOf settings) transaction target before (next response uri)
      (Created (baseOf settings) transaction response uri) Then) :
    let c := logged settings disk peer
    Works (baseOf settings) transaction target before
      (c.send .post (toWire (baseOf settings) transaction parent) headers body parent >>=
        noting c parent next)
      (fun log => parent ∈ parents (baseOf settings) transaction target log) Then := by
  intro c since w atWork known
  have justified := Justified.create parent known
  have sends := @perform_send σ settings disk peer .post
    (toWire (baseOf settings) transaction parent) headers body parent w
  rw [perform_bind]
  rcases sends with ⟨-, sent⟩ | ⟨-, reason, sent⟩
  · rw [sent]
    generalize ((peer _).run w.2.1).1 = received
    generalize ((peer _).run w.2.1).2 = x
    let e : Exchange := ⟨⟨.post, toWire (baseOf settings) transaction parent,
      c.credentials ++ headers, body⟩, received⟩
    have location : e.location? = _ := Exchange.location?_of_post received parent rfl
    have description : e.description? = _ := Exchange.description?_of_post received parent rfl
    cases came : outcome parent received with
    | error reason =>
      rw [came] at location
      exact ⟨[e], atWork.exchange_silent justified location x, isIllegalState_of_outcome came⟩
    | ok response =>
      rw [came] at location description
      cases located : response.header? "location" with
      | none =>
        dsimp only
        rw [noting, located]
        exact ⟨[e], atWork.exchange_silent justified (location.trans located) x, rfl⟩
      | some address =>
        have created : e.location? = some address := location.trans located
        have noted := atWork.exchange justified
          (s := { w.1 with created := fromWire c.base w.1.transaction address :: w.1.created })
          atWork.opened atWork.unfinished (by rw [created, atWork.opened]; rfl) x
        dsimp only
        rw [noting, located]
        refine (goesOn response _ _ _ noted ⟨?_, fun d hd => ?_⟩).after
        · rw [resources_snoc, created, atWork.opened]
          exact List.mem_append_right _ List.mem_cons_self
        · rw [descriptions_append]
          refine List.mem_append_right _ (List.mem_filterMap.mpr ⟨e, List.mem_cons_self, ?_⟩)
          exact description.trans hd
  · rw [sent]
    exact atWork.comes_error rfl

/-! ## Creating -/

/-- Opening a file needs no exchange. -/
theorem works_creation (r : Resource) (Needs : Log → Prop) :
    Works base transaction target before ((logged settings disk peer).creation r) Needs
      fun _ => Needs := by
  unfold Client.creation
  cases r with
  | container id g children => exact .pure fun _ needed => needed
  | rdfSource id g => exact .pure fun _ needed => needed
  | binary id b d =>
    refine Works.bind (?_ : Works base transaction target before _ Needs fun _ => Needs)
      fun view => Works.bind (?_ : Works base transaction target before _ Needs fun _ => Needs)
        fun found => .pure fun _ needed => needed
    · cases b.content with
      | bytes bytes => exact .pure fun _ needed => needed
      | file path => exact .beside fun _ _ needed => needed
    · exact .compute (fun _ _ needed _ => needed) fun _ => Content.isIllegalState_of_open?

/-- What is done with a new resource: its description is written where the response says. -/
def describing (c : Client (StateM (σ × Log))) (r : Resource) (response : Response) (uri : String) :
    Operation (StateM (σ × Log)) Deposited :=
  match r.description? with
  | none => return ⟨uri, none⟩
  | some d =>
    match Client.describedBy? response with
    | none => throw (.missingDescription uri)
    | some address => do
      c.putDescription d address
      return ⟨uri, some (fromWire c.base (← get).transaction address)⟩

theorem deposit_eq (c : Client (StateM (σ × Log))) (r : Resource) (parent : String) :
    c.deposit r parent = (do
      Client.enter "deposit"
      let s ← get
      let (headers, body) ← c.creation r
      c.send .post (toWire c.base s.transaction parent) headers body parent >>=
        noting c parent (describing c r)) := rfl

/-- Where a resource and its description ended up is known. -/
def Placed (base : String) (transaction : Option String) (d : Deposited) (log : Log) : Prop :=
  d.uri ∈ resources base transaction log ∧
    ∀ uri, d.description = some uri → uri ∈ nodes base transaction log

theorem stays_created (response : Response) (uri : String) :
    Stays (Created base transaction response uri) :=
  fun log more h => ⟨stays_resources uri log more h.1,
    fun address linked => stays_descriptions address log more (h.2 address linked)⟩

theorem works_describing (r : Resource) (response : Response) (uri : String) :
    Works (baseOf settings) transaction target before
      (describing (logged settings disk peer) r response uri)
      (Created (baseOf settings) transaction response uri)
      (Placed (baseOf settings) transaction) := by
  unfold describing
  cases r.description? with
  | none => exact .pure fun _ created => ⟨created.1, fun _ h => by cases h⟩
  | some d =>
    cases linked : Client.describedBy? response with
    | none => exact .throw rfl
    | some address =>
      have put : Works (baseOf settings) transaction target before
          ((logged settings disk peer).putDescription d address)
          (Created (baseOf settings) transaction response uri)
          fun _ => Created (baseOf settings) transaction response uri :=
        (works_send (by decide) address _ _ address
          (fun log created => .describe address (created.2 address linked))
          (stays_created response uri)).bind fun _ => .pure fun _ created => created
      refine put.bind fun _ => Works.known fun s opened => .pure fun log created => ?_
      refine ⟨created.1, fun described h => ?_⟩
      rw [← Option.some.inj h, opened]
      exact List.mem_append_right _ (List.mem_map_of_mem (created.2 address linked))

/-- **A deposit needs a known parent**, and then its resource is known, too. -/
theorem works_deposit (r : Resource) (parent : String) :
    Works (baseOf settings) transaction target before
      ((logged settings disk peer).deposit r parent)
      (fun log => parent ∈ parents (baseOf settings) transaction target log)
      (Placed (baseOf settings) transaction) := by
  rw [deposit_eq]
  refine (works_enter _ _).bind fun _ => Works.known fun s opened => ?_
  refine (works_creation r _).bind fun request => ?_
  rw [opened]
  exact works_create _ _ fun response uri => works_describing r response uri

/-! ## Reading and patching -/

theorem works_fetchGraph (address : String) {Needs : Log → Prop}
    (justified : ∀ log, Needs log → Justified base transaction target log .get address)
    (stays : Stays Needs) :
    Works base transaction target before ((logged settings disk peer).fetchGraph address) Needs
      fun _ => Needs := by
  unfold Client.fetchGraph
  refine (works_send (by decide) address _ _ address justified stays).bind fun response => ?_
  cases response.text? with
  | none => exact .throw rfl
  | some text =>
    dsimp only
    cases Json.ofString? text with
    | none => exact .throw rfl
    | some doc =>
      refine Works.bind (?_ : Works base transaction target before _ Needs fun _ => Needs)
        fun g => Works.known fun s _ => .pure fun _ needed => needed
      refine .compute (fun _ _ needed _ => needed) fun e he => ?_
      obtain ⟨reason, rfl⟩ := JsonLd.toGraph_refuses he
      rfl

/-- **Reading a graph needs a known resource.** -/
theorem works_fetch (uri : String) :
    Works (baseOf settings) transaction target before ((logged settings disk peer).fetch uri)
      (fun log => uri ∈ nodes (baseOf settings) transaction log)
      fun _ log => uri ∈ nodes (baseOf settings) transaction log := by
  unfold Client.fetch
  refine (works_enter _ _).bind fun _ => Works.known fun s opened => ?_
  rw [opened]
  exact works_fetchGraph _ (fun _ known => .read uri known) (stays_nodes uri)

theorem works_update (uri : String) (p : Patch) (token : Token) :
    Works (baseOf settings) transaction target before
      ((logged settings disk peer).update uri p token)
      (fun log => uri ∈ nodes (baseOf settings) transaction log)
      fun _ log => uri ∈ nodes (baseOf settings) transaction log := by
  unfold Client.update
  refine Works.known fun s opened => ?_
  dsimp only
  rw [opened]
  exact (works_send (by decide) _ _ _ uri (fun _ known => .update uri known)
    (stays_nodes uri)).bind fun _ => .pure fun _ known => known

theorem works_replace (uri : String) (p : Patch) (token : Token) :
    Works (baseOf settings) transaction target before
      ((logged settings disk peer).replace uri p token)
      (fun log => uri ∈ nodes (baseOf settings) transaction log)
      fun _ log => uri ∈ nodes (baseOf settings) transaction log := by
  unfold Client.replace
  refine Works.known fun s opened => ?_
  dsimp only
  rw [opened]
  refine (works_fetchGraph _ (fun _ known => .read uri known) (stays_nodes uri)).bind fun read => ?_
  exact (works_send (by decide) _ _ _ uri (fun _ known => .replace uri known)
    (stays_nodes uri)).bind fun _ => .pure fun _ known => known

/-- **A patch needs a known resource**, in either mode. -/
theorem works_patch (uri : String) (p : Patch) (token : Token) :
    Works (baseOf settings) transaction target before
      ((logged settings disk peer).patch uri p token)
      (fun log => uri ∈ nodes (baseOf settings) transaction log)
      fun _ log => uri ∈ nodes (baseOf settings) transaction log := by
  unfold Client.patch
  refine (works_enter _ _).bind fun _ => ?_
  by_cases empty : p.isEmpty
  · rw [if_pos empty]
    exact .pure fun _ known => known
  · rw [if_neg empty]
    cases (logged settings disk peer).settings.patchMode with
    | sparqlUpdate => exact works_update uri p token
    | replace => exact works_replace uri p token

/-! ## The walk -/

/-- Every URI that a walk has recorded is known. -/
def Knows (base : String) (transaction : Option String) (w : Walked) (log : Log) : Prop :=
  ∀ id uri, w.uris.get? id = some uri → uri ∈ nodes base transaction log

theorem stays_knows (w : Walked) : Stays (Knows base transaction w) :=
  fun log more h id uri found => stays_nodes uri log more (h id uri found)

/-- Recording a known URI leaves all of them known. -/
theorem Knows.record {w w' : Walked} {id uri : String} {log : Log}
    (h : Knows base transaction w log) (known : uri ∈ nodes base transaction log)
    (recorded : w.record id uri = .ok w') : Knows base transaction w' log := by
  obtain ⟨-, rfl⟩ := Walked.record_eq_ok_iff.mp recorded
  intro id' uri' found
  by_cases same : id' = id
  · subst same
    rw [Table.get?_insert_self] at found
    exact Option.some.inj found ▸ known
  · rw [Table.get?_insert, if_neg same] at found
    exact h id' uri' found

theorem works_record (w : Walked) (id uri : String) {Needs : Log → Prop}
    (known : ∀ log, Needs log → uri ∈ nodes base transaction log ∧ Knows base transaction w log) :
    Works base transaction target before
      (liftM (w.record id uri) : Operation (StateM (σ × Log)) Walked) Needs
      fun w' log => Needs log ∧ Knows base transaction w' log := by
  refine .compute (fun log w' needed recorded => ?_) fun e he => ?_
  · exact ⟨needed, (known log needed).2.record (known log needed).1 recorded⟩
  · obtain ⟨-, rfl⟩ := Walked.record_eq_error_iff.mp he
    rfl

section Walk

variable (observe : Event → StateM σ Unit)

/-- A resource is deposited below a known parent; it and its description are recorded. -/
theorem works_depositNode (r : Resource) (parent : String) (w : Walked) :
    Works (baseOf settings) transaction target before
      (depositNode (logged settings disk peer).session (besideLog observe) r parent w)
      (fun log => parent ∈ parents (baseOf settings) transaction target log ∧
        Knows (baseOf settings) transaction w log)
      fun placed log => placed.1.uri ∈ resources (baseOf settings) transaction log ∧
        Knows (baseOf settings) transaction placed.2 log := by
  unfold depositNode
  refine ((works_deposit r parent).frame (stays_knows w)).bind fun d => ?_
  refine (works_record _ r.id d.uri fun log known => ?_).bind fun w₁ =>
    (Works.announce observe _ _).bind fun _ => ?_
  · exact ⟨List.mem_append_left _ known.1.1, known.2⟩
  cases r.description? with
  | none => exact .pure fun log known => ⟨known.1.1.1, known.2⟩
  | some description =>
    cases described : d.description with
    | none => exact .throw rfl
    | some uri =>
      dsimp only
      refine (works_record w₁ description.id uri fun log known => ?_).bind fun w₂ =>
        (Works.announce observe _ _).bind fun _ => .pure fun log known => ?_
      · exact ⟨known.1.1.2 uri described, known.2⟩
      · exact ⟨known.1.1.1.1, known.2⟩

mutual

theorem works_walkNode (r : Resource) (parent : String) (w : Walked) :
    Works (baseOf settings) transaction target before
      (walkNode (logged settings disk peer).session (besideLog observe) r parent w)
      (fun log => parent ∈ parents (baseOf settings) transaction target log ∧
        Knows (baseOf settings) transaction w log)
      fun w' => Knows (baseOf settings) transaction w' := by
  unfold walkNode
  refine (works_depositNode observe r parent w).bind fun placed => ?_
  obtain ⟨d, w'⟩ := placed
  cases r with
  | rdfSource id g => exact .pure fun _ known => known.2
  | binary id b description => exact .pure fun _ known => known.2
  | container id g children =>
    exact (works_walkNodes children d.uri w').mono
      (fun _ known => ⟨List.mem_cons_of_mem _ known.1, known.2⟩) fun _ _ known => known

theorem works_walkNodes (tree : List Resource) (parent : String) (w : Walked) :
    Works (baseOf settings) transaction target before
      (walkNodes (logged settings disk peer).session (besideLog observe) tree parent w)
      (fun log => parent ∈ parents (baseOf settings) transaction target log ∧
        Knows (baseOf settings) transaction w log)
      fun w' => Knows (baseOf settings) transaction w' := by
  cases tree with
  | nil =>
    unfold walkNodes
    exact .pure fun _ known => known.2
  | cons r rest =>
    unfold walkNodes
    refine (((works_walkNode r parent w).frame (stays_parents parent)).mono
      (fun _ known => ⟨known, known.1⟩) fun _ _ known => known).bind fun w' => ?_
    exact (works_walkNodes rest parent w').mono (fun _ known => known.symm) fun _ _ known => known

end

/-- **After a walk, everything that it recorded is known.** -/
theorem works_walk (tree : List Resource) :
    Works (baseOf settings) transaction target before
      (walk (logged settings disk peer).session (besideLog observe) tree target)
      (fun _ => True) fun w => Knows (baseOf settings) transaction w :=
  (works_walkNodes observe tree target Walked.nothing).mono
    (fun _ _ => ⟨List.mem_cons_self, fun _ _ found => by cases found⟩) fun _ _ known => known

/-! ## The links -/

theorem works_remapNode (uris : UriMap) (v : Visited) :
    Works (baseOf settings) transaction target before
      (remapNode (logged settings disk peer).session (besideLog observe) uris v)
      (fun log => v.uri ∈ nodes (baseOf settings) transaction log) fun _ _ => True := by
  unfold remapNode
  refine (works_fetch v.uri).bind fun fetched => ?_
  dsimp only
  split
  · exact .pure fun _ _ => trivial
  · exact (works_patch v.uri _ _).bind fun _ => (Works.announce observe _ _).bind
      fun _ => .pure fun _ _ => trivial

theorem works_remapNodes (uris : UriMap) (vs : List Visited) (report : Report) :
    Works (baseOf settings) transaction target before
      (remapNodes (logged settings disk peer).session (besideLog observe) uris vs report)
      (fun log => ∀ v ∈ vs, v.uri ∈ nodes (baseOf settings) transaction log)
      fun _ _ => True := by
  induction vs generalizing report with
  | nil => exact .pure fun _ _ => trivial
  | cons v vs ih =>
    have others : Stays fun log => ∀ v' ∈ vs, v'.uri ∈ nodes (baseOf settings) transaction log :=
      fun log more known v' hv => stays_nodes v'.uri log more (known v' hv)
    unfold remapNodes
    refine (((works_remapNode observe uris v).frame others).mono
      (fun log known => ⟨known v List.mem_cons_self, fun v' hv => known v' (.tail v hv)⟩)
      fun _ _ known => known.2).bind fun changed => ?_
    cases changed with
    | true => exact ih _
    | false => exact ih _

/-- **A deposit works up to its end**, whatever its peer answers. -/
theorem works_walkAndRemap (tree : List Resource) :
    Works (baseOf settings) transaction target before
      (walkAndRemap (logged settings disk peer).session (besideLog observe) tree target)
      (fun _ => True) fun _ _ => True := by
  unfold walkAndRemap
  refine (works_walk observe tree).bind fun w => ?_
  refine (works_remapNodes observe w.uris _ _).mono (fun log known v hv => ?_) fun _ _ h => h
  obtain ⟨s, -, found⟩ := List.mem_filterMap.mp (List.mem_of_mem_filter hv)
  obtain ⟨uri, recorded, rfl⟩ := Option.map_eq_some_iff.mp found
  exact known s.id uri recorded

end Walk

end LinkedDeposit.Ldp
