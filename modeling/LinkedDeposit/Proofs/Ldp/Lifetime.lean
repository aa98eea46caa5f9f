import LinkedDeposit.Proofs.Ldp.Finishing
import LinkedDeposit.Proofs.Session.Lifetime

/-!
# The lifetime of a session over HTTP

A session over HTTP obeys the same law as one in memory. Its operations ask the peer in between, and
may fail at every answer, so the law is put together along the program of each operation:
`StaysOpen` says that a part of it leaves a session that is not finished as open as it was, and that
its failures break no lifecycle. What ends a session is then one line at the end of a commit or of a
rollback, and what is refused does not come as far as the first request.

Results:
* `staysOpen_deposit`, `staysOpen_fetch`, `staysOpen_patch`: work does not finish a session.
* `commit_accepts`, `rollback_accepts`: what does.
* `obeys`: a session over HTTP obeys the law, over whatever peer.
* `finished_inert`: finished sessions, of both kinds.
-/

namespace LinkedDeposit.Ldp

open Http (Request Response Transport Method Headers)

variable {σ α β : Type}

/-! ## The logic -/

/-- What leaves a session that is not finished open, and fails for other reasons. -/
def StaysOpen (a : Operation (StateM (σ × Log)) α) : Prop :=
  ∀ w : World σ, w.1.lifecycle.isFinished = false →
    (perform a w).2.1.lifecycle.isFinished = false ∧
      ∀ e, (perform a w).1 = .error e → e.isIllegalState = false

namespace StaysOpen

theorem pure (v : α) : StaysOpen (Pure.pure v : Operation (StateM (σ × Log)) α) :=
  fun _ unfinished => ⟨unfinished, fun _ failed => nomatch failed⟩

theorem throw {e : DepositError} (legal : e.isIllegalState = false) :
    StaysOpen (MonadExcept.throw e : Operation (StateM (σ × Log)) α) :=
  fun _ unfinished => ⟨unfinished, fun _ failed => Except.error.inj failed ▸ legal⟩

theorem compute {v : Except DepositError α}
    (legal : ∀ e, v = .error e → e.isIllegalState = false) :
    StaysOpen (liftM v : Operation (StateM (σ × Log)) α) := by
  cases v with
  | ok u => exact .pure u
  | error e => exact .throw (legal e rfl)

/-- What does not reach the peer does not reach the session either. -/
theorem beside (m : StateM σ α) :
    StaysOpen (liftM (onFirst m : StateM (σ × Log) α) : Operation (StateM (σ × Log)) α) :=
  fun _ unfinished => ⟨unfinished, fun _ failed => nomatch failed⟩

theorem change {change : State → State} (keeps : ∀ s, (change s).lifecycle = s.lifecycle) :
    StaysOpen (modify change : Operation (StateM (σ × Log)) Unit) :=
  fun w unfinished => ⟨(congrArg _ (keeps w.1)).trans unfinished, fun _ failed => nomatch failed⟩

/-- What a session knows can be asked at any time. -/
theorem known {f : State → Operation (StateM (σ × Log)) β} (next : ∀ s, StaysOpen (f s)) :
    StaysOpen (get >>= f) :=
  fun w => next w.1 w

theorem bind {a : Operation (StateM (σ × Log)) α} {f : α → Operation (StateM (σ × Log)) β}
    (first : StaysOpen a) (next : ∀ v, StaysOpen (f v)) : StaysOpen (a >>= f) := by
  intro w unfinished
  obtain ⟨still, legal⟩ := first w unfinished
  rw [perform_bind]
  cases came : (perform a w).1 with
  | ok v => exact next v _ still
  | error e => exact ⟨still, fun _ failed => Except.error.inj failed ▸ legal e came⟩

end StaysOpen

/-! ## The operations -/

section Operations

variable {settings : RepositorySettings} {disk : Disk (StateM σ)} {peer : Transport (StateM σ)}

theorem staysOpen_send (method : Method) (address : String) (headers : Headers)
    (body : Except String Bytes) (uri : String) :
    StaysOpen ((logged settings disk peer).send method address headers body uri) := by
  intro w unfinished
  have sends := @perform_send σ settings disk peer method address headers body uri w
  rcases sends with ⟨-, sent⟩ | ⟨-, reason, sent⟩
  · rw [sent]
    exact ⟨unfinished, fun _ => isIllegalState_of_outcome⟩
  · rw [sent]
    exact ⟨unfinished, fun _ => @isIllegalState_of_outcome uri (.error reason) _⟩

theorem staysOpen_enter (operation : String) :
    StaysOpen (Client.enter operation : Operation (StateM (σ × Log)) Unit) := by
  intro w unfinished
  unfold perform
  rw [run_enter unfinished]
  exact ⟨rfl, fun _ failed => nomatch failed⟩

theorem staysOpen_creation (r : Resource) :
    StaysOpen ((logged settings disk peer).creation r) := by
  unfold Client.creation
  cases r with
  | container id g children => exact .pure _
  | rdfSource id g => exact .pure _
  | binary id b description =>
    refine StaysOpen.bind (?_ : StaysOpen _) fun view =>
      StaysOpen.bind (.compute fun _ => Content.isIllegalState_of_open?) fun found => .pure _
    cases b.content with
    | bytes bytes => exact .pure _
    | file path => exact .beside _

theorem staysOpen_describing (r : Resource) (response : Response) (uri : String) :
    StaysOpen (describing (logged settings disk peer) r response uri) := by
  unfold describing
  cases r.description? with
  | none => exact .pure _
  | some d =>
    cases Client.describedBy? response with
    | none => exact .throw rfl
    | some address =>
      exact ((staysOpen_send _ _ _ _ _).bind fun _ => .pure _).bind fun _ => .known fun _ => .pure _

/-- **A deposit does not finish a session.** -/
theorem staysOpen_deposit (r : Resource) (parent : String) :
    StaysOpen ((logged settings disk peer).deposit r parent) := by
  rw [deposit_eq]
  refine (staysOpen_enter _).bind fun _ => .known fun s => (staysOpen_creation r).bind fun _ =>
    (staysOpen_send _ _ _ _ _).bind fun response => ?_
  unfold noting
  cases response.header? "location" with
  | none => exact .throw rfl
  | some location =>
    refine .known fun s => StaysOpen.bind (.change fun _ => ?_) fun _ =>
      staysOpen_describing r response _
    rfl

theorem staysOpen_fetchGraph (address : String) :
    StaysOpen ((logged settings disk peer).fetchGraph address) := by
  unfold Client.fetchGraph
  refine (staysOpen_send _ _ _ _ _).bind fun response => ?_
  cases response.text? with
  | none => exact .throw rfl
  | some text =>
    dsimp only
    cases Json.ofString? text with
    | none => exact .throw rfl
    | some doc =>
      refine StaysOpen.bind (.compute fun e failed => ?_) fun g => .known fun _ => .pure _
      obtain ⟨reason, rfl⟩ := JsonLd.toGraph_refuses failed
      rfl

theorem staysOpen_fetch (uri : String) : StaysOpen ((logged settings disk peer).fetch uri) :=
  (staysOpen_enter _).bind fun _ => .known fun _ => staysOpen_fetchGraph _

/-- **A patch does not finish a session**, in either mode. -/
theorem staysOpen_patch (uri : String) (p : Patch) (token : Token) :
    StaysOpen ((logged settings disk peer).patch uri p token) := by
  unfold Client.patch
  refine (staysOpen_enter _).bind fun _ => ?_
  split
  · exact .pure _
  · cases (logged settings disk peer).settings.patchMode with
    | sparqlUpdate => exact .known fun _ => (staysOpen_send _ _ _ _ _).bind fun _ => .pure _
    | replace =>
      exact .known fun _ => (staysOpen_fetchGraph _).bind fun _ =>
        (staysOpen_send _ _ _ _ _).bind fun _ => .pure _

theorem staysOpen_endTransaction (action : String) :
    StaysOpen ((logged settings disk peer).endTransaction action) := by
  unfold Client.endTransaction
  refine .known fun s => ?_
  cases s.transaction with
  | some tx => exact (staysOpen_send _ _ _ _ _).bind fun _ => .pure _
  | none => exact .pure _

/-- Deleting resources changes nothing that is known. -/
theorem staysOpen_deleteAll (uris : List String) :
    StaysOpen (liftM ((logged settings disk peer).deleteAll uris) :
      Operation (StateM (σ × Log)) (List String)) := by
  intro w unfinished
  obtain ⟨failed, deletes, x, -, run⟩ := @run_deleteAll σ settings disk peer uris w
  rw [perform_lift, run]
  exact ⟨unfinished, fun _ failed => nomatch failed⟩

theorem staysOpen_deleteCreated : StaysOpen (logged settings disk peer).deleteCreated := by
  unfold Client.deleteCreated
  refine .known fun s => (staysOpen_deleteAll _).bind fun failed =>
    StaysOpen.bind (.change fun _ => ?_) fun _ => ?_
  · rfl
  · split
    · exact .throw rfl
    · exact .pure _

end Operations

/-! ## The law -/

section Law

variable {w : World σ}

theorem perform_enter_of_finished (finished : w.1.lifecycle.isFinished = true)
    (operation : String) : perform (Client.enter operation : Operation (StateM (σ × Log)) Unit) w =
      (.error (.illegalState operation w.1.lifecycle.name), w) := by
  unfold Client.enter
  rw [perform_bind_ok (perform_get w), Lifecycle.enter, Lifecycle.checkOpen, if_pos finished]
  rfl

theorem perform_checkOpen_of_finished (finished : w.1.lifecycle.isFinished = true)
    (operation : String) :
    perform (Client.checkOpen operation : Operation (StateM (σ × Log)) Unit) w =
      (.error (.illegalState operation w.1.lifecycle.name), w) := by
  unfold Client.checkOpen
  rw [perform_bind_ok (perform_get w), Lifecycle.checkOpen, if_pos finished]
  rfl

/-- What is shown of an operation. -/
theorem perform_map {a : Operation (StateM (σ × Log)) α} {result : Except DepositError α}
    {w' : World σ} (h : perform a w = (result, w')) (shown : α → β) :
    perform (shown <$> a) w = (result.map shown, w') := by
  obtain ⟨rfl, rfl⟩ := Prod.mk.inj h
  unfold perform
  rw [ExceptT.run_map]
  rfl

variable {settings : RepositorySettings} {disk : Disk (StateM σ)} {peer : Transport (StateM σ)}

/-- A finished session refuses every call before it asks anything. -/
theorem perform_answer_of_finished (finished : w.1.lifecycle.isFinished = true)
    (c : SessionCall) : perform ((logged settings disk peer).session.answer c) w =
      (.error (.illegalState c.operation w.1.lifecycle.name), w) := by
  have entered := perform_enter_of_finished finished
  have checked := perform_checkOpen_of_finished finished
  cases c with
  | deposit => exact perform_map (perform_bind_error (entered _) _) _
  | fetch => exact perform_map (perform_bind_error (entered _) _) _
  | patch => exact perform_map (perform_bind_error (entered _) _) _
  | commit => exact perform_map (perform_bind_error (checked _) _) _
  | rollback => exact perform_map (perform_bind_error (checked _) _) _

theorem isRefusal_map {result : Except DepositError α} (shown : α → SessionAnswer)
    (legal : ∀ e, result = .error e → e.isIllegalState = false) :
    isRefusal (result.map shown) = false := by
  cases result with
  | ok v => rfl
  | error e => exact legal e rfl

/-- What an operation that does not finish a session shows is no refusal. -/
theorem StaysOpen.accepts {a : Operation (StateM (σ × Log)) α} (h : StaysOpen a)
    (shown : α → SessionAnswer) (unfinished : w.1.lifecycle.isFinished = false) :
    isRefusal (perform (shown <$> a) w).1 = false ∧
      (perform (shown <$> a) w).2.1.lifecycle.isFinished = false := by
  obtain ⟨still, legal⟩ := h w unfinished
  rw [perform_map rfl]
  exact ⟨isRefusal_map shown legal, still⟩

/-- A commit ends the session if it succeeds. -/
theorem commit_accepts (unfinished : w.1.lifecycle.isFinished = false) :
    let came := perform ((logged settings disk peer).session.answer .commit) w
    isRefusal came.1 = false ∧
      came.2.1.lifecycle.isFinished = SessionCall.commit.ends came.1 := by
  obtain ⟨still, legal⟩ :=
    @staysOpen_endTransaction σ settings disk peer "commit" w unfinished
  rcases ended : perform ((logged settings disk peer).endTransaction "commit") w with ⟨result, w'⟩
  rw [ended] at still legal
  have committed := perform_map (perform_commit_eq unfinished ended) fun _ => SessionAnswer.done
  intro came
  rw [show came = _ from committed]
  refine ⟨isRefusal_map _ legal, ?_⟩
  cases result with
  | error e => exact still
  | ok v => rfl

/-- A rollback ends the session in any case. -/
theorem rollback_accepts (unfinished : w.1.lifecycle.isFinished = false) :
    let came := perform ((logged settings disk peer).session.answer .rollback) w
    isRefusal came.1 = false ∧
      came.2.1.lifecycle.isFinished = SessionCall.rollback.ends came.1 := by
  have undoing : StaysOpen (if w.1.transaction.isSome then
      (logged settings disk peer).endTransaction "rollback"
      else (logged settings disk peer).deleteCreated) := by
    split
    · exact staysOpen_endTransaction _
    · exact staysOpen_deleteCreated
  obtain ⟨-, legal⟩ := undoing w unfinished
  rcases undone : perform (if w.1.transaction.isSome then
      (logged settings disk peer).endTransaction "rollback"
      else (logged settings disk peer).deleteCreated) w with ⟨result, s, y⟩
  rw [undone] at legal
  have rolledBack := perform_map (perform_rollback_eq unfinished undone)
    fun _ => SessionAnswer.done
  have accepted := isRefusal_map (fun _ => SessionAnswer.done) legal
  intro came
  rw [show came = _ from rolledBack]
  exact ⟨accepted, (congrArg (!·) accepted).symm⟩

/-- **A session over HTTP obeys the law**, whatever its peer answers. -/
theorem obeys (settings : RepositorySettings) (disk : Disk (StateM σ))
    (peer : Transport (StateM σ)) :
    Obeys (fun w : World σ => w.1.lifecycle)
      fun c => perform ((logged settings disk peer).session.answer c) where
  refuses c w finished := perform_answer_of_finished finished c
  accepts c w unfinished := by
    cases c with
    | deposit r parent => exact (staysOpen_deposit r parent).accepts _ unfinished
    | fetch uri => exact (staysOpen_fetch uri).accepts _ unfinished
    | patch uri p token => exact (staysOpen_patch uri p token).accepts _ unfinished
    | commit => exact commit_accepts unfinished
    | rollback => exact rollback_accepts unfinished

end Law

/-- **A finished session is inert**, in memory among the calls of any other sessions, and over HTTP
with any peer. At most one commit or rollback takes effect, also a rollback that could not undo
everything. From then on every call is refused and changes nothing at all: not the session, nor its
count of requests, nor the repository, and the peer is not asked. Before that no call is refused,
and a commit that fails does not end the session. -/
theorem finished_inert :
    (∀ (host : Host) (start : Repository) (deposits : Nat) (schedule : List (String × SessionCall))
        (name : String),
      let (trace, w) := Workspace.run host schedule ⟨start, Table.empty, deposits⟩
      EndsInert (fun w => (w.transaction name).lifecycle) (Workspace.step host name)
        (Workspace.historyOf name trace) w) ∧
    ∀ (σ : Type) (settings : RepositorySettings) (disk : Disk (StateM σ))
        (peer : Transport (StateM σ)) (transaction : Option String) (created : List String) (x : σ)
        (log : Log) (calls : List SessionCall),
      let ask c := perform ((logged settings disk peer).session.answer c)
      let (history, w) := asked ask calls (⟨transaction, .idle, created⟩, x, log)
      EndsInert (fun w : World σ => w.1.lifecycle) ask history w := by
  refine ⟨Workspace.endsInert_run, fun σ settings disk peer transaction created x log calls => ?_⟩
  have law := obeys settings disk peer
  exact law.endsInert (lives_asked law (lives_nil rfl) calls)

/-- A peer that counts what it is asked and fails. -/
def failingPeer : Transport (StateM Nat) := fun _ => do
  modify (· + 1)
  return .ok ⟨500, [], some []⟩

/-- Two sessions in memory, and one over HTTP whose peer fails: its commit does not end it, and its
rollback does. -/
theorem finished_inert_failing :
    let schedule : List (String × SessionCall) :=
      [("a", .fetch "r"), ("b", .commit), ("a", .rollback)]
    let ran := Workspace.run .numbering schedule (.new "r")
    let ask := fun c => perform ((logged { baseUrl := "http://h/rest" }
      (fun _ => pure (.failure FileView.noSuchFile)) failingPeer).session.answer c)
    let after calls := asked ask calls (⟨some "http://h/rest/tx", .idle, []⟩, 0, [])
    (∀ c, ran.2.step .numbering "a" c =
        (.error (.illegalState c.operation (ran.2.transaction "a").lifecycle.name), ran.2)) ∧
      (after [.commit]).1.ended = false ∧
      ((after [.commit, .rollback]).1.ended = true ∧ (after [.commit, .rollback]).2.2.1 = 2) ∧
      ∀ c, ask c (after [.commit, .rollback]).2 =
        (.error (.illegalState c.operation (after [.commit, .rollback]).2.1.lifecycle.name),
          (after [.commit, .rollback]).2) := by
  intro schedule ran ask after
  have stillOpen : (after [.commit]).1.ended = false := by decide +kernel
  have ended : (after [.commit, .rollback]).1.ended = true ∧
      (after [.commit, .rollback]).2.2.1 = 2 := by decide +kernel
  obtain ⟨inMemory, overHttp⟩ := finished_inert
  refine ⟨(inMemory .numbering (Repository.root "r") 0 schedule "a").inert (by decide +kernel),
    stillOpen, ended, ?_⟩
  exact (overHttp Nat { baseUrl := "http://h/rest" } (fun _ => pure (.failure FileView.noSuchFile))
    failingPeer (some "http://h/rest/tx") [] 0 [] [.commit, .rollback]).inert ended.1

end LinkedDeposit.Ldp
