import LinkedDeposit.Proofs.Ldp.Operation
import LinkedDeposit.Proofs.Session.Transcript

/-!
# Exchanges with a peer

The transport of a session can keep a log of its exchanges, each a request with what came back for it
(`logged`). The peer behind it is any function on a state, so its answers may depend on everything
that was sent before. A request that cannot be sent is not exchanged, and neither is anything else
that a session does: it reads files, announces events and changes what it knows.

A world is what the session knows together with the state of the peer and the log. `perform` runs an
operation in a world.

Results:
* `perform_bind`: a sequence is performed part by part.
* `perform_send`: sending adds one exchange, or none if the request cannot be sent.
-/

namespace LinkedDeposit.Ldp

open Http (Request Response Transport Method Headers)

/-- A request with what came back for it. -/
structure Exchange where
  request : Request
  received : Except String Response

namespace Exchange

/-- The response to a request that succeeded. -/
def success? (e : Exchange) : Option Response := e.received.toOption.filter (·.isSuccess)

/-- The address of what a request has created. -/
def location? (e : Exchange) : Option String :=
  if e.request.method = .post then e.success?.bind (·.header? "location") else none

/-- The address of the description of what a request has created. -/
def description? (e : Exchange) : Option String :=
  if e.request.method = .post then e.success?.bind Client.describedBy? else none

/-- A request succeeded if it came to its response. -/
theorem success?_eq (r : Request) (received : Except String Response) (uri : String) :
    success? ⟨r, received⟩ = (outcome uri received).toOption := by
  cases received with
  | error reason => rfl
  | ok response =>
    cases hs : response.isSuccess with
    | true => simp [success?, outcome, Except.toOption, hs]
    | false =>
      by_cases stale : response.status = Client.preconditionFailed
      · simp [success?, outcome, Except.toOption, hs, stale]
      · simp [success?, outcome, Except.toOption, hs, stale]

variable {r : Request} (received : Except String Response) (uri : String)

/-- What a request has created is found in the response that it came to. -/
theorem location?_of_post (creates : r.method = .post) :
    location? ⟨r, received⟩ = (outcome uri received).toOption.bind (·.header? "location") := by
  rw [← success?_eq]
  exact if_pos creates

theorem location?_of_ne_post {e : Exchange} (creates : e.request.method ≠ .post) :
    e.location? = none := if_neg creates

theorem description?_of_post (creates : r.method = .post) :
    description? ⟨r, received⟩ = (outcome uri received).toOption.bind Client.describedBy? := by
  rw [← success?_eq]
  exact if_pos creates

end Exchange

/-- The exchanges of a session, in order. -/
abbrev Log := List Exchange

/-- The addresses that requests have created, in order. -/
def locations (log : Log) : List String := log.filterMap Exchange.location?

/-- The addresses of descriptions that requests have created. -/
def descriptions (log : Log) : List String := log.filterMap Exchange.description?

theorem locations_append (log more : Log) :
    locations (log ++ more) = locations log ++ locations more := List.filterMap_append

theorem descriptions_append (log more : Log) :
    descriptions (log ++ more) = descriptions log ++ descriptions more := List.filterMap_append

section Performing

variable {σ α β : Type}

/-- A transport that logs its exchanges. -/
def exchanging (peer : Transport (StateM σ)) : Transport (StateM (σ × Log)) := fun r x =>
  (((peer r).run x.1).1, (((peer r).run x.1).2, x.2 ++ [⟨r, ((peer r).run x.1).1⟩]))

/-- A client that logs its exchanges. -/
def logged (settings : RepositorySettings) (disk : Disk (StateM σ)) (peer : Transport (StateM σ)) :
    Client (StateM (σ × Log)) :=
  ⟨settings, fun path => onFirst (disk path), exchanging peer⟩

/-- A notifier beside a log. -/
def besideLog (observe : Event → StateM σ Unit) (e : Event) : StateT State (StateM (σ × Log)) Unit :=
  liftM (onFirst (observe e) : StateM (σ × Log) Unit)

/-- What a session knows, the state of its peer and the exchanges between them. -/
abbrev World (σ : Type) := State × σ × Log

/-- Runs an operation in a world. -/
def perform (a : Operation (StateM (σ × Log)) α) (w : World σ) : Except DepositError α × World σ :=
  (((a.run.run w.1).run w.2).1.1, ((a.run.run w.1).run w.2).1.2, ((a.run.run w.1).run w.2).2)

/-- **A sequence is performed part by part**, up to the first failure. -/
theorem perform_bind (a : Operation (StateM (σ × Log)) α)
    (f : α → Operation (StateM (σ × Log)) β) (w : World σ) :
    perform (a >>= f) w =
      match (perform a w).1 with
      | .ok v => perform (f v) (perform a w).2
      | .error e => (.error e, (perform a w).2) := by
  rcases h : (a.run.run w.1).run w.2 with ⟨⟨e | v, s⟩, x⟩
  · simp only [perform, run_bind_error h, h]
  · simp only [perform, run_bind_ok h, h]

theorem perform_bind_ok {a : Operation (StateM (σ × Log)) α} {w w' : World σ} {v : α}
    (h : perform a w = (.ok v, w')) (f : α → Operation (StateM (σ × Log)) β) :
    perform (a >>= f) w = perform (f v) w' := by
  rw [perform_bind, h]

theorem perform_bind_error {a : Operation (StateM (σ × Log)) α} {w w' : World σ} {e : DepositError}
    (h : perform a w = (.error e, w')) (f : α → Operation (StateM (σ × Log)) β) :
    perform (a >>= f) w = (.error e, w') := by
  rw [perform_bind, h]

/-- What a session knows can be asked at any time. -/
theorem perform_get (w : World σ) :
    perform (get : Operation (StateM (σ × Log)) State) w = (.ok w.1, w) := rfl

theorem run_of_perform {a : Operation (StateM (σ × Log)) α} {w : World σ}
    {result : Except DepositError α} {w' : World σ} (h : perform a w = (result, w')) :
    (a.run.run w.1).run w.2 = ((result, w'.1), w'.2) := by
  obtain ⟨rfl, rfl⟩ := Prod.mk.inj h
  rfl

/-- What cannot fail succeeds. -/
theorem perform_lift (m : StateT State (StateM (σ × Log)) α) (w : World σ) :
    perform (liftM m) w =
      (.ok ((m.run w.1).run w.2).1.1, ((m.run w.1).run w.2).1.2, ((m.run w.1).run w.2).2) := rfl

/-- Giving the result of an operation, even a failure, succeeds. -/
theorem perform_lift_run (a : Operation (StateM (σ × Log)) α) (w : World σ) :
    perform (ExceptT.lift a.run) w = (.ok (perform a w).1, (perform a w).2) := rfl

/-- What handles every result is performed after it. -/
theorem perform_handle (a : Operation (StateM (σ × Log)) α)
    (f : Except DepositError α → StateT State (StateM (σ × Log)) (Except DepositError β))
    (w : World σ) :
    perform (ExceptT.mk (a.run >>= f)) w =
      perform (ExceptT.mk (f (perform a w).1)) (perform a w).2 := rfl

/-- Announcing an event changes neither what the session knows nor the log. -/
theorem perform_besideLog (observe : Event → StateM σ Unit) (e : Event) (w : World σ) :
    perform (liftM (besideLog observe e)) w =
      (.ok (), w.1, ((observe e).run w.2.1).2, w.2.2) := rfl

variable {settings : RepositorySettings} {disk : Disk (StateM σ)} {peer : Transport (StateM σ)}

/-- **Sending adds one exchange**, or none if the request cannot be sent. -/
theorem perform_send (method : Method) (address : String) (headers : Headers)
    (body : Except String Bytes) (uri : String) (w : World σ) :
    let c := logged settings disk peer
    let r : Request := ⟨method, address, c.credentials ++ headers, body⟩
    (isSendable r = true ∧ perform (c.send method address headers body uri) w =
      (outcome uri ((peer r).run w.2.1).1, w.1, ((peer r).run w.2.1).2,
        w.2.2 ++ [⟨r, ((peer r).run w.2.1).1⟩])) ∨
    (isSendable r = false ∧ ∃ reason, perform (c.send method address headers body uri) w =
      (outcome uri (.error reason), w)) := by
  intro c r
  cases sent : isSendable r with
  | true =>
    have carried : (c.transport.checked r).run w.2 =
        (((peer r).run w.2.1).1, ((peer r).run w.2.1).2,
          w.2.2 ++ [⟨r, ((peer r).run w.2.1).1⟩]) := by
      unfold Transport.checked
      rw [Option.isNone_iff_eq_none.mp sent]
      rfl
    refine .inl ⟨rfl, ?_⟩
    unfold perform
    rw [run_send carried]
  | false =>
    obtain ⟨reason, refused⟩ := run_checked_unsent c sent w.2
    refine .inr ⟨rfl, reason, ?_⟩
    unfold perform
    rw [run_send refused]

end Performing

end LinkedDeposit.Ldp
