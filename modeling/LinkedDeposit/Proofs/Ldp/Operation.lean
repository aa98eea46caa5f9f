import LinkedDeposit.Ldp.Session

/-!
# Running operations of a session over HTTP

An operation works on what its session knows and on the state of the peer. These are the equations
by which it is run: a sequence part by part (`run_bind_ok`, `run_bind_error`), and a request by what
the transport brings back (`run_send`). What a response comes to is `outcome`; a request that cannot
be sent never reaches the transport (`run_checked_unsent`).
-/

namespace LinkedDeposit.Ldp

open Http (Request Response Transport Method Headers)

/-- Whether a request can be sent. -/
def isSendable (r : Request) : Bool := r.defect?.isNone

section Run

variable {σ α β : Type}

/-- A sequence goes on when its first part has succeeded. -/
theorem run_bind_ok {a : Operation (StateM σ) α} {f : α → Operation (StateM σ) β} {s s' : State}
    {x x' : σ} {v : α} (h : (a.run.run s).run x = ((.ok v, s'), x')) :
    ((a >>= f).run.run s).run x = ((f v).run.run s').run x' := by
  rw [ExceptT.run_bind, StateT.run_bind, StateT.run_bind, h]
  rfl

/-- A sequence ends when its first part has failed. -/
theorem run_bind_error {a : Operation (StateM σ) α} {f : α → Operation (StateM σ) β} {s s' : State}
    {x x' : σ} {e : DepositError} (h : (a.run.run s).run x = ((.error e, s'), x')) :
    ((a >>= f).run.run s).run x = ((.error e, s'), x') := by
  rw [ExceptT.run_bind, StateT.run_bind, StateT.run_bind, h]
  rfl

/-- What cannot fail is run part by part, too. -/
theorem run_then {a : StateT State (StateM σ) α} {f : α → StateT State (StateM σ) β}
    {s s' : State} {x x' : σ} {v : α} (h : (a.run s).run x = ((v, s'), x')) :
    ((a >>= f).run s).run x = ((f v).run s').run x' := by
  rw [StateT.run_bind, StateT.run_bind, h]
  rfl

/-- Asking a peer leaves what the session knows as it is. -/
theorem run_ask (a : StateM σ α) (s : State) (x : σ) :
    ((liftM a : Operation (StateM σ) α).run.run s).run x = ((.ok (a.run x).1, s), (a.run x).2) :=
  rfl

/-- What a response, or the lack of one, comes to. -/
def outcome (uri : String) : Except String Response → Except DepositError Response
  | .error reason => .error (.failure uri ("HTTP request failed: " ++ reason))
  | .ok response =>
    if response.isSuccess then .ok response
    else if response.status = Client.preconditionFailed then .error (.concurrentModification uri)
    else .error (.failure uri (toString response.status ++ " " ++
      String.ofList (Text.trimBlank (response.text?.getD "").toList)))

/-- Whatever a response comes to, it breaks no lifecycle. -/
theorem isIllegalState_of_outcome {uri : String} {received : Except String Response}
    {e : DepositError} (h : outcome uri received = .error e) : e.isIllegalState = false := by
  unfold outcome at h
  split at h
  · exact Except.error.inj h ▸ rfl
  · split at h
    · cases h
    · split at h
      · exact Except.error.inj h ▸ rfl
      · exact Except.error.inj h ▸ rfl

/-- Sending comes to what the transport brings back. -/
theorem run_send {c : Client (StateM σ)} {method : Method} {address : String} {headers : Headers}
    {body : Except String Bytes} {received : Except String Response} {x y : σ}
    (h : (c.transport.checked ⟨method, address, c.credentials ++ headers, body⟩).run x =
      (received, y)) (uri : String) (s : State) :
    ((c.send method address headers body uri).run.run s).run x = ((outcome uri received, s), y) := by
  unfold Client.send
  rw [run_bind_ok (run_ask _ s x), h]
  cases received with
  | error reason => rfl
  | ok response =>
    unfold outcome
    dsimp only
    split
    · rfl
    · split
      · rfl
      · rfl

/-- What is done with a result does not change what was asked for it. -/
theorem snd_run_discard (a : Operation (StateM σ) α) (s : State) (x : σ) :
    (((a >>= fun _ => pure ()).run.run s).run x).2 = ((a.run.run s).run x).2 := by
  rcases h : (a.run.run s).run x with ⟨⟨e | v, s'⟩, y⟩
  · rw [run_bind_error h]
  · rw [run_bind_ok h]
    rfl

theorem run_get (s : State) (x : σ) :
    ((get : Operation (StateM σ) State).run.run s).run x = ((.ok s, s), x) := rfl

/-- Beginning an operation asks nothing. -/
theorem run_enter {s : State} (unfinished : s.lifecycle.isFinished = false) (operation : String)
    (x : σ) : ((Client.enter operation : Operation (StateM σ) Unit).run.run s).run x =
      ((.ok (), { s with lifecycle := .active }), x) := by
  have entered : ((liftM (s.lifecycle.enter operation) : Operation (StateM σ) Lifecycle).run.run
      s).run x = ((.ok .active, s), x) := by
    unfold Lifecycle.enter
    rw [Lifecycle.checkOpen_eq_ok_iff.mpr unfinished]
    rfl
  unfold Client.enter
  exact (run_bind_ok (run_get s x)).trans (run_bind_ok entered)

/-- A request that cannot be sent fails. -/
theorem run_checked_unsent (c : Client (StateM σ)) {r : Request}
    (h : isSendable r = false) (x : σ) :
    ∃ reason, (c.transport.checked r).run x = (.error reason, x) := by
  unfold isSendable at h
  unfold Transport.checked
  cases hd : r.defect? with
  | none =>
    rw [hd] at h
    cases h
  | some reason => exact ⟨reason, rfl⟩

theorem isSendable_iff {r : Request} : isSendable r = true ↔ ∃ url, Url.ofString? r.url = some url ∧
    url.isHttp = true ∧ ∀ h ∈ r.headers, Http.isHeaderValue h.2 = true := by
  unfold isSendable Request.defect?
  cases Url.ofString? r.url with
  | none => simp
  | some url =>
    cases hu : url.isHttp with
    | false => simp [hu]
    | true =>
      cases hh : r.headers.all fun h => Http.isHeaderValue h.2 with
      | true => simpa [hu, hh] using List.all_eq_true.mp hh
      | false => simpa [hu, hh] using List.all_eq_false.mp hh

end Run

end LinkedDeposit.Ldp
