import LinkedDeposit.Proofs.Ldp.Work
import LinkedDeposit.Proofs.Url.Below

/-!
# Opening and finishing a session

What a session asks beside the work. With a transaction, the first exchange opens it, and its
location is the transaction's base; the last one commits it or rolls it back. Without one, opening
and committing ask nothing, and a rollback deletes everything that was created, the last first. A
failed request to delete does not keep the others from being sent.

Results:
* `perform_ask`: a request that needs no more than credentials is sent if its address can be
  reached.
* `run_deleteAll`: every deletion is sent that can be.
* `perform_commit_eq`, `perform_rollback_eq`: what ends a session.
* `perform_commit_of_some`, `perform_rollback_of_some`: finishing a transaction is one request.
* `opened_transaction`, `opened_plain`: what opening a session asks.
* `finishes_transaction`: so a deposit in a transaction is the opening, a conversation and one
  request more.
-/

namespace LinkedDeposit.Ldp

open Http (Request Response Transport Method Headers)

/-! ## What can be sent -/

/-- Whether a header field may have the character. -/
def isHeaderChar (c : Char) : Bool := c = '\t' || (0x20 ≤ c.toNat && c.toNat ≠ 0x7F)

theorem isHeaderValue_iff {s : String} :
    Http.isHeaderValue s = true ↔ ∀ c ∈ s.toList, isHeaderChar c = true := List.all_eq_true

theorem isHeaderChar_base64Char (n : Nat) : isHeaderChar (Text.base64Char n) = true := by
  have small : ∀ n < 63, isHeaderChar (Text.base64Char n) = true := by decide +kernel
  by_cases h : n < 63
  · exact small n h
  · have last : Text.base64Char n = '/' := by
      unfold Text.base64Char
      rw [if_neg (by omega), if_neg (by omega), if_neg (by omega), if_neg (by omega)]
    rw [last]
    decide

/-- Base64 is written in characters that a header field may have. -/
theorem isHeaderChar_base64Chars (bytes : List UInt8) :
    ∀ c ∈ Text.base64Chars bytes, isHeaderChar c = true := by
  have fill : isHeaderChar '=' = true := by decide
  fun_induction Text.base64Chars bytes with
  | case1 => simp
  | case2 => simp [isHeaderChar_base64Char, fill]
  | case3 => simp [isHeaderChar_base64Char, fill]
  | case4 a b c rest n ih => simpa [isHeaderChar_base64Char] using ih

variable {σ : Type} {settings : RepositorySettings} {disk : Disk (StateM σ)}
  {peer : Transport (StateM σ)}

/-- Credentials can always be sent. -/
theorem isHeaderValue_credentials (c : Client (StateM σ)) :
    ∀ h ∈ c.credentials, Http.isHeaderValue h.2 = true := by
  intro h hh
  unfold Client.credentials at hh
  split at hh
  case h_2 => cases hh
  case h_1 username named =>
    have basic : ∀ d ∈ "Basic ".toList, isHeaderChar d = true := by decide
    rw [List.mem_singleton.mp hh]
    refine isHeaderValue_iff.mpr fun d hd => ?_
    unfold Http.basicCredentials Text.toBase64 at hd
    rw [String.toList_append] at hd
    rcases List.mem_append.mp hd with scheme | encoded
    · exact basic d scheme
    · rw [String.toList_ofList] at encoded
      exact isHeaderChar_base64Chars _ d encoded

/-- Whether requests can be sent to an address: whether it is a URL of the web. -/
def isReachable (address : String) : Bool := (Url.ofString? address).any Url.isHttp

theorem isReachable_of_isAddress {address : String} (valid : Url.isAddress address = true) :
    isReachable address = true := by
  obtain ⟨⟨url, read, http⟩, -⟩ := Url.isAddress_iff.mp valid
  exact (Option.any_eq_true _ _).mpr ⟨url, read, http⟩

/-- What has proper headers can be sent to every address that can be reached. -/
theorem isSendable_eq (c : Client (StateM σ)) (method : Method) (address : String)
    {headers : Headers} (proper : ∀ h ∈ headers, Http.isHeaderValue h.2 = true)
    (body : Except String Bytes) :
    isSendable ⟨method, address, c.credentials ++ headers, body⟩ = isReachable address := by
  have all : ∀ h ∈ c.credentials ++ headers, Http.isHeaderValue h.2 = true := fun h hh =>
    (List.mem_append.mp hh).elim (isHeaderValue_credentials c h) (proper h)
  refine Bool.eq_iff_iff.mpr ?_
  rw [isSendable_iff, isReachable, Option.any_eq_true]
  constructor
  · rintro ⟨url, read, http, -⟩
    exact ⟨url, read, http⟩
  · rintro ⟨url, read, http⟩
    exact ⟨url, read, http, all⟩

/-- A request with an address. -/
def Asks (e : Exchange) (method : Method) (address : String) : Prop :=
  e.request.method = method ∧ e.request.url = address

/-- What one request adds to a log: one exchange, or nothing if its address cannot be reached. -/
inductive AsksOnce (method : Method) (address : String) :
    Log → Except String Response → Prop where
  | sent (e : Exchange) (asks : Asks e method address) (reachable : isReachable address = true) :
    AsksOnce method address [e] e.received
  | unsent (reason : String) (lost : isReachable address = false) :
    AsksOnce method address [] (.error reason)

theorem AsksOnce.exists_eq {method : Method} {address : String} {added : Log}
    {received : Except String Response} (h : AsksOnce method address added received)
    (reachable : isReachable address = true) :
    ∃ e, added = [e] ∧ Asks e method address ∧ e.received = received := by
  cases h with
  | sent e asks => exact ⟨e, rfl, asks, rfl⟩
  | unsent reason lost =>
    rw [reachable] at lost
    cases lost

theorem AsksOnce.asks {method : Method} {address : String} {added : Log}
    {received : Except String Response} (h : AsksOnce method address added received) :
    ∀ e ∈ added, Asks e method address := by
  cases h with
  | sent e asks =>
    intro e' he
    rwa [List.mem_singleton.mp he]
  | unsent =>
    intro e' he
    cases he

/-- **A request that needs no more than credentials is sent** if its address can be reached. -/
theorem perform_ask (method : Method) (address uri : String) (w : World σ) :
    ∃ added received x, AsksOnce method address added received ∧
      perform ((logged settings disk peer).send method address [] (.ok []) uri) w =
        (outcome uri received, w.1, x, w.2.2 ++ added) := by
  let c := logged settings disk peer
  have sendable : isSendable ⟨method, address, c.credentials ++ [], .ok []⟩ = isReachable address :=
    isSendable_eq c method address (by simp) (.ok [])
  have sends := @perform_send σ settings disk peer method address [] (.ok []) uri w
  rcases sends with ⟨proper, sent⟩ | ⟨defect, reason, unsent⟩
  · exact ⟨_, _, _, .sent ⟨⟨method, address, c.credentials ++ [], .ok []⟩, _⟩ ⟨rfl, rfl⟩
      (sendable ▸ proper), sent⟩
  · refine ⟨[], .error reason, w.2.1, .unsent reason (sendable ▸ defect), ?_⟩
    rw [List.append_nil]
    exact unsent

/-! ## Finishing a session -/

/-- Where a transaction is ended. -/
def endingOf (tx action : String) : String :=
  tx ++ "/" ++ Vocabulary.transactionSegment ++ "/fcr:" ++ action

/-- Ending a transaction is one request. -/
theorem perform_endTransaction {tx : String} {w : World σ} (opened : w.1.transaction = some tx)
    (action : String) :
    ∃ added received x, AsksOnce .post (endingOf tx action) added received ∧
      perform ((logged settings disk peer).endTransaction action) w =
        ((outcome (endingOf tx action) received).map fun _ => (), w.1, x, w.2.2 ++ added) := by
  obtain ⟨added, received, x, once, sent⟩ :=
    @perform_ask σ settings disk peer .post (endingOf tx action) (endingOf tx action) w
  refine ⟨added, received, x, once, ?_⟩
  unfold Client.endTransaction
  rw [perform_bind_ok (perform_get w), opened]
  dsimp only
  cases came : outcome (endingOf tx action) received with
  | error reason =>
    rw [came] at sent
    exact perform_bind_error sent _
  | ok response =>
    rw [came] at sent
    exact perform_bind_ok sent _

/-- **Every deletion is sent** that can be, in order, whatever comes back for the ones before it. -/
theorem run_deleteAll (uris : List String) (w : World σ) :
    ∃ failed deletes x,
      List.Forall₂ (fun e uri => Asks e .delete uri) deletes (uris.filter isReachable) ∧
        (((logged settings disk peer).deleteAll uris).run w.1).run w.2 =
          ((failed, w.1), (x, w.2.2 ++ deletes)) := by
  induction uris generalizing w with
  | nil =>
    refine ⟨[], [], w.2.1, .nil, ?_⟩
    rw [List.append_nil]
    rfl
  | cons uri uris ih =>
    obtain ⟨added, received, x, once, sent⟩ := @perform_ask σ settings disk peer .delete uri uri w
    obtain ⟨failed, deletes, y, others, run⟩ := ih (w.1, x, w.2.2 ++ added)
    rw [List.append_assoc] at run
    refine ⟨_, added ++ deletes, y, ?_, (run_then (run_of_perform sent)).trans (run_then run)⟩
    cases once with
    | sent e asks reachable =>
      rw [List.filter_cons_of_pos reachable]
      exact .cons asks others
    | unsent reason lost =>
      rw [List.filter_cons_of_neg (Bool.eq_false_iff.mp lost)]
      exact others

theorem perform_deleteCreated (w : World σ) : ∃ deletes,
    List.Forall₂ (fun e uri => Asks e .delete uri) deletes (w.1.created.filter isReachable) ∧
      (perform (logged settings disk peer).deleteCreated w).2.2.2 = w.2.2 ++ deletes := by
  obtain ⟨failed, deletes, x, asks, run⟩ := @run_deleteAll σ settings disk peer w.1.created w
  have deleted : perform (liftM ((logged settings disk peer).deleteAll w.1.created) :
      Operation (StateM (σ × Log)) (List String)) w = (.ok failed, w.1, x, w.2.2 ++ deletes) := by
    rw [perform_lift, run]
  refine ⟨deletes, asks, ?_⟩
  unfold Client.deleteCreated
  rw [perform_bind_ok (perform_get w)]
  dsimp only
  rw [perform_bind_ok deleted]
  cases failed.isEmpty with
  | true => rfl
  | false => rfl

theorem perform_checkOpen {w : World σ} (unfinished : w.1.lifecycle.isFinished = false)
    (operation : String) :
    perform (Client.checkOpen operation : Operation (StateM (σ × Log)) Unit) w = (.ok (), w) := by
  unfold Client.checkOpen
  rw [perform_bind_ok (perform_get w), Lifecycle.checkOpen_eq_ok_iff.mpr unfinished]
  rfl

variable {w : World σ} {tx : String}

/-- A commit ends the transaction, and then the session if that succeeded. -/
theorem perform_commit_eq (unfinished : w.1.lifecycle.isFinished = false)
    {result : Except DepositError Unit} {w' : World σ}
    (ended : perform ((logged settings disk peer).endTransaction "commit") w = (result, w')) :
    perform (logged settings disk peer).commit w = (result,
      if result.toBool then ({ w'.1 with lifecycle := .finished true }, w'.2) else w') := by
  unfold Client.commit
  rw [perform_bind_ok (perform_checkOpen unfinished "commit")]
  cases result with
  | error e => exact perform_bind_error ended _
  | ok v => exact perform_bind_ok ended _

/-- **A commit is one request**, if there is a transaction. -/
theorem perform_commit_of_some (unfinished : w.1.lifecycle.isFinished = false)
    (opened : w.1.transaction = some tx) :
    ∃ added received w', AsksOnce .post (endingOf tx "commit") added received ∧
      w'.2.2 = w.2.2 ++ added ∧ perform (logged settings disk peer).commit w =
        ((outcome (endingOf tx "commit") received).map fun _ => (), w') := by
  obtain ⟨added, received, x, once, ended⟩ :=
    @perform_endTransaction σ settings disk peer tx w opened "commit"
  refine ⟨added, received, _, once, ?_, perform_commit_eq unfinished ended⟩
  split <;> rfl

/-- Without a transaction, a commit asks nothing. -/
theorem perform_commit_of_none (unfinished : w.1.lifecycle.isFinished = false)
    (opened : w.1.transaction = none) :
    perform (logged settings disk peer).commit w =
      (.ok (), { w.1 with lifecycle := .finished true }, w.2) := by
  have nothing : perform ((logged settings disk peer).endTransaction "commit") w = (.ok (), w) := by
    unfold Client.endTransaction
    rw [perform_bind_ok (perform_get w), opened]
    rfl
  exact perform_commit_eq unfinished nothing

/-- A rollback undoes the work and ends the session, whatever comes of that. -/
theorem perform_rollback_eq (unfinished : w.1.lifecycle.isFinished = false)
    {result : Except DepositError Unit} {s : State} {y : σ × Log}
    (undone : perform (if w.1.transaction.isSome then
        (logged settings disk peer).endTransaction "rollback"
      else (logged settings disk peer).deleteCreated) w = (result, s, y)) :
    perform (logged settings disk peer).rollback w =
      (result, { s with lifecycle := .finished false }, y) := by
  unfold Client.rollback
  rw [perform_bind_ok (perform_checkOpen unfinished "rollback"), perform_bind_ok (perform_get w)]
  dsimp only
  rw [perform_bind_ok (perform_lift_run _ w), undone]
  cases result <;> rfl

/-- A rollback asks what undoes the work, and nothing else. -/
theorem perform_rollback (unfinished : w.1.lifecycle.isFinished = false) :
    (perform (logged settings disk peer).rollback w).2.2.2 =
      (perform (if w.1.transaction.isSome then (logged settings disk peer).endTransaction "rollback"
        else (logged settings disk peer).deleteCreated) w).2.2.2 := by
  rw [perform_rollback_eq unfinished rfl]
  rfl

/-- **A rollback is one request**, if there is a transaction. -/
theorem perform_rollback_of_some (unfinished : w.1.lifecycle.isFinished = false)
    (opened : w.1.transaction = some tx) :
    ∃ added received, AsksOnce .post (endingOf tx "rollback") added received ∧
      (perform (logged settings disk peer).rollback w).2.2.2 = w.2.2 ++ added := by
  obtain ⟨added, received, x, once, ended⟩ :=
    @perform_endTransaction σ settings disk peer tx w opened "rollback"
  have some : w.1.transaction.isSome = true := by rw [opened]; rfl
  refine ⟨added, received, once, ?_⟩
  rw [perform_rollback unfinished, if_pos some, ended]

/-- **A rollback deletes everything that was created** and can be reached, if there is no
transaction. -/
theorem perform_rollback_of_none (unfinished : w.1.lifecycle.isFinished = false)
    (opened : w.1.transaction = none) : ∃ deletes,
    List.Forall₂ (fun e uri => Asks e .delete uri) deletes (w.1.created.filter isReachable) ∧
      (perform (logged settings disk peer).rollback w).2.2.2 = w.2.2 ++ deletes := by
  obtain ⟨deletes, asks, deleted⟩ := @perform_deleteCreated σ settings disk peer w
  have none : ¬ w.1.transaction.isSome = true := by rw [opened]; decide
  refine ⟨deletes, asks, ?_⟩
  rw [perform_rollback unfinished, if_neg none, deleted]

/-! ## The end of a deposit -/

section Deposit

variable {observe : Event → StateM σ Unit} {tree : List Resource} {target : String}
  {s : Session (StateT State (StateM (σ × Log)))} {w w' : World σ} {report : Report}
  {e : DepositError}

/-- What was sent when something was performed. -/
def exchanges {α : Type} (out : Except DepositError α × World σ) : Log := out.2.2.2

/-- After the work, a deposit commits. -/
theorem perform_depositTree_ok
    (worked : perform (walkAndRemap s (besideLog observe) tree target) w = (.ok report, w')) :
    let ended := perform (ExceptT.mk (depositTree s (besideLog observe) tree target)) w
    exchanges ended = exchanges (perform s.commit w') ∧
      ended.1 = (perform s.commit w').1.map fun _ => report := by
  unfold depositTree
  rw [perform_handle, worked]
  dsimp only
  rw [perform_handle]
  rcases perform s.commit w' with ⟨e | v, s', y⟩
  · exact ⟨rfl, rfl⟩
  · exact ⟨rfl, rfl⟩

/-- After a failure, a deposit rolls back and reports the failure. -/
theorem perform_depositTree_error (legal : e.isIllegalState = false)
    (worked : perform (walkAndRemap s (besideLog observe) tree target) w = (.error e, w')) :
    let ended := perform (ExceptT.mk (depositTree s (besideLog observe) tree target)) w
    exchanges ended = exchanges (perform s.rollback w') ∧ ended.1 = .error e := by
  unfold depositTree
  rw [perform_handle, worked]
  dsimp only
  rw [legal]
  exact ⟨rfl, rfl⟩

end Deposit

/-! ## Opening a session -/

section Opening

variable {x : σ} {s : Session (StateT State (StateM (σ × Log)))} {start : World σ}

/-- Where a transaction is opened. -/
def openingOf (settings : RepositorySettings) : String :=
  baseOf settings ++ "/" ++ Vocabulary.transactionSegment

/-- An exchange that came to a response gives its location. -/
theorem AsksOnce.location {address uri base : String} {added : Log}
    {received : Except String Response} {response : Response}
    (h : AsksOnce .post address added received) (came : outcome uri received = .ok response)
    (located : response.header? "location" = some base) :
    ∃ e, added = [e] ∧ e.location? = some base := by
  cases h with
  | sent e asks =>
    have location := Exchange.location?_of_post e.received uri asks.1
    rw [came] at location
    exact ⟨e, rfl, location.trans located⟩
  | unsent => cases came

/-- Opening a transaction is one request. If that succeeds, its location is the transaction's
base. -/
theorem perform_beginTransaction (w : World σ) :
    ∃ added received result s' x, AsksOnce .post (openingOf settings) added received ∧
      perform (logged settings disk peer).beginTransaction w =
        (result, s', x, w.2.2 ++ added) ∧
          (result = .ok () → ∃ e base, added = [e] ∧ e.location? = some base ∧
            s' = { w.1 with transaction := some (Text.trimSlashes base) }) := by
  let c := logged settings disk peer
  obtain ⟨added, received, x, once, sent⟩ :=
    @perform_ask σ settings disk peer .post (openingOf settings) (openingOf settings) w
  refine ⟨added, received, ?_⟩
  unfold Client.beginTransaction
  change ∃ result s' x, _ ∧ perform (c.send .post (openingOf settings) [] (.ok [])
    (openingOf settings) >>= _) w = _ ∧ _
  cases came : outcome (openingOf settings) received with
  | error e =>
    rw [came] at sent
    exact ⟨.error e, w.1, x, once, perform_bind_error sent _, fun ok => by cases ok⟩
  | ok response =>
    rw [came] at sent
    rw [perform_bind_ok sent]
    cases located : response.header? "location" with
    | none => exact ⟨_, w.1, x, once, rfl, fun ok => by cases ok⟩
    | some base =>
      obtain ⟨e, rfl, given⟩ := once.location came located
      exact ⟨.ok (), { w.1 with transaction := some (Text.trimSlashes base) }, x, once, rfl,
        fun _ => ⟨e, base, rfl, given, rfl⟩⟩

/-- With a transaction, opening a session begins it. -/
theorem perform_openSession (asked : settings.useTransactions = true) (w : World σ) :
    perform (logged settings disk peer).openSession w =
      perform (do
        (logged settings disk peer).beginTransaction
        return (logged settings disk peer).session) w := by
  have asks : (logged settings disk peer).settings.useTransactions = true := asked
  unfold Client.openSession
  rw [asks]
  rfl

/-- With a transaction, the location of the first exchange is its base. -/
theorem opened_transaction (asked : settings.useTransactions = true)
    (opened : perform (logged settings disk peer).openSession (State.initial, x, []) =
      (.ok s, start)) :
    s = (logged settings disk peer).session ∧ ∃ e base y, Asks e .post (openingOf settings) ∧
      e.location? = some base ∧
        start = (⟨some (Text.trimSlashes base), .idle, []⟩, y, [e]) := by
  obtain ⟨added, received, result, s', y, once, began, ok⟩ :=
    @perform_beginTransaction σ settings disk peer (State.initial, x, [])
  rw [perform_openSession asked] at opened
  cases result with
  | error e =>
    rw [perform_bind_error began] at opened
    cases opened
  | ok v =>
    rw [perform_bind_ok began] at opened
    obtain ⟨same, rfl⟩ := Prod.mk.inj opened
    obtain ⟨e, base, rfl, located, rfl⟩ := ok rfl
    exact ⟨(Except.ok.inj same).symm, e, base, y, once.asks e List.mem_cons_self, located, rfl⟩

/-- Without a transaction, opening a session asks nothing. -/
theorem opened_plain (asked : settings.useTransactions = false)
    (opened : perform (logged settings disk peer).openSession (State.initial, x, []) =
      (.ok s, start)) :
    s = (logged settings disk peer).session ∧ start = (State.initial, x, []) := by
  have asks : (logged settings disk peer).settings.useTransactions = false := asked
  unfold Client.openSession at opened
  rw [asks] at opened
  obtain ⟨same, rfl⟩ := Prod.mk.inj opened
  exact ⟨(Except.ok.inj same).symm, rfl⟩

end Opening

/-! ## A deposit in a transaction -/

section Transaction

variable {observe : Event → StateM σ Unit} {tree : List Resource} {tx target : String}
  {before since : Log} {w w' : World σ} {report : Report} {e : DepositError}

/-- After the work, one request commits it. If that fails, so does the deposit. -/
theorem commits_work (unfinished : w'.1.lifecycle.isFinished = false)
    (opened : w'.1.transaction = some tx) :
    let s := (logged settings disk peer).session
    let ended := perform (ExceptT.mk (depositTree s (besideLog observe) tree target)) w
    perform (walkAndRemap s (besideLog observe) tree target) w = (.ok report, w') →
      ∃ added received, AsksOnce .post (endingOf tx "commit") added received ∧
        exchanges ended = w'.2.2 ++ added ∧
          ended.1 = (outcome (endingOf tx "commit") received).map fun _ => report := by
  intro s ended worked
  obtain ⟨added, received, w'', once, grown, committed⟩ :=
    @perform_commit_of_some σ settings disk peer _ _ unfinished opened
  obtain ⟨log, reported⟩ := perform_depositTree_ok worked
  refine ⟨added, received, once, ?_, ?_⟩
  · exact log.trans ((congrArg exchanges committed).trans grown)
  · refine reported.trans ((congrArg (fun out => out.1.map fun _ => report) committed).trans ?_)
    cases outcome (endingOf tx "commit") received with
    | error reason => rfl
    | ok response => rfl

/-- After a failure, one request undoes the work. What comes of it is not reported. -/
theorem undoes_work (unfinished : w'.1.lifecycle.isFinished = false)
    (opened : w'.1.transaction = some tx) (legal : e.isIllegalState = false) :
    let s := (logged settings disk peer).session
    let ended := perform (ExceptT.mk (depositTree s (besideLog observe) tree target)) w
    perform (walkAndRemap s (besideLog observe) tree target) w = (.error e, w') →
      ∃ added received, AsksOnce .post (endingOf tx "rollback") added received ∧
        exchanges ended = w'.2.2 ++ added ∧ ended.1 = .error e := by
  intro s ended worked
  obtain ⟨added, received, once, grown⟩ :=
    @perform_rollback_of_some σ settings disk peer _ _ unfinished opened
  obtain ⟨log, reported⟩ := perform_depositTree_error legal worked
  exact ⟨added, received, once, log.trans grown, reported⟩

/-- **A deposit in a transaction is a conversation and one request more**, which commits the work if
it succeeded and rolls it back otherwise. A failed commit is reported; what comes of a rollback is
not. -/
theorem finishes_transaction
    (started : AtWork (baseOf settings) (some tx) target before since w) :
    let s := (logged settings disk peer).session
    let worked := perform (walkAndRemap s (besideLog observe) tree target) w
    let ended := perform (ExceptT.mk (depositTree s (besideLog observe) tree target)) w
    let address := endingOf tx (if worked.1.isOk then "commit" else "rollback")
    ∃ more added received, exchanges worked = before ++ (since ++ more) ∧
      Conversation (baseOf settings) (some tx) target (since ++ more) ∧
        AsksOnce .post address added received ∧ exchanges ended = exchanges worked ++ added ∧
          ended.1 = worked.1.bind fun report => (outcome address received).map fun _ => report := by
  intro s
  have comes := @works_walkAndRemap σ settings disk peer (some tx) target before observe tree _ _
    started trivial
  rcases worked : perform (walkAndRemap s (besideLog observe) tree target) w with
    ⟨failure | report, w'⟩
  · rw [worked] at comes
    obtain ⟨more, working, legal⟩ := comes
    obtain ⟨added, received, once, log, reported⟩ :=
      undoes_work working.unfinished working.opened legal worked
    exact ⟨more, added, received, working.log, working.conversation, once, log, reported⟩
  · rw [worked] at comes
    obtain ⟨more, working, -⟩ := comes
    obtain ⟨added, received, once, log, reported⟩ :=
      commits_work working.unfinished working.opened worked
    exact ⟨more, added, received, working.log, working.conversation, once, log, reported⟩

end Transaction

end LinkedDeposit.Ldp
