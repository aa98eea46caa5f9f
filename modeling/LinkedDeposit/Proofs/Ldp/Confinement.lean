import LinkedDeposit.Proofs.Ldp.Address
import LinkedDeposit.Proofs.Ldp.Finishing

/-!
# Nothing leaves a transaction

In a transaction every address that the peer gives is below the transaction's base. A session moves
it to the base of the repository, and back when it sends a request, so it comes to the same address
again. Only the target of a deposit is not given by the peer: it is configured, and where it is not
below the base of the repository, no move takes it along. Then the roots of the package are created
at the target itself, outside the transaction.

Results:
* `Justified.confined`: an address that is known is below the transaction, the target apart.
* `run_confined`: so is every request of a run after the first.
* `foreign_target_escapes`: a run with a target outside the repository.
-/

namespace LinkedDeposit.Ldp

open Http (Request Response Transport Method Headers)

/-- Whether an exchange gives only addresses below a base. -/
def Exchange.givesBelow (tx : String) (e : Exchange) : Bool :=
  e.location?.all (isBelow tx) && e.description?.all (isBelow tx)

section Addresses

variable {base tx target uri : String} {log : Log}

theorem Exchange.givesBelow_iff {e : Exchange} : e.givesBelow tx = true ↔
    (∀ address ∈ e.location?, isBelow tx address = true) ∧
      ∀ address ∈ e.description?, isBelow tx address = true := by
  rw [givesBelow, Bool.and_eq_true, Option.all_eq_true, Option.all_eq_true]
  rfl

theorem isBelow_description (inside : ∀ e ∈ log, e.givesBelow tx = true) {address : String}
    (known : address ∈ descriptions log) : isBelow tx address = true := by
  obtain ⟨e, he, given⟩ := List.mem_filterMap.mp known
  exact (Exchange.givesBelow_iff.mp (inside e he)).2 address given

/-- What was created in the transaction is addressed there. -/
theorem isBelow_of_mem_nodes (inside : ∀ e ∈ log, e.givesBelow tx = true)
    (known : uri ∈ nodes base (some tx) log) :
    isBelow tx (toWire base (some tx) uri) = true := by
  have back {address : String} (below : isBelow tx address = true) :
      isBelow tx (toWire base (some tx) (fromWire base (some tx) address)) = true := by
    rwa [toWire_fromWire (.inl below)]
  rcases List.mem_append.mp known with known | known
  · obtain ⟨address, given, rfl⟩ := List.mem_map.mp known
    obtain ⟨e, he, given⟩ := List.mem_filterMap.mp given
    exact back ((Exchange.givesBelow_iff.mp (inside e he)).1 address given)
  · obtain ⟨address, given, rfl⟩ := List.mem_map.mp known
    exact back (isBelow_description inside given)

theorem Exchange.givesBelow_trimSlashes (tx : String) (e : Exchange) :
    e.givesBelow (Text.trimSlashes tx) = e.givesBelow tx := by
  have same : isBelow (Text.trimSlashes tx) = isBelow tx := funext (isBelow_trimSlashes tx)
  unfold Exchange.givesBelow
  rw [same]

/-- Whether a request stays in the transaction, or creates a root at a target outside the
repository. -/
def Confined (base tx target : String) (method : Method) (address : String) : Prop :=
  isBelow tx address = true ∨
    (method = .post ∧ address = target ∧ isBelow base target = false)

/-- **A known address is below the transaction**, if it is not the target itself. -/
theorem Justified.confined {method : Method} {address : String}
    (h : Justified base (some tx) target log method address)
    (inside : ∀ e ∈ log, e.givesBelow tx = true) : Confined base tx target method address := by
  cases h with
  | create parent known =>
    rcases List.mem_cons.mp known with rfl | known
    · cases foreign : isBelow base parent with
      | true => exact .inl (isBelow_toWire foreign)
      | false =>
        have stays : toWire base (some tx) parent = parent := by
          rw [toWire_some]
          exact rebase_of_not_isBelow foreign tx
        exact .inr ⟨rfl, stays, foreign⟩
    · exact .inl (isBelow_of_mem_nodes inside (List.mem_append_left _ known))
  | describe address known => exact .inl (isBelow_description inside known)
  | read uri known => exact .inl (isBelow_of_mem_nodes inside known)
  | update uri known => exact .inl (isBelow_of_mem_nodes inside known)
  | replace uri known => exact .inl (isBelow_of_mem_nodes inside known)

/-- A conversation stays in the transaction as long as the peer does. -/
theorem Conversation.confined (h : Conversation base (some tx) target log)
    (inside : ∀ e ∈ log, e.givesBelow tx = true) {e : Exchange} (he : e ∈ log) :
    Confined base tx target e.request.method e.request.url := by
  obtain ⟨earlier, later, rfl⟩ := List.append_of_mem he
  exact (h.justified earlier e later rfl).confined fun e' he' =>
    inside e' (List.mem_append_left _ he')

/-- A transaction is ended below its base. -/
theorem isBelow_endingOf (tx action : String) :
    isBelow tx (endingOf (Text.trimSlashes tx) action) = true := by
  have rest : endingOf (Text.trimSlashes tx) action = Text.trimSlashes tx ++
      String.ofList ('/' :: (Vocabulary.transactionSegment ++ "/fcr:" ++ action).toList) := by
    refine String.toList_injective ?_
    simp [endingOf]
  rw [rest]
  exact isBelow_append rfl tx

end Addresses

section Run

variable {σ : Type} {disk : Disk (StateM σ)} {peer : Transport (StateM σ)}
  {observe : Event → StateM σ Unit} {tree : List Resource} {tx : String} {x : σ}

/-- What a run with some settings exchanges with its peer. -/
def runExchanges (config : Config) (disk : Disk (StateM σ)) (peer : Transport (StateM σ))
    (observe : Event → StateM σ Unit) (tree : List Resource) (x : σ) : Log :=
  let client := logged config.repository disk peer
  exchanges (perform (ExceptT.mk
    (depositPackage (besideLog observe) client.openSession tree config.target))
    (State.initial, x, []))

/-- A run whose session could not be opened sends no more than the request to open it. -/
theorem tail_of_unopened {config : Config} (asked : config.repository.useTransactions = true)
    {e : DepositError} {w : World σ}
    (failed : perform (logged config.repository disk peer).openSession (State.initial, x, []) =
      (.error e, w)) : (runExchanges config disk peer observe tree x).tail = [] := by
  have log : runExchanges config disk peer observe tree x = w.2.2 := by
    unfold runExchanges depositPackage
    dsimp only
    rw [perform_handle, failed]
    rfl
  obtain ⟨added, received, result, s, y, once, began, -⟩ :=
    @perform_beginTransaction σ config.repository disk peer (State.initial, x, [])
  have sent : w.2.2 = added := by
    rw [perform_openSession asked] at failed
    cases result with
    | error e =>
      rw [perform_bind_error began] at failed
      rw [← (Prod.mk.inj failed).2]
      rfl
    | ok v =>
      rw [perform_bind_ok began] at failed
      cases failed
  rw [log, sent]
  cases once with
  | sent => rfl
  | unsent => rfl

/-- The exchanges of a run after its session was opened are those of the deposit. -/
theorem runExchanges_of_opened {config : Config} {s : Session (StateT State (StateM (σ × Log)))}
    {w : World σ}
    (opened : perform (logged config.repository disk peer).openSession (State.initial, x, []) =
      (.ok s, w)) :
    runExchanges config disk peer observe tree x =
      exchanges (perform (ExceptT.mk (depositTree s (besideLog observe) tree config.target)) w) := by
  unfold runExchanges depositPackage
  dsimp only
  rw [perform_handle, opened]

/-- **Every request of a run stays in its transaction**, if the peer opens one and then gives only
addresses below its base. There is one exception: where the target of the deposit is not below the
repository, the roots of the package are created at the target itself. -/
theorem run_confined (config : Config) (disk : Disk (StateM σ)) (peer : Transport (StateM σ))
    (observe : Event → StateM σ Unit) (tree : List Resource) (x : σ) (tx : String)
    (asked : config.repository.useTransactions = true) :
    let log := runExchanges config disk peer observe tree x
    log.head?.bind (·.location?) = some tx → (∀ e ∈ log.tail, e.givesBelow tx = true) →
      ∀ e ∈ log.tail, isBelow tx e.request.url = true ∨
        (e.request.method = .post ∧ e.request.url = config.target ∧
          isBelow config.repository.baseUrl config.target = false) := by
  intro log located inside e he
  rcases came : perform (logged config.repository disk peer).openSession (State.initial, x, []) with
    ⟨failure | s, w⟩
  · rw [show log.tail = [] from tail_of_unopened asked came] at he
    cases he
  · obtain ⟨rfl, opening, base, y, asks, given, rfl⟩ := opened_transaction asked came
    obtain ⟨more, added, received, sent, conversation, once, grown, -⟩ :=
      @finishes_transaction σ config.repository disk peer observe tree _ config.target _ _ _ (.start y)
    have whole : log = opening :: (more ++ added) := by
      refine (runExchanges_of_opened came).trans (grown.trans ?_)
      rw [sent]
      rfl
    rw [whole] at located inside he
    obtain rfl : base = tx := Option.some.inj (given.symm.trans located)
    rcases List.mem_append.mp he with worked | ended
    · have insideWork : ∀ e ∈ more, e.givesBelow (Text.trimSlashes base) = true := fun e' he' => by
        rw [Exchange.givesBelow_trimSlashes]
        exact inside e' (List.mem_append_left _ he')
      have confined := conversation.confined insideWork worked
      unfold Confined at confined
      rwa [isBelow_trimSlashes, baseOf, isBelow_trimSlashes] at confined
    · left
      rw [(once.asks e ended).2]
      exact isBelow_endingOf base _

end Run

/-- A peer that opens a transaction, creates everything below it and gives empty graphs. -/
def transactionPeer : Transport (StateM Nat) := fun r => do
  if r.method = .post then
    let number ← getModify (· + 1)
    let location := if number = 0 then "http://h/rest/tx" else "http://h/rest/tx/" ++ toString number
    return .ok ⟨201, [("location", location)], some []⟩
  else return .ok ⟨200, [], some (Text.toUtf8 "[]")⟩

/-- Settings with a target. -/
def settingsFor (target : String) : Config where
  repository := { baseUrl := "http://h/rest" }
  targetContainer := some target

/-- What a deposit of one resource exchanges with that peer. -/
def exchangesFor (target : String) : Log :=
  runExchanges (settingsFor target) (fun _ => pure (.failure FileView.noSuchFile)) transactionPeer
    (fun _ => pure ()) [.rdfSource "r" Graph.empty] 0

theorem run_confined_below :
    (exchangesFor "http://h/rest/c").map (fun e => (e.request.method, e.request.url)) =
        [(.post, "http://h/rest/fcr:tx"), (.post, "http://h/rest/tx/c"), (.get, "http://h/rest/tx/1"),
          (.post, "http://h/rest/tx/fcr:tx/fcr:commit")] ∧
      ∀ e ∈ (exchangesFor "http://h/rest/c").tail, isBelow "http://h/rest/tx" e.request.url = true ∨
        (e.request.method = .post ∧ e.request.url = "http://h/rest/c" ∧
          isBelow "http://h/rest" "http://h/rest/c" = false) := by
  refine ⟨by decide +kernel, ?_⟩
  exact run_confined (settingsFor "http://h/rest/c") _ transactionPeer _ _ 0 "http://h/rest/tx" rfl
    (by decide +kernel) (by decide +kernel)

/-- **A target outside the repository escapes the transaction.** The settings are valid and the peer
gives only addresses below the transaction, but the root is created outside. -/
theorem foreign_target_escapes :
    let config := settingsFor "http://other/rest"
    let log := exchangesFor "http://other/rest"
    config.validate.isOk = true ∧ config.repository.useTransactions = true ∧
      log.head?.bind (·.location?) = some "http://h/rest/tx" ∧
      (∀ e ∈ log.tail, e.givesBelow "http://h/rest/tx" = true) ∧
      ¬ ∀ e ∈ log.tail, isBelow "http://h/rest/tx" e.request.url = true := by
  decide +kernel

end LinkedDeposit.Ldp
