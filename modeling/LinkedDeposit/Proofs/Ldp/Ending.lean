import LinkedDeposit.Proofs.Ldp.Finishing

/-!
# How a deposit ends on the wire

With a transaction, one request ends it: it is committed if the package was walked and its links
were remapped, and rolled back otherwise. Without one, a success asks nothing more, and after a
failure everything that was created is deleted, the last first. Whatever goes wrong while cleaning
up, the failure that is reported is the one that came first.

A peer may give any text as a location. Requests can only be sent to URLs of the web, so what was
created at another address is not deleted, and a transaction with such a base is not ended.

Results:
* `endsTransaction`: how a deposit ends in a transaction.
* `undoesWork`: how it ends without one.
* `deposit_ends`: both, over whatever peer.
* `foreign_locations_remain`: runs with locations that are not of the web.
-/

namespace LinkedDeposit.Ldp

open Http (Request Response Transport Method Headers)

/-! ## What is to be shown -/

/-- What has been done in a world: the result, and the world after it. -/
abbrev Done (σ : Type) := Except DepositError Report × World σ

/-- How a run in a transaction ends, after some work. -/
structure EndsTransaction {σ : Type} (worked ended : Done σ) : Prop where
  /-- The location that opened the transaction is its base. One request below it follows the work if
  requests can be sent there: the work is committed if it succeeded, and rolled back otherwise. A
  failed commit is reported; what comes of a rollback is not. -/
  last : ∃ opening base, (exchanges worked).head? = some opening ∧
    opening.location? = some base ∧ (Url.isAddress base = true →
      ∃ e, exchanges ended = exchanges worked ++ [e] ∧
        let address := endingOf (Text.trimSlashes base)
          (if worked.1.isOk then "commit" else "rollback")
        Asks e .post address ∧
          ended.1 = worked.1.bind fun report => (outcome address e.received).map fun _ => report)
  failure : ∀ e, worked.1 = .error e → ended.1 = .error e
  keeps : ∀ e ∈ exchanges ended, e.request.method ≠ .delete

/-- How a run without a transaction ends, after some work. -/
structure UndoesWork {σ : Type} (target : String) (worked ended : Done σ) : Prop where
  success : ∀ report, worked.1 = .ok report →
    exchanges ended = exchanges worked ∧ ended.1 = .ok report
  /-- After a failure everything that was created and can be reached is deleted, the last first. -/
  failure : ∀ e, worked.1 = .error e → ended.1 = .error e ∧
    ∃ deletes, exchanges ended = exchanges worked ++ deletes ∧
      List.Forall₂ (fun d address => Asks d .delete address) deletes
        ((locations (exchanges worked)).filter isReachable).reverse
  /-- Whatever was created below something else was created after it. -/
  order : ∀ earlier e later, exchanges worked = earlier ++ e :: later → e.request.method = .post →
    e.request.url = target ∨ e.request.url ∈ locations earlier
  keeps : ∀ e ∈ exchanges worked, e.request.method ≠ .delete

/-! ## The two ways -/

variable {σ : Type} {settings : RepositorySettings} {disk : Disk (StateM σ)}
  {peer : Transport (StateM σ)}

/-- Where a transaction is ended is an address if its base is one. -/
theorem isAddress_endingOf {address action : String} (valid : Url.isAddress address = true)
    (plain : ∀ c ∈ action.toList, 0x20 < c.toNat) :
    Url.isAddress (endingOf (Text.trimSlashes address) action) = true := by
  have prefixed : ∀ c ∈ (Vocabulary.transactionSegment ++ "/fcr:").toList, 0x20 < c.toNat := by
    decide
  have rest : endingOf (Text.trimSlashes address) action =
      Text.trimSlashes address ++ "/" ++ (Vocabulary.transactionSegment ++ "/fcr:" ++ action) := by
    unfold endingOf
    simp only [String.append_assoc]
  rw [rest]
  refine Url.isAddress_below valid _ fun c hc => ?_
  rw [String.toList_append] at hc
  rcases List.mem_append.mp hc with segment | named
  · exact prefixed c segment
  · exact plain c named

section Run

variable {observe : Event → StateM σ Unit} {tree : List Resource} {target : String} {x : σ}
  {s : Session (StateT State (StateM (σ × Log)))} {start : World σ}

/-- **In a transaction, a deposit ends with a commit or a rollback.** -/
theorem endsTransaction (asked : settings.useTransactions = true)
    (opened : perform (logged settings disk peer).openSession (State.initial, x, []) =
      (.ok s, start)) :
    EndsTransaction (perform (walkAndRemap s (besideLog observe) tree target) start)
      (perform (ExceptT.mk (depositTree s (besideLog observe) tree target)) start) := by
  obtain ⟨rfl, opening, base, y, asks, located, rfl⟩ := opened_transaction asked opened
  obtain ⟨more, added, received, sent, conversation, once, log, reported⟩ :=
    @finishes_transaction σ settings disk peer observe tree _ target _ _ _ (.start y)
  generalize perform (walkAndRemap _ (besideLog observe) tree target) _ = worked
    at sent once log reported ⊢
  generalize perform (ExceptT.mk (depositTree _ (besideLog observe) tree target)) _ = ended
    at log reported ⊢
  change exchanges worked = opening :: more at sent
  refine ⟨⟨opening, base, by rw [sent]; rfl, located, fun valid => ?_⟩, fun e failed => ?_,
    fun e he => ?_⟩
  · have endingValid : Url.isAddress (endingOf (Text.trimSlashes base)
        (if worked.1.isOk then "commit" else "rollback")) = true := by
      cases worked.1.isOk with
      | true => exact isAddress_endingOf valid (by decide)
      | false => exact isAddress_endingOf valid (by decide)
    obtain ⟨e, rfl, goes, rfl⟩ := once.exists_eq (isReachable_of_isAddress endingValid)
    exact ⟨e, log, goes, reported⟩
  · rw [reported, failed]
    rfl
  · rw [log, sent] at he
    rcases List.mem_append.mp he with he | he
    · rcases List.mem_cons.mp he with rfl | he
      · rw [asks.1]
        decide
      · exact conversation.ne_delete he
    · rw [(once.asks e he).1]
      decide

/-- **Without a transaction, a deposit that fails deletes what it created**, the last first. -/
theorem undoesWork (asked : settings.useTransactions = false)
    (opened : perform (logged settings disk peer).openSession (State.initial, x, []) =
      (.ok s, start)) :
    UndoesWork target (perform (walkAndRemap s (besideLog observe) tree target) start)
      (perform (ExceptT.mk (depositTree s (besideLog observe) tree target)) start) := by
  obtain ⟨rfl, rfl⟩ := opened_plain asked opened
  let worked := perform (walkAndRemap (logged settings disk peer).session (besideLog observe) tree
    target) (State.initial, x, [])
  obtain ⟨since, working, given⟩ : Comes (baseOf settings) none target [] [] worked _ :=
    works_walkAndRemap observe tree [] _ (.start x) trivial
  have sent : exchanges worked = since := working.log
  have created : worked.2.1.created = (locations (exchanges worked)).reverse := by
    rw [working.created, sent, resources_none]
    rfl
  refine ⟨fun report result => ?_, fun e result => ?_, fun earlier e later split creates => ?_,
    fun e he => working.conversation.ne_delete (sent ▸ he)⟩
  · have done : worked = (.ok report, worked.2) := by rw [← result]
    obtain ⟨log, reported⟩ := perform_depositTree_ok done
    have committed := @perform_commit_of_none σ settings disk peer _ working.unfinished
      working.opened
    exact ⟨log.trans (congrArg exchanges committed),
      reported.trans (congrArg (fun out => Except.map (fun _ => report) out.1) committed)⟩
  · rw [result] at given
    have done : worked = (.error e, worked.2) := by rw [← result]
    obtain ⟨log, reported⟩ := perform_depositTree_error given done
    obtain ⟨deletes, asks, more⟩ := @perform_rollback_of_none σ settings disk peer _
      working.unfinished working.opened
    rw [created, List.filter_reverse] at asks
    exact ⟨reported, deletes, log.trans more, asks⟩
  · have justified := working.conversation.justified earlier e later (sent.symm.trans split)
    rw [creates] at justified
    generalize e.request.url = address at justified ⊢
    cases justified with
    | create parent known =>
      rw [parents, resources_none] at known
      exact List.mem_cons.mp known

end Run

/-- **How a deposit ends on the wire**, in a session that was just opened over whatever peer. In a
transaction, one request is sent after those of the walk and of the remapping, if its base is an
address: a commit if they succeeded, and a rollback otherwise. Without one, a success asks nothing
more, and a failure deletes everything that a request has created and that can be reached, the last
first, whatever becomes of each deletion. Either way the failure is reported that came first. -/
theorem deposit_ends {σ : Type} (settings : RepositorySettings) (disk : Disk (StateM σ))
    (peer : Transport (StateM σ)) (observe : Event → StateM σ Unit) (tree : List Resource)
    (target : String) (x : σ) {s : Session (StateT State (StateM (σ × Log)))} {start : World σ}
    (opened : perform (logged settings disk peer).openSession (State.initial, x, []) =
      (.ok s, start)) :
    let worked := perform (walkAndRemap s (besideLog observe) tree target) start
    let ended := perform (ExceptT.mk (depositTree s (besideLog observe) tree target)) start
    (settings.useTransactions = true → EndsTransaction worked ended) ∧
      (settings.useTransactions = false → UndoesWork target worked ended) :=
  ⟨fun asked => endsTransaction asked opened, fun asked => undoesWork asked opened⟩

/-- A peer that numbers what it creates and refuses everything else. -/
def refusingPeer : Transport (StateM Nat) := fun r => do
  if r.method = .post then
    let number ← getModify (· + 1)
    return .ok ⟨201, [("location", "http://h/rest/" ++ toString number)], some []⟩
  else return .ok ⟨404, [], some []⟩

/-- A container with one resource. -/
def nestedTree : List Resource := [.container "c" Graph.empty [.rdfSource "r" Graph.empty]]

theorem deposit_ends_refused :
    let disk : Disk (StateM Nat) := fun _ => pure (.failure FileView.noSuchFile)
    let settings (transactions : Bool) : RepositorySettings :=
      { baseUrl := "http://h/rest", useTransactions := transactions }
    let client (transactions : Bool) := logged (settings transactions) disk refusingPeer
    let notify := besideLog fun _ => (pure () : StateM Nat Unit)
    let start (transactions : Bool) : World Nat :=
      (perform (client transactions).openSession (State.initial, 0, [])).2
    let worked (transactions : Bool) := perform (walkAndRemap (client transactions).session notify
      nestedTree "http://h/rest") (start transactions)
    let ended (transactions : Bool) := perform (ExceptT.mk (depositTree
      (client transactions).session notify nestedTree "http://h/rest")) (start transactions)
    (∀ address ∈ ["http://h/rest/0", "http://h/rest/1", "http://h/rest/2"],
        Url.isAddress address = true) ∧
      locations (exchanges (worked true)) =
        ["http://h/rest/0", "http://h/rest/1", "http://h/rest/2"] ∧
      EndsTransaction (worked true) (ended true) ∧
      locations (exchanges (worked false)) = ["http://h/rest/0", "http://h/rest/1"] ∧
      UndoesWork "http://h/rest" (worked false) (ended false) := by
  intro disk settings client notify start worked ended
  have inside : locations (exchanges (worked true)) =
      ["http://h/rest/0", "http://h/rest/1", "http://h/rest/2"] := by decide +kernel
  have outside : locations (exchanges (worked false)) = ["http://h/rest/0", "http://h/rest/1"] := by
    decide +kernel
  have opens : (perform (client true).openSession (State.initial, 0, [])).1.isOk = true := by
    decide +kernel
  have opened : perform (client true).openSession (State.initial, 0, []) =
      (.ok (client true).session, start true) := by
    cases came : (perform (client true).openSession (State.initial, 0, [])).1 with
    | error e =>
      rw [came] at opens
      cases opens
    | ok s =>
      have whole : perform (client true).openSession (State.initial, 0, []) =
          (.ok s, start true) := by rw [← came]
      rw [whole, (opened_transaction rfl whole).1]
  exact ⟨by decide +kernel, inside,
    (deposit_ends (settings true) disk refusingPeer _ nestedTree _ 0 opened).1 rfl,
    outside, (deposit_ends (settings false) disk refusingPeer _ nestedTree _ 0 rfl).2 rfl⟩

/-- A peer that creates one thing at an address outside the web and refuses everything else. -/
def foreignPeer : Transport (StateM Nat) := fun r => do
  let number ← getModify (· + 1)
  if r.method = .post ∧ number = 0 then
    return .ok ⟨201, [("location", "ftp://h/rest/a")], some []⟩
  else return .ok ⟨500, [], some []⟩

/-- **What is created outside the web remains.** Nothing is sent to a URL whose scheme is not one of
the web. A transaction with such a base is neither committed nor rolled back, and without one, a
resource with such an address is not deleted after a failure. -/
theorem foreign_locations_remain :
    let disk : Disk (StateM Nat) := fun _ => pure (.failure FileView.noSuchFile)
    let settings (transactions : Bool) : RepositorySettings :=
      { baseUrl := "http://h/rest", useTransactions := transactions }
    let client (transactions : Bool) := logged (settings transactions) disk foreignPeer
    let notify := besideLog fun _ => (pure () : StateM Nat Unit)
    let start (transactions : Bool) : World Nat :=
      (perform (client transactions).openSession (State.initial, 0, [])).2
    let worked (transactions : Bool) (tree : List Resource) := perform (walkAndRemap
      (client transactions).session notify tree "http://h/rest") (start transactions)
    let ended (transactions : Bool) (tree : List Resource) := perform (ExceptT.mk (depositTree
      (client transactions).session notify tree "http://h/rest")) (start transactions)
    let pair : List Resource := [.rdfSource "a" Graph.empty, .rdfSource "b" Graph.empty]
    (locations (exchanges (worked true [])) = ["ftp://h/rest/a"] ∧ (worked true []).1.isOk = true ∧
      (exchanges (ended true [])).length = (exchanges (worked true [])).length ∧
      (ended true []).1.isOk = false) ∧
    (locations (exchanges (worked false pair)) = ["ftp://h/rest/a"] ∧
      (worked false pair).1.isOk = false ∧
      ∀ e ∈ exchanges (ended false pair), e.request.method ≠ .delete) := by
  decide +kernel

end LinkedDeposit.Ldp
