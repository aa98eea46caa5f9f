import LinkedDeposit.Proofs.Ldp.Exchange

/-!
# What a deposit says to a peer

While a deposit walks its package and remaps its links, every address that it sends a request to was
given to it before: by the target, by the location of something that it created, or by the link to a
description (`Justified`). So the exchanges form a `Conversation`, in which nothing is deleted.
Meanwhile the session's transaction stays the one that it was opened with, the session stays open,
and it has noted exactly what the conversation has created (`AtWork`).

`Works` is a program logic for this. It is about one operation: started at work, under what it needs
of the conversation so far, it ends at work with a longer conversation, and either gives what it
promises of its result or fails for a reason other than a broken lifecycle.

Results:
* `Conversation.justified`: every exchange was justified by those before it.
* `Conversation.ne_delete`: nothing is deleted.
* `Works.bind`, `Works.frame`: the rules of the logic.
-/

namespace LinkedDeposit.Ldp

open Http (Request Response Transport Method Headers)

/-! ## Conversations -/

section Conversations

variable (base : String) (transaction : Option String) (target : String)

/-- The URIs of what was created, in order. -/
def resources (log : Log) : List String := (locations log).map (fromWire base transaction)

/-- The URIs of what was created and of its descriptions. -/
def nodes (log : Log) : List String :=
  resources base transaction log ++ (descriptions log).map (fromWire base transaction)

/-- The URIs that something can be created below. -/
def parents (log : Log) : List String := target :: resources base transaction log

/-- A request whose address is known from the exchanges before it. Nothing is deleted. -/
inductive Justified (log : Log) : Method → String → Prop where
  | create (parent : String) (known : parent ∈ parents base transaction target log) :
    Justified log .post (toWire base transaction parent)
  | describe (address : String) (known : address ∈ descriptions log) : Justified log .put address
  | read (uri : String) (known : uri ∈ nodes base transaction log) :
    Justified log .get (toWire base transaction uri)
  | update (uri : String) (known : uri ∈ nodes base transaction log) :
    Justified log .patch (toWire base transaction uri)
  | replace (uri : String) (known : uri ∈ nodes base transaction log) :
    Justified log .put (toWire base transaction uri)

/-- Exchanges whose addresses are all known from the exchanges before them. -/
inductive Conversation : Log → Prop where
  | nil : Conversation []
  | snoc {log : Log} {e : Exchange} (before : Conversation log)
      (justified : Justified base transaction target log e.request.method e.request.url) :
    Conversation (log ++ [e])

end Conversations

section Growing

variable {base : String} {transaction : Option String} {target : String}

theorem resources_append (log more : Log) :
    resources base transaction (log ++ more) =
      resources base transaction log ++ resources base transaction more := by
  rw [resources, locations_append, List.map_append]
  rfl

theorem resources_snoc (log : Log) (e : Exchange) : resources base transaction (log ++ [e]) =
    resources base transaction log ++ (e.location?.map (fromWire base transaction)).toList := by
  rw [resources_append]
  unfold resources locations
  cases h : e.location? <;> simp [h]

/-- Without a transaction, addresses are URIs. -/
theorem resources_none (log : Log) : resources base none log = locations log :=
  List.map_id' (locations log)

/-- What is true of exchanges stays true when there are more. -/
def Stays (P : Log → Prop) : Prop := ∀ log more, P log → P (log ++ more)

theorem stays_descriptions (address : String) : Stays fun log => address ∈ descriptions log := by
  intro log more h
  rw [descriptions_append]
  exact List.mem_append_left _ h

theorem stays_resources (uri : String) : Stays fun log => uri ∈ resources base transaction log := by
  intro log more h
  rw [resources_append]
  exact List.mem_append_left _ h

theorem stays_nodes (uri : String) : Stays fun log => uri ∈ nodes base transaction log := by
  intro log more h
  simp only [nodes, resources, locations_append, descriptions_append, List.map_append,
    List.mem_append] at h ⊢
  grind

theorem stays_parents (uri : String) :
    Stays fun log => uri ∈ parents base transaction target log := by
  intro log more h
  rcases List.mem_cons.mp h with rfl | h
  · exact List.mem_cons_self
  · exact List.mem_cons_of_mem _ (stays_resources uri log more h)

/-- Every exchange of a conversation was justified when it was made. -/
theorem Conversation.justified {log : Log} (h : Conversation base transaction target log) :
    ∀ earlier e later, log = earlier ++ e :: later →
      Justified base transaction target earlier e.request.method e.request.url := by
  induction h with
  | nil =>
    intro earlier e later split
    simp at split
  | @snoc log last before justified ih =>
    intro earlier e later split
    rcases List.eq_nil_or_concat later with rfl | ⟨between, last', rfl⟩
    · obtain ⟨rfl, same⟩ := List.append_inj' split rfl
      obtain rfl := List.head_eq_of_cons_eq same
      exact justified
    · rw [List.concat_eq_append, ← List.cons_append, ← List.append_assoc] at split
      exact ih earlier e between (List.append_inj' split rfl).1

/-- **Nothing is deleted in a conversation.** -/
theorem Conversation.ne_delete {log : Log} (h : Conversation base transaction target log)
    {e : Exchange} (he : e ∈ log) : e.request.method ≠ .delete := by
  obtain ⟨earlier, later, split⟩ := List.append_of_mem he
  intro deletes
  have justified := h.justified earlier e later split
  rw [deletes] at justified
  cases justified

end Growing

/-! ## The logic -/

section Logic

variable {σ α β : Type} (base : String) (transaction : Option String) (target : String)
  (before : Log)

/-- A session at work: after the exchanges `before`, it has had the conversation `since`. -/
structure AtWork (since : Log) (w : World σ) : Prop where
  opened : w.1.transaction = transaction
  unfinished : w.1.lifecycle.isFinished = false
  /-- What was created is noted, the last first. -/
  created : w.1.created = (resources base transaction since).reverse
  log : w.2.2 = before ++ since
  conversation : Conversation base transaction target since

/-- What an operation has come to that was started after the conversation `since`: the session is at
work, with more exchanges. -/
def Comes (since : Log) (out : Except DepositError α × World σ) (Gives : α → Log → Prop) : Prop :=
  ∃ added, AtWork base transaction target before (since ++ added) out.2 ∧
    match out.1 with
    | .ok v => Gives v (since ++ added)
    | .error e => e.isIllegalState = false

/-- An operation that keeps the session at work. It needs something of the conversation before it,
and gives something about its result and the conversation after it. -/
def Works (a : Operation (StateM (σ × Log)) α) (Needs : Log → Prop) (Gives : α → Log → Prop) :
    Prop :=
  ∀ since w, AtWork base transaction target before since w → Needs since →
    Comes base transaction target before since (perform a w) Gives

variable {base transaction target before} {Needs : Log → Prop} {Gives : α → Log → Prop}
  {Then : β → Log → Prop} {since : Log} {w : World σ}

/-- A session that has not yet asked anything is at work. -/
theorem AtWork.start (x : σ) :
    AtWork base transaction target before [] (⟨transaction, .idle, []⟩, x, before) :=
  ⟨rfl, rfl, rfl, (List.append_nil before).symm, .nil⟩

/-- A session that has noted what an exchange created is at work again. -/
theorem AtWork.exchange (h : AtWork base transaction target before since w) {e : Exchange}
    (justified : Justified base transaction target since e.request.method e.request.url) {s : State}
    (opened : s.transaction = transaction) (unfinished : s.lifecycle.isFinished = false)
    (created : s.created =
      (e.location?.map (fromWire base transaction)).toList ++ w.1.created) (x : σ) :
    AtWork base transaction target before (since ++ [e]) (s, x, w.2.2 ++ [e]) where
  opened := opened
  unfinished := unfinished
  created := by
    rw [created, h.created, resources_snoc, List.reverse_append]
    cases e.location? <;> rfl
  log := by
    change w.2.2 ++ [e] = before ++ (since ++ [e])
    rw [h.log, List.append_assoc]
  conversation := h.conversation.snoc justified

/-- An exchange that created nothing leaves nothing to be noted. -/
theorem AtWork.exchange_silent (h : AtWork base transaction target before since w) {e : Exchange}
    (justified : Justified base transaction target since e.request.method e.request.url)
    (silent : e.location? = none) (x : σ) :
    AtWork base transaction target before (since ++ [e]) (w.1, x, w.2.2 ++ [e]) :=
  h.exchange justified h.opened h.unfinished (by rw [silent]; rfl) x

/-- Nothing was exchanged. -/
theorem AtWork.comes_ok (h : AtWork base transaction target before since w) {v : α}
    (given : Gives v since) : Comes base transaction target before since (.ok v, w) Gives := by
  refine ⟨[], ?_, ?_⟩
  · rwa [List.append_nil]
  · rwa [List.append_nil]

theorem AtWork.comes_error (h : AtWork base transaction target before since w) {e : DepositError}
    (legal : e.isIllegalState = false) :
    Comes base transaction target before since (.error e, w) Gives := by
  refine ⟨[], ?_, legal⟩
  rwa [List.append_nil]

/-- What comes after some exchanges comes after the exchanges before them. -/
theorem Comes.after {added : Log} {out : Except DepositError α × World σ}
    (h : Comes base transaction target before (since ++ added) out Gives) :
    Comes base transaction target before since out Gives := by
  obtain ⟨more, atWork, given⟩ := h
  rw [List.append_assoc] at atWork given
  exact ⟨added ++ more, atWork, given⟩

theorem Works.pure {v : α} (h : ∀ log, Needs log → Gives v log) :
    Works base transaction target before (Pure.pure v : Operation (StateM (σ × Log)) α) Needs
      Gives :=
  fun _ _ atWork needed => atWork.comes_ok (h _ needed)

theorem Works.throw {e : DepositError} (legal : e.isIllegalState = false) :
    Works base transaction target before
      (MonadExcept.throw e : Operation (StateM (σ × Log)) α) Needs Gives :=
  fun _ _ atWork _ => atWork.comes_error legal

/-- What is computed needs no exchange. -/
theorem Works.compute {v : Except DepositError α}
    (given : ∀ log u, Needs log → v = .ok u → Gives u log)
    (legal : ∀ e, v = .error e → e.isIllegalState = false) :
    Works base transaction target before (liftM v : Operation (StateM (σ × Log)) α) Needs
      Gives := by
  intro since w atWork needed
  cases v with
  | ok u => exact atWork.comes_ok (given _ u needed rfl)
  | error e => exact atWork.comes_error (legal e rfl)

/-- What does not reach the peer needs no exchange. -/
theorem Works.beside {m : StateM σ α} (given : ∀ log v, Needs log → Gives v log) :
    Works base transaction target before
      (liftM (onFirst m : StateM (σ × Log) α) : Operation (StateM (σ × Log)) α) Needs Gives := by
  intro since w atWork needed
  have same : AtWork base transaction target before since
      (w.1, ((onFirst m : StateM (σ × Log) α).run w.2).2) :=
    ⟨atWork.opened, atWork.unfinished, atWork.created, atWork.log, atWork.conversation⟩
  exact same.comes_ok (given _ _ needed)

/-- Events are not sent to the peer. -/
theorem Works.announce (observe : Event → StateM σ Unit) (e : Event) (Needs : Log → Prop) :
    Works base transaction target before
      (liftM (besideLog observe e) : Operation (StateM (σ × Log)) Unit) Needs fun _ => Needs := by
  intro since w atWork needed
  have same : AtWork base transaction target before since
      (w.1, ((observe e).run w.2.1).2, w.2.2) :=
    ⟨atWork.opened, atWork.unfinished, atWork.created, atWork.log, atWork.conversation⟩
  rw [perform_besideLog]
  exact same.comes_ok needed

/-- A sequence keeps the session at work, if each part gives what the next one needs. -/
theorem Works.bind {a : Operation (StateM (σ × Log)) α}
    {f : α → Operation (StateM (σ × Log)) β}
    (first : Works base transaction target before a Needs Gives)
    (next : ∀ v, Works base transaction target before (f v) (Gives v) Then) :
    Works base transaction target before (a >>= f) Needs Then := by
  intro since w atWork needed
  obtain ⟨added, working, given⟩ := first since w atWork needed
  rw [perform_bind]
  cases ha : (perform a w).1 with
  | error e =>
    rw [ha] at given
    exact ⟨added, working, given⟩
  | ok v =>
    rw [ha] at given
    exact (next v _ _ working given).after

/-- What a session knows includes its transaction. -/
theorem Works.known {f : State → Operation (StateM (σ × Log)) β}
    (next : ∀ s : State, s.transaction = transaction →
      Works base transaction target before (f s) Needs Then) :
    Works base transaction target before (get >>= f) Needs Then :=
  fun since w atWork needed => next w.1 atWork.opened since w atWork needed

/-- What stays true of longer conversations is true afterwards, too. -/
theorem Works.frame {a : Operation (StateM (σ × Log)) α} {Frame : Log → Prop}
    (h : Works base transaction target before a Needs Gives)
    (stays : Stays Frame) :
    Works base transaction target before a (fun log => Needs log ∧ Frame log)
      (fun v log => Gives v log ∧ Frame log) := by
  intro since w atWork needed
  obtain ⟨added, working, given⟩ := h since w atWork needed.1
  refine ⟨added, working, ?_⟩
  cases ha : (perform a w).1 with
  | error e => rwa [ha] at given
  | ok v =>
    rw [ha] at given
    exact ⟨given, stays _ _ needed.2⟩

theorem Works.mono {a : Operation (StateM (σ × Log)) α} {Needs' : Log → Prop}
    {Gives' : α → Log → Prop} (h : Works base transaction target before a Needs Gives)
    (needs : ∀ log, Needs' log → Needs log) (gives : ∀ v log, Gives v log → Gives' v log) :
    Works base transaction target before a Needs' Gives' := by
  intro since w atWork needed
  obtain ⟨added, working, given⟩ := h since w atWork (needs _ needed)
  refine ⟨added, working, ?_⟩
  cases ha : (perform a w).1 with
  | error e => rwa [ha] at given
  | ok v =>
    rw [ha] at given
    exact gives _ _ given

end Logic

end LinkedDeposit.Ldp
