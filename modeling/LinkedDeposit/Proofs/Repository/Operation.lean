import LinkedDeposit.Proofs.Repository.Evolution
import LinkedDeposit.Repository.Workspace

/-!
# What an operation can do

`Transaction.perform` is a call on one transaction, with the name that a new resource is given;
`Workspace.step` is such a call on the transaction of a session (`step_eq`). `Performs` lists
everything that a call can come to, with the conditions under which it does, and `performs` says
that nothing else happens. Facts about steps are proved by cases on it (`step_performs`).
-/

namespace LinkedDeposit

/-! ## New resources -/

/-- What is stored for a resource that is created at a URI; for a binary, its description too. -/
def Resource.stored (files : Files) (uri : String) :
    Resource → Except DepositError (Table String Stored)
  | .container id g _ =>
    .ok (Table.empty.insert uri (.ofGraph .container (Transaction.ingest id uri g)))
  | .rdfSource id g =>
    .ok (Table.empty.insert uri (.ofGraph .rdfSource (Transaction.ingest id uri g)))
  | .binary _ b description => do
    let bytes ← b.content.read files
    let content := Table.empty.insert uri (.ofBinary b.mediaType bytes)
    match description with
    | none => .ok content
    | some d =>
      let place := Transaction.descriptionUri uri
      .ok (content.insert place (.ofGraph .rdfSource (Transaction.ingest d.id place d.graph)))

/-- What a session answers when it has created a resource at a URI. -/
def Resource.placed (r : Resource) (uri : String) : Deposited :=
  ⟨uri, r.description?.map fun _ => Transaction.descriptionUri uri⟩

/-- The URIs that were given out. -/
def Deposited.uris (d : Deposited) : List String := d.uri :: d.description.toList

namespace Transaction

theorem union_insert_empty (t : Table String Stored) (uri : String) (s : Stored) :
    t.union (Table.empty.insert uri s) = t.insert uri s :=
  Table.ext fun k => by simp only [Table.get?_union, Table.get?_insert, Table.get?_empty]; grind

theorem stage_eq (files : Files) (uri : String) (t : Transaction) (r : Resource) :
    t.stage files uri r = (r.stored files uri).map fun new =>
      ({ t with staged := t.staged.union new }, r.placed uri) := by
  cases r with
  | container id g children =>
    simp only [stage, Resource.stored, Except.map, union_insert_empty]
    rfl
  | rdfSource id g =>
    simp only [stage, Resource.stored, Except.map, union_insert_empty]
    rfl
  | binary id b description =>
    simp only [stage, Resource.stored]
    cases b.content.read files with
    | error e => rfl
    | ok bytes =>
      cases description with
      | none =>
        simp only [bind, Except.bind, Except.map, union_insert_empty]
        rfl
      | some d =>
        have both (uri' : String) (s s' : Stored) :
            t.staged.union ((Table.empty.insert uri s).insert uri' s') =
              (t.staged.insert uri s).insert uri' s' :=
          Table.ext fun k => by
            simp only [Table.get?_union, Table.get?_insert, Table.get?_empty]; grind
        simp only [bind, Except.bind, Except.map, both]
        rfl

end Transaction

/-- Something is stored at the URIs that are given out, and nowhere else. -/
theorem Resource.get?_stored_isSome {files : Files} {uri : String} {r : Resource}
    {new : Table String Stored} (h : r.stored files uri = .ok new) (k : String) :
    (new.get? k).isSome = true ↔ k ∈ (r.placed uri).uris := by
  have one (s : Stored) :
      ((Table.empty.insert uri s).get? k).isSome = true ↔ k = uri := by
    rw [Table.get?_insert]
    split <;> simp_all
  cases r with
  | container id g children => cases h; simp [one, placed, description?, Deposited.uris]
  | rdfSource id g => cases h; simp [one, placed, description?, Deposited.uris]
  | binary id b description =>
    simp only [stored] at h
    cases hb : b.content.read files with
    | error e => rw [hb] at h; cases h
    | ok bytes =>
      rw [hb] at h
      cases description with
      | none => cases h; simp [one, placed, description?, Deposited.uris]
      | some d =>
        cases h
        rw [Table.get?_insert]
        split
        case isTrue hk => simp [hk, placed, description?, Deposited.uris]
        case isFalse hk => simp [hk, one, placed, description?, Deposited.uris]

theorem Transaction.descriptionUri_ne (uri : String) : Transaction.descriptionUri uri ≠ uri := by
  intro h
  have := congrArg (fun s => s.toList.length) h
  simp [Transaction.descriptionUri] at this

section StoredAt

variable {files : Files} {uri : String} {r : Resource} {new : Table String Stored}

theorem Resource.get?_stored_eq_none (h : r.stored files uri = .ok new) {k : String}
    (hk : k ∉ (r.placed uri).uris) : new.get? k = none := by
  rw [← get?_stored_isSome h] at hk
  exact Option.not_isSome_iff_eq_none.mp hk

theorem Resource.get?_stored_graph (h : r.stored files uri = .ok new) {g : Graph}
    (hg : r.graph? = some g) :
    new.get? uri = some (.ofGraph r.kind (Transaction.ingest r.id uri g)) := by
  cases r with
  | container id g' children => cases hg; cases h; exact Table.get?_insert_self ..
  | rdfSource id g' => cases hg; cases h; exact Table.get?_insert_self ..
  | binary id b description => cases hg

/-- The bytes of a binary were read when it is stored. -/
theorem Resource.get?_stored_binary (h : r.stored files uri = .ok new) {b : Binary}
    (hb : r.binary? = some b) : ∃ bytes, b.content.read files = .ok bytes ∧
      new.get? uri = some (.ofBinary b.mediaType bytes) := by
  cases r with
  | container id g children => cases hb
  | rdfSource id g => cases hb
  | binary id b' description =>
    cases hb
    simp only [stored] at h
    cases hread : b.content.read files with
    | error e => rw [hread] at h; cases h
    | ok bytes =>
      rw [hread] at h
      refine ⟨bytes, rfl, ?_⟩
      cases description with
      | none => cases h; exact Table.get?_insert_self ..
      | some d =>
        cases h
        rw [Table.get?_insert, if_neg (Transaction.descriptionUri_ne uri).symm]
        exact Table.get?_insert_self ..

theorem Resource.get?_stored_description (h : r.stored files uri = .ok new) {d : Description}
    (hd : r.description? = some d) :
    new.get? (Transaction.descriptionUri uri) = some (.ofGraph .rdfSource
      (Transaction.ingest d.id (Transaction.descriptionUri uri) d.graph)) := by
  cases r with
  | container id g children => cases hd
  | rdfSource id g => cases hd
  | binary id b description =>
    cases hd
    simp only [stored] at h
    cases hread : b.content.read files with
    | error e => rw [hread] at h; cases h
    | ok bytes =>
      rw [hread] at h
      cases h
      exact Table.get?_insert_self ..

/-- The kinds of what is stored for a resource. -/
theorem Resource.get?_stored_kind (h : r.stored files uri = .ok new) :
    (∃ s, new.get? uri = some s ∧ s.kind = r.kind) ∧
      ∀ d ∈ r.description?, ∃ s, new.get? (Transaction.descriptionUri uri) = some s ∧
        s.kind = .rdfSource := by
  constructor
  · rcases r.graph?_or_binary? with ⟨g, hg⟩ | ⟨b, hb⟩
    · exact ⟨_, get?_stored_graph h hg, rfl⟩
    · obtain ⟨bytes, -, found⟩ := get?_stored_binary h hb
      exact ⟨_, found, (kind_of_binary? hb).symm⟩
  · intro d hd
    exact ⟨_, get?_stored_description h hd, rfl⟩

end StoredAt

/-! ## Calls on a transaction -/

namespace Transaction

/-- Makes a call of a session. A new resource is given `name`. -/
def perform (files : Files) (name : String) (r : Repository) (t : Transaction) :
    SessionCall → Except DepositError SessionAnswer × Repository × Transaction
  | .deposit resource parent =>
    let (answer, t) := t.deposit files name r resource parent
    (answer.map .deposited, r, t)
  | .fetch uri =>
    let (answer, t) := t.fetch r uri
    (answer.map fun (g, token) => .fetched g token, r, t)
  | .patch uri p token =>
    let (answer, t) := t.patch r uri p token
    (answer.map fun _ => .done, r, t)
  | .commit =>
    let (answer, r, t) := t.commit r
    (answer.map fun _ => .done, r, t)
  | .rollback =>
    let (answer, t) := t.rollback
    (answer.map fun _ => .done, r, t)

/-- The transaction after something was created at a URI below a parent. -/
def place (parent uri : String) (new : Table String Stored) (t : Transaction) : Transaction :=
  { t.request with
    staged := t.staged.union new
    contained := t.contained ++ [(parent, uri)] }

/-- The transaction after a resource was patched, which it saw as `seen`. -/
def amend (uri : String) (p : Patch) (seen : Stored) (t : Transaction) : Transaction :=
  { t.request with
    staged := t.staged.insert uri
      { seen with graph := p.applyTo seen.graph, version := seen.version + 1 }
    baseVersions :=
      if t.staged.contains uri then t.baseVersions
      else t.baseVersions.insert uri seen.version }

/-- Everything that a call on a transaction can come to. -/
inductive Performs (files : Files) (name : String) (r : Repository) (t : Transaction) :
    SessionCall → Except DepositError SessionAnswer → Repository → Transaction → Prop where
  /-- A finished session refuses every call. -/
  | refused (c : SessionCall) (e : DepositError) (finished : t.lifecycle.isFinished = true) :
    Performs files name r t c (.error e) r t
  /-- A call that fails counts as a request and changes nothing else. -/
  | failed (c : SessionCall) (e : DepositError) (unfinished : t.lifecycle.isFinished = false) :
    Performs files name r t c (.error e) r t.request
  | placed (resource : Resource) (parent : String) (container : Stored) (new : Table String Stored)
      (unfinished : t.lifecycle.isFinished = false)
      (seen : t.lookup r parent = some container) (isContainer : container.kind = .container)
      (stored : resource.stored files (childUri parent name) = .ok new) :
    Performs files name r t (.deposit resource parent)
      (.ok (.deposited (resource.placed (childUri parent name)))) r
      (t.place parent (childUri parent name) new)
  | fetched (uri : String) (stored : Stored) (unfinished : t.lifecycle.isFinished = false)
      (seen : t.lookup r uri = some stored) (isRdf : stored.kind ≠ .nonRdfSource) :
    Performs files name r t (.fetch uri) (.ok (.fetched stored.graph stored.token)) r t.request
  /-- An empty patch asks nothing, not even whether its token is current. -/
  | unasked (uri : String) (p : Patch) (token : Token)
      (unfinished : t.lifecycle.isFinished = false) (empty : p.isEmpty = true) :
    Performs files name r t (.patch uri p token) (.ok .done) r { t with lifecycle := .active }
  | patched (uri : String) (p : Patch) (stored : Stored)
      (unfinished : t.lifecycle.isFinished = false) (proper : p.isEmpty = false)
      (seen : t.lookup r uri = some stored) :
    Performs files name r t (.patch uri p stored.token) (.ok .done) r (t.amend uri p stored)
  /-- A commit that meets a conflict changes nothing. -/
  | conflicting (uri : String) (unfinished : t.lifecycle.isFinished = false)
      (conflict : t.conflict? r = some uri) :
    Performs files name r t .commit (.error (.concurrentModification uri)) r t
  | committed (unfinished : t.lifecycle.isFinished = false) (agreed : t.conflict? r = none) :
    Performs files name r t .commit (.ok .done) (t.merge r) (t.finish true)
  | rolledBack (unfinished : t.lifecycle.isFinished = false) :
    Performs files name r t .rollback (.ok .done) r (t.finish false)

section Inversion

variable {files : Files} {name : String} {r r' : Repository} {t t' : Transaction} {c : SessionCall}
  {answer : Except DepositError SessionAnswer}

/-- A finished session is refused every call. -/
theorem Performs.refused_of_finished (performed : Performs files name r t c answer r' t')
    (finished : t.lifecycle.isFinished = true) : answer.toBool = false ∧ t' = t := by
  cases performed with
  | refused => exact ⟨rfl, rfl⟩
  | _ => simp_all

/-- No call opens a finished session again. -/
theorem Performs.unfinished_before (performed : Performs files name r t c answer r' t')
    (unfinished : t'.lifecycle.isFinished = false) : t.lifecycle.isFinished = false := by
  cases finished : t.lifecycle.isFinished with
  | false => rfl
  | true =>
    rw [(performed.refused_of_finished finished).2, finished] at unfinished
    cases unfinished

/-- What a fetch answers is what the session sees. -/
theorem Performs.fetched_inv {uri : String} {g : Graph} {token : Token}
    (performed : Performs files name r t (.fetch uri) (.ok (.fetched g token)) r' t') :
    t.lifecycle.isFinished = false ∧ r' = r ∧ t' = t.request ∧
      ∃ seen, t.lookup r uri = some seen ∧ g = seen.graph ∧ token = seen.token := by
  cases performed with
  | fetched _ seen unfinished hl isRdf => exact ⟨unfinished, rfl, rfl, seen, hl, rfl, rfl⟩

/-- A patch that is not empty changes what the session sees, in the state that the token names. -/
theorem Performs.patched_inv {uri : String} {p : Patch} {token : Token}
    (performed : Performs files name r t (.patch uri p token) (.ok .done) r' t')
    (proper : p.isEmpty = false) :
    r' = r ∧ ∃ seen, t.lookup r uri = some seen ∧ token = seen.token ∧
      t' = t.amend uri p seen := by
  cases performed with
  | unasked _ _ _ unfinished empty =>
    rw [empty] at proper
    cases proper
  | patched _ _ seen unfinished _ hl => exact ⟨rfl, seen, hl, rfl, rfl⟩

/-- A commit that succeeds has met no conflict. -/
theorem Performs.committed_inv (performed : Performs files name r t .commit (.ok .done) r' t') :
    t.lifecycle.isFinished = false ∧ t.conflict? r = none ∧ r' = t.merge r := by
  cases performed with
  | committed unfinished agreed => exact ⟨unfinished, agreed, rfl⟩

end Inversion

section Perform

variable {files : Files} {name : String} {r : Repository} {t : Transaction}

theorem checkOpen_of_finished (h : t.lifecycle.isFinished = true) (operation : String) :
    t.lifecycle.checkOpen operation = .error (.illegalState operation t.lifecycle.name) := by
  unfold Lifecycle.checkOpen
  rw [if_pos h]

theorem checkOpen_of_unfinished (h : t.lifecycle.isFinished = false) (operation : String) :
    t.lifecycle.checkOpen operation = .ok () :=
  Lifecycle.checkOpen_eq_ok_iff.mpr h

/-- A request does not change what the session sees. -/
theorem lookup_request (uri : String) : t.request.lookup r uri = t.lookup r uri := rfl

theorem perform_deposit {resource : Resource} {parent : String} {container : Stored}
    {new : Table String Stored} (unfinished : t.lifecycle.isFinished = false)
    (seen : t.lookup r parent = some container) (isContainer : container.kind = .container)
    (stored : resource.stored files (childUri parent name) = .ok new) :
    t.perform files name r (.deposit resource parent) =
      (.ok (.deposited (resource.placed (childUri parent name))), r,
        t.place parent (childUri parent name) new) := by
  simp only [perform, deposit, checkOpen_of_unfinished unfinished, lookup_request, seen,
    Option.map_some, isContainer, stage_eq, stored]
  rfl

theorem perform_deposit_error {resource : Resource} {parent : String} {container : Stored}
    {e : DepositError} (unfinished : t.lifecycle.isFinished = false)
    (seen : t.lookup r parent = some container) (isContainer : container.kind = .container)
    (stored : resource.stored files (childUri parent name) = .error e) :
    t.perform files name r (.deposit resource parent) = (.error e, r, t.request) := by
  simp only [perform, deposit, checkOpen_of_unfinished unfinished, lookup_request, seen,
    Option.map_some, isContainer, stage_eq, stored]
  rfl

theorem perform_fetch {uri : String} {stored : Stored} (unfinished : t.lifecycle.isFinished = false)
    (seen : t.lookup r uri = some stored) (isRdf : stored.kind ≠ .nonRdfSource) :
    t.perform files name r (.fetch uri) =
      (.ok (.fetched stored.graph stored.token), r, t.request) := by
  simp only [perform, fetch, checkOpen_of_unfinished unfinished, lookup_request, seen, if_neg isRdf]
  rfl

/-- An empty patch is not looked at. -/
theorem perform_patch_empty {uri : String} {p : Patch} {token : Token}
    (unfinished : t.lifecycle.isFinished = false) (empty : p.isEmpty = true) :
    t.perform files name r (.patch uri p token) =
      (.ok .done, r, { t with lifecycle := .active }) := by
  simp only [perform, patch, checkOpen_of_unfinished unfinished, if_pos empty]
  rfl

theorem perform_patch {uri : String} {p : Patch} {stored : Stored}
    (unfinished : t.lifecycle.isFinished = false) (proper : p.isEmpty = false)
    (seen : t.lookup r uri = some stored) :
    t.perform files name r (.patch uri p stored.token) =
      (.ok .done, r, t.amend uri p stored) := by
  have amended : { t.request.noteBase uri stored.version with
      staged := (t.request.noteBase uri stored.version).staged.insert uri
        { stored with graph := p.applyTo stored.graph, version := stored.version + 1 } } =
      t.amend uri p stored := by
    unfold noteBase amend request
    split <;> rfl
  simp only [perform, patch, checkOpen_of_unfinished unfinished, lookup_request, seen, proper,
    Bool.false_eq_true, if_false, ne_eq, not_true_eq_false, amended]
  rfl

theorem perform_commit (unfinished : t.lifecycle.isFinished = false)
    (agreed : t.conflict? r = none) :
    t.perform files name r .commit = (.ok .done, t.merge r, t.finish true) := by
  simp only [perform, commit, checkOpen_of_unfinished unfinished, agreed]
  rfl

theorem perform_commit_conflict {uri : String} (unfinished : t.lifecycle.isFinished = false)
    (conflict : t.conflict? r = some uri) :
    t.perform files name r .commit = (.error (.concurrentModification uri), r, t) := by
  simp only [perform, commit, checkOpen_of_unfinished unfinished, conflict]
  rfl

theorem perform_rollback (unfinished : t.lifecycle.isFinished = false) :
    t.perform files name r .rollback = (.ok .done, r, t.finish false) := by
  simp only [perform, rollback, checkOpen_of_unfinished unfinished]
  rfl

end Perform

/-- **A call comes to one of the things that `Performs` lists.** -/
theorem performs (files : Files) (name : String) (r : Repository) (t : Transaction)
    (c : SessionCall) :
    Performs files name r t c (t.perform files name r c).1 (t.perform files name r c).2.1
      (t.perform files name r c).2.2 := by
  cases hf : t.lifecycle.isFinished with
  | true =>
    have shut := checkOpen_of_finished hf
    cases c <;> simp only [perform, deposit, fetch, patch, commit, rollback, shut, Except.map] <;>
      exact .refused _ _ hf
  | false =>
    have free := checkOpen_of_unfinished hf
    cases c with
    | deposit resource parent =>
      cases hl : t.lookup r parent with
      | none =>
        simp only [perform, deposit, free, lookup_request, hl]
        exact .failed _ _ hf
      | some container =>
        by_cases hk : container.kind = .container
        · cases hs : resource.stored files (childUri parent name) with
          | error e =>
            simp only [perform, deposit, free, lookup_request, hl, Option.map_some, hk, stage_eq,
              hs]
            exact .failed _ _ hf
          | ok new =>
            rw [perform_deposit hf hl hk hs]
            exact .placed resource parent container new hf hl hk hs
        · simp only [perform, deposit, free, lookup_request, hl, Option.map_some]
          exact .failed _ _ hf
    | fetch uri =>
      cases hl : t.lookup r uri with
      | none =>
        simp only [perform, fetch, free, lookup_request, hl]
        exact .failed _ _ hf
      | some stored =>
        by_cases hk : stored.kind = .nonRdfSource
        · simp only [perform, fetch, free, lookup_request, hl, if_pos hk]
          exact .failed _ _ hf
        · rw [perform_fetch hf hl hk]
          exact .fetched uri stored hf hl hk
    | patch uri p token =>
      cases hp : p.isEmpty with
      | true =>
        rw [perform_patch_empty hf hp]
        exact .unasked uri p token hf hp
      | false =>
        cases hl : t.lookup r uri with
        | none =>
          simp only [perform, patch, free, lookup_request, hl, hp]
          exact .failed _ _ hf
        | some stored =>
          by_cases ht : stored.token = token
          · subst ht
            rw [perform_patch hf hp hl]
            exact .patched uri p stored hf hp hl
          · simp only [perform, patch, free, lookup_request, hl, hp, Bool.false_eq_true, if_false,
              ne_eq, ht, not_false_eq_true, if_true]
            exact .failed _ _ hf
    | commit =>
      cases hc : t.conflict? r with
      | none =>
        rw [perform_commit hf hc]
        exact .committed hf hc
      | some uri =>
        simp only [perform, commit, free, hc]
        exact .conflicting uri hf hc
    | rollback =>
      simp only [perform, rollback, free]
      exact .rolledBack hf

end Transaction

/-! ## Steps of a schedule -/

/-- What a call shows of an operation. -/
theorem run_shown {σ α : Type} (shown : α → SessionAnswer)
    (make : ExceptT DepositError (StateM σ) α) (x : σ) :
    (shown <$> make).run.run x = ((make.run.run x).1.map shown, (make.run.run x).2) := by
  rw [ExceptT.run_map]
  rfl

namespace Workspace

/-- The transaction of a session after another one, or the same one, was kept. -/
theorem transaction_keep (w : Workspace) (name other : String) (t : Transaction) :
    (w.keep name t).transaction other = if other = name then t else w.transaction other := by
  unfold keep transaction
  rw [Table.get?_insert]
  split <;> rfl

/-- The workspace after a call of a session came to something. -/
def after (w : Workspace) (name : String) (c : SessionCall)
    (outcome : Except DepositError SessionAnswer × Repository × Transaction) : Workspace :=
  { w.keep name outcome.2.2 with
    repository := outcome.2.1
    deposits := if c.kind = .deposit ∧ outcome.1.toBool = true then w.deposits + 1 else w.deposits }

/-- The transaction of a session after a call, its own or another session's. -/
theorem transaction_after (w : Workspace) (name other : String) (c : SessionCall)
    (outcome : Except DepositError SessionAnswer × Repository × Transaction) :
    (w.after name c outcome).transaction other =
      if other = name then outcome.2.2 else w.transaction other :=
  transaction_keep w name other outcome.2.2

/-- A session's own call leaves it with the transaction that it came to. -/
theorem transaction_after_self (w : Workspace) (name : String) (c : SessionCall)
    (outcome : Except DepositError SessionAnswer × Repository × Transaction) :
    (w.after name c outcome).transaction name = outcome.2.2 :=
  (transaction_after w name name c outcome).trans (if_pos rfl)

theorem toBool_map {α β : Type} (f : α → β) (a : Except DepositError α) :
    (a.map f).toBool = a.toBool := by
  cases a <;> rfl

/-- **A step is a call on the transaction of its session.** -/
theorem step_eq (host : Host) (name : String) (c : SessionCall) (w : Workspace) :
    w.step host name c =
      let outcome := (w.transaction name).perform host.files (host.freshName (w.deposits + 1))
        w.repository c
      (outcome.1, w.after name c outcome) := by
  cases c with
  | deposit r parent =>
    refine (run_shown _ _ w).trans (Prod.ext rfl ?_)
    simp only [after, Transaction.perform, toBool_map, SessionCall.kind, true_and]
    rfl
  | fetch uri => exact run_shown _ _ w
  | patch uri p token => exact run_shown _ _ w
  | commit => exact run_shown _ _ w
  | rollback => exact run_shown _ _ w

/-- What a step can come to. -/
theorem step_performs (host : Host) (name : String) (c : SessionCall) (w : Workspace) :
    ∃ answer r t, w.step host name c = (answer, w.after name c (answer, r, t)) ∧
      Transaction.Performs host.files (host.freshName (w.deposits + 1)) w.repository
        (w.transaction name) c answer r t :=
  ⟨_, _, _, step_eq host name c w, Transaction.performs ..⟩

end Workspace

end LinkedDeposit
