import LinkedDeposit.Proofs.Repository.Coherence

/-!
# Sessions one after the other

The committed state after any schedule is the one that its committed sessions leave when they run
one after the other, in the order of their commits: each makes its deposits and patches again, under
the same names and with the same answers, and commits (`replay`). Other sessions do not occur in
this.

The invariant behind it speaks of what is still open. As long as the versions that a session noted
are the committed ones, whatever else has been committed, the session's writes can be made again
from nothing, with the same answers, and they stage what it has staged (`Transaction.Redoable`). A
commit asks for just these versions, so it can be replaced by a replay.

Results:
* `Transaction.redoable_perform`: a call keeps what it takes to make the writes again.
* `Workspace.serializable`: every schedule can be replayed serially.
-/

namespace LinkedDeposit

/-- The sessions whose commit succeeded, in the order of their commits. -/
def committers (trace : List Performed) : List String :=
  (trace.filter Performed.isCommit).map (·.session)

/-- What a session created and patched. -/
def writesOf (name : String) (trace : List Performed) : List Performed :=
  trace.filter fun p => p.session = name && p.isWrite

/-- Makes writes again, under the names that they were made with. Another answer than before is none
at all. -/
def Transaction.redo (files : Files) (r : Repository) :
    List Performed → Transaction → Option Transaction
  | [], t => some t
  | p :: rest, t =>
    let (answer, _, t) := t.perform files p.name r p.call
    if answer = p.answer then redo files r rest t else none

/-- The repository after a session of its own has made writes again and has committed them. -/
def replaySession (files : Files) (writes : List Performed) (r : Repository) : Option Repository :=
  (Transaction.idle.redo files r writes).bind fun t =>
    match t.commit r with
    | (.ok _, r, _) => some r
    | (.error _, _, _) => none

/-- The writes of the committed sessions of a trace, session by session. -/
def serialWrites (trace : List Performed) : List (List Performed) :=
  (committers trace).map fun name => writesOf name trace

/-- The repository after the committed sessions of a trace have run again, one after the other. -/
def replay (files : Files) (trace : List Performed) (r : Repository) : Option Repository :=
  (serialWrites trace).foldlM (fun r writes => replaySession files writes r) r

namespace Transaction

/-! ## The same work -/

/-- Two transactions have staged the same, for the same versions. -/
structure SameWork (t u : Transaction) : Prop where
  staged : u.staged = t.staged
  contained : u.contained = t.contained
  baseVersions : u.baseVersions = t.baseVersions

theorem SameWork.refl (t : Transaction) : t.SameWork t := ⟨rfl, rfl, rfl⟩

section SameWork

variable {t u : Transaction} {r q : Repository}

theorem SameWork.conflict?_eq (h : t.SameWork u) (r : Repository) :
    u.conflict? r = t.conflict? r := by
  unfold conflict?
  rw [h.baseVersions]

theorem SameWork.merge_eq (h : t.SameWork u) (r : Repository) : u.merge r = t.merge r := by
  unfold merge
  rw [h.staged, h.contained]

theorem SameWork.place (h : t.SameWork u) (parent uri : String) (new : Table String Stored) :
    (t.place parent uri new).SameWork (u.place parent uri new) where
  staged := congrArg (Table.union · new) h.staged
  contained := congrArg (· ++ [(parent, uri)]) h.contained
  baseVersions := h.baseVersions

theorem SameWork.amend (h : t.SameWork u) (uri : String) (p : Patch) (seen : Stored) :
    (t.amend uri p seen).SameWork (u.amend uri p seen) where
  staged := congrArg (Table.insert · uri _) h.staged
  contained := h.contained
  baseVersions := by
    unfold Transaction.amend
    rw [h.staged, h.baseVersions]

/-- Sessions with the same work see what they have found alike. -/
theorem SameWork.lookup_eq (h : t.SameWork u) {uri : String}
    (found : (t.staged.get? uri).or (r.get? uri) = (t.staged.get? uri).or (q.get? uri)) :
    u.lookup q uri = t.lookup r uri := by
  have same : u.shown uri = t.shown uri := by
    unfold Transaction.shown
    rw [h.contained]
  rw [Transaction.lookup_eq, Transaction.lookup_eq, h.staged, same, found]

/-- A session with the same work sees a resource of the same kind later on. -/
theorem SameWork.lookup_kind (h : t.SameWork u) (hr : r.Evolves q) {uri : String} {seen : Stored}
    (hl : t.lookup r uri = some seen) : ∃ later, u.lookup q uri = some later ∧
      later.kind = seen.kind := by
  obtain ⟨found, hf, rfl⟩ := found_of_lookup hl
  cases hs : t.staged.get? uri with
  | some s =>
    refine ⟨_, (h.lookup_eq ?_).trans hl, rfl⟩
    rw [hs]
    rfl
  | none =>
    rw [hs, Option.none_or] at hf
    obtain ⟨later, hq, becomes⟩ := hr uri found hf
    have hu := Transaction.lookup_eq q u uri
    rw [h.staged, hs, Option.none_or, hq] at hu
    exact ⟨_, hu, becomes.kind⟩

end SameWork

/-! ## Making writes again -/

theorem redo_append (files : Files) (r : Repository) (ps qs : List Performed) (t : Transaction) :
    redo files r (ps ++ qs) t = (redo files r ps t).bind (redo files r qs) := by
  induction ps generalizing t with
  | nil => rfl
  | cons p ps ih =>
    simp only [List.cons_append, redo]
    split
    case isTrue => exact ih _
    case isFalse => rfl

/-- As long as the versions that the session noted are the committed ones, its writes can be made
again from nothing. -/
def Redoable (files : Files) (r : Repository) (writes : List Performed) (t : Transaction) : Prop :=
  ∀ q, r.Evolves q → t.conflict? q = none →
    ∃ u, idle.redo files q writes = some u ∧ u.lifecycle.isFinished = false ∧ t.SameWork u

section Redoable

variable {files : Files} {r q : Repository} {writes : List Performed} {t : Transaction}

theorem redoable_idle (files : Files) (r : Repository) : idle.Redoable files r [] :=
  fun _ _ _ => ⟨idle, rfl, rfl, .refl idle⟩

theorem Redoable.evolves (h : t.Redoable files r writes) (hr : r.Evolves q) :
    t.Redoable files q writes := fun p hq agreed => h p (hr.trans hq) agreed

theorem Redoable.congr {u : Transaction} (h : t.Redoable files r writes) (hu : t.SameWork u) :
    u.Redoable files r writes := by
  intro q hq agreed
  obtain ⟨v, hv, unfinished, same⟩ := h q hq (hu.conflict?_eq q ▸ agreed)
  exact ⟨v, hv, unfinished, same.staged.trans hu.staged.symm,
    same.contained.trans hu.contained.symm, same.baseVersions.trans hu.baseVersions.symm⟩

/-- Another write can be made again after the others. -/
theorem redo_concat {p : Performed} {u v : Transaction} (hu : idle.redo files q writes = some u)
    (hp : u.perform files p.name q p.call = (p.answer, q, v)) :
    idle.redo files q (writes ++ [p]) = some v := by
  rw [redo_append, hu]
  simp [redo, hp]

theorem Redoable.place (h : t.Redoable files r writes) {session name : String}
    {resource : Resource} {parent : String} {container : Stored} {new : Table String Stored}
    (seen : t.lookup r parent = some container) (isContainer : container.kind = .container)
    (stored : resource.stored files (childUri parent name) = .ok new) :
    (t.place parent (childUri parent name) new).Redoable files r
      (writes ++ [⟨session, name, .deposit resource parent,
        .ok (.deposited (resource.placed (childUri parent name)))⟩]) := by
  intro q hq agreed
  obtain ⟨u, hu, unfinished, same⟩ := h q hq agreed
  obtain ⟨later, hl, hk⟩ := same.lookup_kind hq seen
  exact ⟨_, redo_concat hu (perform_deposit unfinished hl (hk.trans isContainer) stored), rfl,
    same.place _ _ _⟩

/-- Versions that are noted by a patch were not noted before. -/
theorem Fits.conflict?_of_amend (fits : t.Fits r) {uri : String} {p : Patch} {seen : Stored}
    (agreed : (t.amend uri p seen).conflict? q = none) : t.conflict? q = none := by
  rw [conflict?_eq_none_iff] at agreed ⊢
  intro k version hv
  refine agreed k version ?_
  obtain ⟨s, -, hs, -⟩ := fits.patched k version hv
  rw [get?_baseVersions_amend, if_neg, hv]
  rintro ⟨rfl, hn⟩
  rw [hs] at hn
  cases hn

theorem Redoable.amend (h : t.Redoable files r writes) (fits : t.Fits r) {session name : String}
    {uri : String} {p : Patch} {seen : Stored} (proper : p.isEmpty = false)
    (hl : t.lookup r uri = some seen) :
    (t.amend uri p seen).Redoable files r
      (writes ++ [⟨session, name, .patch uri p seen.token, .ok .done⟩]) := by
  intro q hq agreed
  obtain ⟨u, hu, unfinished, same⟩ := h q hq (fits.conflict?_of_amend agreed)
  have hl' : u.lookup q uri = some seen := by
    refine (same.lookup_eq ?_).trans hl
    cases hs : t.staged.get? uri with
    | some s => rfl
    | none =>
      -- the version that it notes is still the committed one
      obtain ⟨found, hf, rfl⟩ := found_of_lookup hl
      rw [hs, Option.none_or] at hf
      obtain ⟨later, hlater, hv⟩ := conflict?_eq_none_iff.mp agreed uri found.version
        (get?_baseVersions_amend.trans (if_pos ⟨rfl, hs⟩))
      rw [Option.none_or, Option.none_or, hf, hlater, hq.eq_of_version hf hlater hv]
  exact ⟨_, redo_concat hu (perform_patch unfinished proper hl'), rfl, same.amend _ _ _⟩

theorem Redoable.patchEmpty (h : t.Redoable files r writes) {session name : String}
    {uri : String} {p : Patch} {token : Token} (empty : p.isEmpty = true) :
    Redoable files r (writes ++ [⟨session, name, .patch uri p token, .ok .done⟩])
      { t with lifecycle := .active } := by
  intro q hq agreed
  obtain ⟨u, hu, unfinished, same⟩ := h q hq agreed
  exact ⟨_, redo_concat hu (perform_patch_empty unfinished empty), rfl, same.staged,
    same.contained, same.baseVersions⟩

/-- **A call keeps what it takes to make the writes again**, itself among them if it is one. -/
theorem redoable_perform (session : String) {name : String} {c : SessionCall}
    {answer : Except DepositError SessionAnswer} {r' : Repository} {t' : Transaction}
    (fits : t.Fits r) (h : t.lifecycle.isFinished = false → t.Redoable files r writes)
    (performed : Performs files name r t c answer r' t')
    (unfinished : t'.lifecycle.isFinished = false) :
    t'.Redoable files r'
      (writes ++ [(⟨session, name, c, answer⟩ : Performed)].filter Performed.isWrite) := by
  have unwritten {p : Performed} (hp : p.isWrite = false) :
      writes ++ [p].filter Performed.isWrite = writes := by
    rw [List.filter_cons_of_neg (by rw [hp]; exact Bool.false_ne_true), List.filter_nil,
      List.append_nil]
  cases performed with
  | refused c e finished => rw [finished] at unfinished; cases unfinished
  | failed c e open' =>
    rw [unwritten rfl]
    exact (h open').congr ⟨rfl, rfl, rfl⟩
  | fetched uri stored open' =>
    rw [unwritten rfl]
    exact (h open').congr ⟨rfl, rfl, rfl⟩
  | conflicting uri open' =>
    rw [unwritten rfl]
    exact h open'
  | placed resource parent container new open' seen isContainer stored =>
    exact (h open').place seen isContainer stored
  | unasked uri p token open' empty => exact (h open').patchEmpty empty
  | patched uri p stored open' proper seen => exact (h open').amend fits proper seen
  | committed open' agreed => cases unfinished
  | rolledBack open' => cases unfinished

/-- A commit without conflict can be replaced by a replay. -/
theorem Redoable.replaySession_eq (h : t.Redoable files r writes) (agreed : t.conflict? r = none) :
    replaySession files writes r = some (t.merge r) := by
  obtain ⟨u, hu, unfinished, same⟩ := h r (.refl r) agreed
  unfold replaySession
  rw [hu, Option.bind_some]
  simp only [commit, checkOpen_of_unfinished unfinished, same.conflict?_eq, agreed, same.merge_eq]

end Redoable

end Transaction

/-! ## Replays of whole schedules -/

theorem committers_concat (trace : List Performed) (p : Performed) :
    committers (trace ++ [p]) =
      committers trace ++ if p.isCommit then [p.session] else [] := by
  unfold committers
  rw [List.filter_append, List.map_append, List.filter_cons, List.filter_nil]
  cases p.isCommit <;> rfl

theorem writesOf_concat (name : String) (trace : List Performed) (p : Performed) :
    writesOf name (trace ++ [p]) =
      writesOf name trace ++ if p.session = name then [p].filter Performed.isWrite else [] := by
  unfold writesOf
  rw [List.filter_append, List.filter_cons, List.filter_cons, List.filter_nil, List.filter_nil]
  by_cases h : p.session = name <;> simp [h]

theorem writesOf_concat_of_not_isWrite {name : String} {trace : List Performed} {p : Performed}
    (h : p.session = name → p.isWrite = false) :
    writesOf name (trace ++ [p]) = writesOf name trace := by
  rw [writesOf_concat]
  split
  case isTrue hs => simp [h hs]
  case isFalse => exact List.append_nil _

/-- A session that has committed is refused every further call, so its writes stay what they are; a
commit puts its session's writes last. -/
theorem serialWrites_concat {trace : List Performed} {p : Performed}
    (done : p.session ∈ committers trace → p.succeeded = false) :
    serialWrites (trace ++ [p]) =
      serialWrites trace ++ if p.isCommit then [writesOf p.session trace] else [] := by
  have before : (committers trace).map (fun name => writesOf name (trace ++ [p])) =
      serialWrites trace := by
    refine List.map_congr_left fun name hn => writesOf_concat_of_not_isWrite ?_
    rintro rfl
    rw [Performed.isWrite, done hn, Bool.false_and]
  unfold serialWrites at before ⊢
  rw [committers_concat, List.map_append, before]
  cases hp : p.isCommit with
  | false => rfl
  | true =>
    -- a commit is no write of its session
    have : p.isWrite = false := by
      unfold Performed.isCommit at hp
      unfold Performed.isWrite
      simp only [Bool.and_eq_true, decide_eq_true_eq] at hp
      simp [hp.2]
    simp only [if_true, List.map_singleton, writesOf_concat_of_not_isWrite fun _ => this]

theorem replay_concat {files : Files} {trace : List Performed} {p : Performed} {start : Repository}
    (done : p.session ∈ committers trace → p.succeeded = false) :
    replay files (trace ++ [p]) start = (replay files trace start).bind fun r =>
      if p.isCommit then replaySession files (writesOf p.session trace) r else some r := by
  unfold replay
  rw [serialWrites_concat done, List.foldlM_append]
  refine congrArg (Option.bind _) (funext fun r => ?_)
  cases p.isCommit with
  | false => rfl
  | true => simp only [if_true, List.foldlM_cons, List.foldlM_nil, bind_pure]

namespace Workspace

/-- What a trace and the workspace after it have to do with each other. -/
structure Serial (files : Files) (start : Repository) (trace : List Performed) (w : Workspace) :
    Prop where
  coherent : w.Coherent
  replayed : replay files trace start = some w.repository
  /-- Sessions that have committed take no calls any more. -/
  done : ∀ name ∈ committers trace, (w.transaction name).lifecycle.isFinished = true
  redoable : ∀ name, (w.transaction name).lifecycle.isFinished = false →
    (w.transaction name).Redoable files w.repository (writesOf name trace)

/-- A call that is not a successful commit does not change the committed state. -/
theorem repository_step {host : Host} {w : Workspace} {name : String} {c : SessionCall}
    (h : (w.performed host name c).isCommit = false) :
    (w.step host name c).2.repository = w.repository := by
  obtain ⟨answer, r, t, hstep, performed⟩ := step_performs host name c w
  unfold Workspace.performed at h
  rw [hstep] at h ⊢
  cases performed with
  | committed => cases h
  | _ => rfl

theorem serial_start (files : Files) (start : Repository) (deposits : Nat) :
    Serial files start [] ⟨start, Table.empty, deposits⟩ where
  coherent := coherent_idle start deposits
  replayed := rfl
  done _ h := nomatch h
  redoable _ _ := Transaction.redoable_idle files start

theorem serial_step {host : Host} {start : Repository} {trace : List Performed} {w : Workspace}
    {name : String} {c : SessionCall} (h : Serial host.files start trace w)
    (fresh : w.CreatesFresh host name c) :
    Serial host.files start (trace ++ [w.performed host name c]) (w.step host name c).2 := by
  obtain ⟨coherent, evolved⟩ := coherent_step h.coherent fresh
  obtain ⟨answer, r, t, hstep, performed⟩ := step_performs host name c w
  have mine := Transaction.redoable_perform name (h.coherent.fits name) (h.redoable name) performed
  unfold Workspace.performed
  rw [hstep] at coherent evolved ⊢
  have refused (hn : name ∈ committers trace) : answer.toBool = false ∧ t = w.transaction name :=
    performed.refused_of_finished (h.done name hn)
  refine ⟨coherent, ?_, fun other ho => ?_, fun other unfinished => ?_⟩
  · have done : (⟨name, host.freshName (w.deposits + 1), c, answer⟩ : Performed).session ∈
        committers trace → answer.toBool = false := fun hn => (refused hn).1
    rw [replay_concat done, h.replayed, Option.bind_some]
    cases performed with
    | committed unfinished agreed => exact (h.redoable name unfinished).replaySession_eq agreed
    | _ => rfl
  · rw [transaction_after]
    rw [committers_concat] at ho
    rcases List.mem_append.mp ho with before | now
    · split
      case isTrue hn =>
        subst hn
        rw [(refused before).2]
        exact h.done other before
      case isFalse => exact h.done other before
    · cases performed with
      | committed unfinished agreed => rw [if_pos (List.mem_singleton.mp now)]; rfl
      | _ => cases now
  · rw [transaction_after] at unfinished ⊢
    rw [writesOf_concat]
    by_cases hn : other = name
    · subst hn
      rw [if_pos rfl] at unfinished ⊢
      rw [if_pos rfl]
      exact mine unfinished
    · rw [if_neg hn] at unfinished ⊢
      rw [if_neg (Ne.symm hn), List.append_nil]
      exact (h.redoable other unfinished).evolves evolved

/-- **Sessions are serializable.** At every moment of every schedule the committed state is the one
that the committed sessions leave when they run again from the start, one after the other in the
order of their commits, each with its own deposits and patches under the same names; every one of
these succeeds again, with the same answer, and so does every commit. A call that is not a
successful commit does not change the committed state. -/
theorem serializable (host : Host) (start : Repository) (deposits : Nat)
    (schedule : List (String × SessionCall))
    (fresh : MintsFresh host schedule ⟨start, Table.empty, deposits⟩) :
    ∀ before after, schedule = before ++ after →
      let (trace, w) := run host before ⟨start, Table.empty, deposits⟩
      replay host.files trace start = some w.repository ∧
        ∀ name c, (w.performed host name c).isCommit = false →
          (w.step host name c).2.repository = w.repository := by
  rintro before after rfl
  have serial := run_induction (P := Serial host.files start)
    (serial_start host.files start deposits) (fun _ _ _ _ h fresh => serial_step h fresh)
    (mintsFresh_append.mp fresh).1
  exact ⟨serial.replayed, fun name c => repository_step⟩

/-- The call that gives a resource a title, against the version that it began with. -/
def giveTitle (uri title : String) : SessionCall :=
  .patch uri ⟨.ofList [⟨.iri uri, "http://purl.org/dc/terms/title", .plain title⟩], .empty⟩ "1"

/-- Two sessions deposit below one container and give titles, one to the container and one to what
it has created; the first commits while the others are open. A third one, which has given the
container another title, is overtaken. -/
def twoDeposits : List (String × SessionCall) :=
  [("a", .deposit (.rdfSource "x" Graph.empty) "r"),
    ("b", .deposit (.container "y" Graph.empty []) "r"), ("b", giveTitle "r" "Root"),
    ("c", giveTitle "r" "Other"), ("b", .commit), ("a", giveTitle "r/1" "Leaf"),
    ("a", .fetch "r"), ("c", .commit), ("a", .commit)]

theorem serializable_twoDeposits :
    MintsFresh .numbering twoDeposits ⟨Repository.root "r", Table.empty, 0⟩ ∧
      let (trace, w) := run .numbering twoDeposits ⟨Repository.root "r", Table.empty, 0⟩
      committers trace = ["b", "a"] ∧
        (serialWrites trace).map (·.map (·.call.kind)) =
          [[.deposit, .patch], [.deposit, .patch]] ∧
        replay Host.numbering.files trace (Repository.root "r") = some w.repository :=
  ⟨by decide +kernel, by decide +kernel, by decide +kernel,
    (serializable .numbering (Repository.root "r") 0 twoDeposits (by decide +kernel) twoDeposits []
      (by simp)).1⟩

end Workspace

end LinkedDeposit
