import LinkedDeposit.Proofs.Deposit.Fresh
import LinkedDeposit.Proofs.Deposit.InMemory

/-!
# A session in a crowd

Before each call that one session makes, other sessions on the same repository may make any steps
(`Workspace.crowded`). What they cannot do is in the way of the session: they do not touch its
transaction, a container stays one, and the names to come stay unused (`Workspace.Ready`).

Results:
* `Workspace.unused_step`: what is unused stays so, if it is not given out.
* `Workspace.Sound.step`, `Workspace.Sound.run`: names to come stay unused, whatever is done.
* `Workspace.Ready.step`: every step keeps a workspace ready for deposits below a target.
* `Crowd.Ready.advance`: so do the steps of the others, and they leave the session's transaction
  alone.
* `Workspace.answer_crowded`: a call in a crowd is a step after the steps of the others.
-/

namespace LinkedDeposit

/-- A workspace with the steps that other sessions are going to make there, in blocks. -/
abbrev Crowd := Workspace × List (List (String × SessionCall))

/-- The others make the steps of their next block. -/
def Crowd.advance (host : Host) (x : Crowd) : Crowd :=
  ((Workspace.run host (x.2.headD []) x.1).2, x.2.tail)

namespace Workspace

/-- The session of a name, before each of whose calls the others make the steps of a block. -/
def crowded (host : Host) (name : String) : Session (StateM Crowd) :=
  @Session.lift (StateM Workspace) (StateM Crowd) _ ⟨fun m x => onFirst m (x.advance host)⟩
    (session host name)

/-- **A call in a crowd is a step** after the steps of the others. -/
theorem answer_crowded (host : Host) (name : String) (c : SessionCall) (x : Crowd) :
    ((crowded host name).answer c).run x =
      (((x.advance host).1.step host name c).1,
        (((x.advance host).1.step host name c).2, (x.advance host).2)) := by
  have shown {α : Type} (f : α → SessionAnswer) (m : ExceptT DepositError (StateM Workspace) α) :
      (f <$> (ExceptT.mk fun x : Crowd => onFirst m.run (x.advance host) :
        ExceptT DepositError (StateM Crowd) α)).run.run x =
        (((f <$> m).run.run (x.advance host).1).1,
          (((f <$> m).run.run (x.advance host).1).2, (x.advance host).2)) := by
    rw [ExceptT.run_map, ExceptT.run_map]
    rfl
  cases c <;> exact shown _ _

/-! ## Unused URIs -/

variable {host : Host} {name : String} {c : SessionCall} {w : Workspace}

/-- What a call gives out has the name that was at hand. -/
theorem isNamed_of_mem_newUris {uri : String} (h : uri ∈ newUris (w.step host name c).1) :
    IsNamed (host.freshName (w.deposits + 1)) uri ∧
      (w.step host name c).2.deposits = w.deposits + 1 := by
  obtain ⟨answer, r, t, hstep, performed⟩ := step_performs host name c w
  rw [hstep] at h ⊢
  cases performed with
  | placed resource parent container new unfinished seen isContainer stored =>
    exact ⟨⟨parent, Resource.mem_uris_placed h⟩, rfl⟩
  | _ => cases h

/-- **What is unused stays so**, if it is not given out. -/
theorem unused_step {uri : String} (unused : w.Unused uri)
    (old : uri ∉ newUris (w.step host name c).1) : (w.step host name c).2.Unused uri := by
  obtain ⟨answer, r, t, hstep, performed⟩ := step_performs host name c w
  rw [hstep] at old ⊢
  obtain ⟨uncommitted, unstaged⟩ := unused
  -- all that a step can change is the transaction of its session and, by a commit, the repository
  have kept (own : t.staged.get? uri = none) (committed : r.get? uri = none) :
      (w.after name c (answer, r, t)).Unused uri := by
    refine ⟨committed, fun other => ?_⟩
    rw [transaction_after]
    split
    · exact own
    · exact unstaged other
  have unseen : (w.transaction name).lookup w.repository uri = none := by
    rw [Transaction.lookup_eq, unstaged, uncommitted]
    rfl
  cases performed with
  | refused | failed | fetched | unasked | conflicting => exact kept (unstaged name) uncommitted
  | placed resource parent container new unfinished seen isContainer stored =>
    refine kept ?_ uncommitted
    rw [Transaction.place, Table.get?_union, Resource.get?_stored_eq_none stored old, unstaged]
    rfl
  | patched changed p stored unfinished proper seen =>
    refine kept ?_ uncommitted
    rw [Transaction.get?_staged_amend, unstaged]
    refine if_neg fun same => ?_
    rw [← same, unseen] at seen
    cases seen
  | committed unfinished agreed =>
    exact kept rfl (Transaction.get?_merge_eq_none (unstaged name) uncommitted)
  | rolledBack => exact kept rfl uncommitted

theorem deposits_le_step : w.deposits ≤ (w.step host name c).2.deposits := by
  rw [step_eq]
  change _ ≤ if _ then _ else _
  split
  · exact Nat.le_succ _
  · exact Nat.le_refl _

/-! ## Sound workspaces -/

/-- The sessions are coherent, and the names to come are unused. -/
structure Sound (host : Host) (w : Workspace) : Prop where
  coherent : w.Coherent
  unused : ∀ count, w.deposits < count → ∀ uri, IsNamed (host.freshName count) uri → w.Unused uri

/-- A new repository is sound, if its root has no name that is given to new resources. -/
theorem sound_new {root : String} (unnamed : ∀ count, ¬ IsNamed (host.freshName count) root) :
    (Workspace.new root).Sound host where
  coherent := coherent_idle _ _
  unused count _ uri named := by
    have elsewhere : uri ≠ root := by
      rintro rfl
      exact unnamed count named
    exact ⟨(Table.get?_insert ..).trans (if_neg elsewhere), fun _ => rfl⟩

namespace Sound

/-- Whatever a call creates, it creates at unused URIs. -/
theorem createsFresh (sound : w.Sound host) : w.CreatesFresh host name c := fun uri hu =>
  sound.unused _ (Nat.lt_succ_self _) uri (isNamed_of_mem_newUris hu).1

/-- **Every step keeps a workspace sound.** -/
theorem step (sound : w.Sound host) (fresh : host.NamesFresh) :
    (w.step host name c).2.Sound host where
  coherent := (coherent_step sound.coherent sound.createsFresh).1
  unused count later uri named := by
    have before := sound.unused count (Nat.lt_of_le_of_lt deposits_le_step later) uri named
    refine unused_step before fun hu => ?_
    obtain ⟨now, counted⟩ := isNamed_of_mem_newUris hu
    rw [counted, fresh.eq_of_isNamed named now] at later
    exact absurd later (Nat.lt_irrefl _)

/-- So every schedule does, from a new repository for example. -/
theorem run (sound : w.Sound host) (fresh : host.NamesFresh)
    (schedule : List (String × SessionCall)) : (Workspace.run host schedule w).2.Sound host := by
  induction schedule generalizing w with
  | nil => exact sound
  | cons step schedule ih => exact ih (sound.step fresh)

end Sound

/-! ## Ready workspaces -/

/-- A sound workspace is ready for deposits below a container, if no name to come is one of some
reserved ones. -/
structure Ready (host : Host) (target : String) (reserved : List String) (w : Workspace) : Prop
    extends w.Sound host where
  unreserved : ∀ count, w.deposits < count → host.freshName count ∉ reserved
  container : w.repository.kind? target = some .container

variable {target : String} {reserved : List String}

/-- **Every step keeps a workspace ready**, since no container ever becomes something else. -/
theorem Ready.step (ready : w.Ready host target reserved) (fresh : host.NamesFresh) :
    (w.step host name c).2.Ready host target reserved where
  toSound := ready.toSound.step fresh
  unreserved count later := ready.unreserved count (Nat.lt_of_le_of_lt deposits_le_step later)
  container := by
    obtain ⟨committed, found, isContainer⟩ := Option.map_eq_some_iff.mp ready.container
    obtain ⟨later, found', becomes⟩ :=
      (coherent_step ready.coherent ready.createsFresh).2 target committed found
    rw [Repository.kind?, found', Option.map_some, becomes.kind, isContainer]

/-- What the session sees at the target is a container, unless it has patched that. -/
theorem Ready.lookup_target (ready : w.Ready host target reserved)
    (unpatched : (w.transaction name).baseVersions = Table.empty) :
    ∃ container, (w.transaction name).lookup w.repository target = some container ∧
      container.kind = .container := by
  obtain ⟨committed, found, isContainer⟩ := Option.map_eq_some_iff.mp ready.container
  have unstaged : (w.transaction name).staged.get? target = none := by
    cases staged : (w.transaction name).staged.get? target with
    | none => rfl
    | some s =>
      obtain ⟨version, noted⟩ := (ready.coherent.fits name).noted staged found
      rw [unpatched] at noted
      cases noted
  refine ⟨(w.transaction name).shown target committed, ?_, isContainer⟩
  rw [Transaction.lookup_eq, unstaged, found]
  rfl

end Workspace

/-! ## Steps of the others -/

open Workspace

variable {host : Host} {name target : String} {reserved : List String}

/-- A crowd is ready if its workspace is and the others are no namesakes. -/
structure Crowd.Ready (host : Host) (name target : String) (reserved : List String) (x : Crowd) :
    Prop where
  workspace : x.1.Ready host target reserved
  others : ∀ block ∈ x.2, ∀ step ∈ block, step.1 ≠ name

theorem ready_run {w : Workspace} (ready : w.Ready host target reserved) (fresh : host.NamesFresh)
    {steps : List (String × SessionCall)} (others : ∀ step ∈ steps, step.1 ≠ name) :
    (run host steps w).2.Ready host target reserved ∧
      (run host steps w).2.transaction name = w.transaction name ∧
      w.deposits ≤ (run host steps w).2.deposits := by
  induction steps generalizing w with
  | nil => exact ⟨ready, rfl, Nat.le_refl _⟩
  | cons step steps ih =>
    obtain ⟨other, c⟩ := step
    obtain ⟨stranger, others⟩ := List.forall_mem_cons.mp others
    have next : (w.step host other c).2.Ready host target reserved := ready.step fresh
    obtain ⟨ready', same, later⟩ := ih next others
    refine ⟨ready', same.trans ?_, Nat.le_trans deposits_le_step later⟩
    rw [step_eq]
    exact (transaction_after w other name c _).trans (if_neg (Ne.symm stranger))

/-- **The others leave the session's transaction alone** and keep the crowd ready. -/
theorem Crowd.Ready.advance {x : Crowd} (ready : x.Ready host name target reserved)
    (fresh : host.NamesFresh) :
    (x.advance host).Ready host name target reserved ∧
      (x.advance host).1.transaction name = x.1.transaction name ∧
      x.1.deposits ≤ (x.advance host).1.deposits := by
  have block : ∀ step ∈ x.2.headD [], step.1 ≠ name := by
    cases blocks : x.2 with
    | nil => simp
    | cons block rest => exact ready.others block (by rw [blocks]; exact List.mem_cons_self)
  obtain ⟨workspace, same, later⟩ := ready_run ready.workspace fresh block
  exact ⟨⟨workspace, fun block hb => ready.others block (List.mem_of_mem_tail hb)⟩, same, later⟩

/-- The session's own call keeps the crowd ready. -/
theorem Crowd.Ready.step {x : Crowd} (ready : x.Ready host name target reserved)
    (fresh : host.NamesFresh) (c : SessionCall) :
    Crowd.Ready host name target reserved ((x.1.step host name c).2, x.2) :=
  ⟨ready.workspace.step fresh, ready.others⟩

end LinkedDeposit
