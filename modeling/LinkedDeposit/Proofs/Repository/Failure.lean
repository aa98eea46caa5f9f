import LinkedDeposit.Proofs.Repository.LostUpdate
import LinkedDeposit.Proofs.Repository.Serial

/-!
# Calls that fail

A call that fails changes nothing that matters: the repository, the other sessions and the work of
the session itself are as they were. At most the session counts one request more and has begun to
work (`Transaction.Unharmed`).

A commit has one reason to fail. The session has patched a resource that it has not created, and the
committed version is no longer the one that was there at the first of these patches
(`Workspace.Overtaken`). Nothing is assumed of the names of new resources: where a session
happens to create a resource over a committed one, its patches do not concern that one.

Results:
* `Performs.unharmed`: what a call that fails leaves.
* `Performs.staged`, `Performs.noted`: what a call adds to what is staged and noted.
* `tracks_run`: what a transaction has noted, in terms of the schedule.
* `failure_harmless`.
-/

namespace LinkedDeposit

namespace Transaction

/-- The second transaction has the work of the first one. It may have begun, and may have asked for
something in vain. -/
structure Unharmed (t u : Transaction) : Prop extends SameWork t u where
  lifecycle : u.lifecycle = t.lifecycle ∨ t.lifecycle = .idle ∧ u.lifecycle = .active
  requests : u.requests = t.requests ∨ u.requests = t.requests + 1
  finished : t.lifecycle.isFinished = true → u = t

section Calls

variable {files : Files} {name : String} {r r' : Repository} {t t' : Transaction}
  {c : SessionCall} {answer : Except DepositError SessionAnswer}

theorem Unharmed.refl (t : Transaction) : t.Unharmed t :=
  ⟨.refl t, .inl rfl, .inl rfl, fun _ => rfl⟩

theorem unharmed_request (unfinished : t.lifecycle.isFinished = false) : t.Unharmed t.request where
  staged := rfl
  contained := rfl
  baseVersions := rfl
  lifecycle := by
    cases h : t.lifecycle with
    | idle => exact .inr ⟨rfl, rfl⟩
    | active => exact .inl rfl
    | committed | rolledBack => rw [h] at unfinished; cases unfinished
  requests := .inr rfl
  finished h := by rw [h] at unfinished; cases unfinished

/-- **A call that fails does no harm.** -/
theorem Performs.unharmed {e : DepositError} (h : Performs files name r t c (.error e) r' t') :
    r' = r ∧ t.Unharmed t' := by
  cases h with
  | refused | conflicting => exact ⟨rfl, .refl t⟩
  | failed _ _ unfinished => exact ⟨rfl, unharmed_request unfinished⟩

/-- A call stages something where it creates or patches something, unless the session is
finished. -/
theorem Performs.staged (h : Performs files name r t c answer r' t') (session uri : String) :
    t'.lifecycle.isFinished = true ∨
      ((t'.staged.get? uri).isSome = true ↔ (t.staged.get? uri).isSome = true ∨
        Performed.patches uri ⟨session, name, c, answer⟩ = true ∨ uri ∈ newUris answer) := by
  cases h with
  | refused _ _ finished => exact .inl finished
  | failed c e => cases c <;> simp [request, Performed.patches, Performed.succeeded,
      Except.toBool, newUris]
  | placed resource parent container new unfinished seen isContainer stored =>
    refine .inr ?_
    rw [get?_staged_place, Option.isSome_or, Bool.or_eq_true, Resource.get?_stored_isSome stored]
    simp [Performed.patches, newUris, or_comm]
  | fetched => simp [request, Performed.patches, newUris]
  | unasked _ _ _ _ empty => simp [Performed.patches, newUris, empty]
  | patched patched p stored unfinished proper seen =>
    refine .inr ?_
    rw [get?_staged_amend]
    by_cases same : uri = patched
    · simp [same, Performed.patches, Performed.succeeded, Except.toBool, proper]
    · simp [same, Ne.symm same, Performed.patches, newUris]
  | conflicting => simp [Performed.patches, newUris]
  | committed | rolledBack => exact .inl rfl

/-- A version is noted when a resource is patched that is not staged yet, and it is the committed
one. -/
theorem Performs.noted (h : Performs files name r t c answer r' t') (session uri : String) :
    t'.lifecycle.isFinished = true ∨
      t'.baseVersions.get? uri =
        if Performed.patches uri ⟨session, name, c, answer⟩ = true ∧ t.staged.get? uri = none then
          (r.get? uri).map (·.version)
        else t.baseVersions.get? uri := by
  cases h with
  | refused _ _ finished => exact .inl finished
  | failed c e => cases c <;> simp [request, Performed.patches, Performed.succeeded, Except.toBool]
  | placed | fetched | conflicting => simp [place, request, Performed.patches]
  | unasked _ _ _ _ empty => simp [Performed.patches, empty]
  | patched patched p stored unfinished proper seen =>
    refine .inr ?_
    have writes : Performed.patches uri ⟨session, name, .patch patched p stored.token,
        .ok .done⟩ = true ↔ uri = patched := by
      simp [Performed.patches, Performed.succeeded, Except.toBool, proper, eq_comm]
    rw [get?_baseVersions_amend]
    simp only [writes]
    by_cases same : uri = patched
    · subst same
      simp only [true_and]
      split
      case isTrue unstaged =>
        obtain ⟨found, hf, rfl⟩ := found_of_lookup seen
        rw [unstaged, Option.none_or] at hf
        rw [hf]
        rfl
      case isFalse => rfl
    · rw [if_neg fun h => same h.1, if_neg fun h => same h.1]
  | committed | rolledBack => exact .inl rfl

end Calls

/-- A conflict is at a resource that is no longer in the version noted. -/
theorem noted_of_conflict {r : Repository} {t : Transaction} {uri : String}
    (conflict : t.conflict? r = some uri) : ∃ version,
      t.baseVersions.get? uri = some version ∧ (r.get? uri).map (·.version) ≠ some version := by
  obtain ⟨⟨_, version⟩, hfind, rfl⟩ := Option.map_eq_some_iff.mp conflict
  refine ⟨version, Table.mem_entries_iff.mp (List.mem_of_find?_eq_some hfind), ?_⟩
  have := List.find?_some hfind
  exact of_decide_eq_true this

end Transaction

namespace Workspace

/-! ## First patches -/

/-- Now the session patches a committed resource that it has neither patched before nor created. -/
structure PatchesFirst (host : Host) (trace : List Performed) (w : Workspace) (name uri : String)
    (p : Patch) (token : Token) (found : Stored) : Prop where
  untouched : ∀ q ∈ trace, q.session = name → q.patches uri = false ∧ uri ∉ newUris q.answer
  proper : p.isEmpty = false
  accepted : (w.step host name (.patch uri p token)).1 = .ok .done
  found : w.repository.get? uri = some found

/-- At its first patch of a resource that it had not created, the session found this committed. -/
def PatchedFirst (host : Host) (schedule : List (String × SessionCall)) (start : Workspace)
    (name uri : String) (found : Stored) : Prop :=
  ∃ earlier p token later, schedule = earlier ++ (name, .patch uri p token) :: later ∧
    PatchesFirst host (run host earlier start).1 (run host earlier start).2 name uri p token found

/-- The committed version of a resource is no longer the one that the session found when it patched
the resource first. -/
def Overtaken (host : Host) (schedule : List (String × SessionCall)) (start : Workspace)
    (name uri : String) : Prop :=
  ∃ found, PatchedFirst host schedule start name uri found ∧
    ((run host schedule start).2.repository.get? uri).map (·.version) ≠ some found.version

section Track

variable {host : Host} {schedule : List (String × SessionCall)} {start w : Workspace}
  {trace : List Performed} {name uri : String} {c : SessionCall} {found : Stored}

/-- A first patch is the last call of a schedule, or is among the calls before. -/
theorem patchedFirst_concat (actor : String) :
    PatchedFirst host (schedule ++ [(actor, c)]) start name uri found ↔
      PatchedFirst host schedule start name uri found ∨
        actor = name ∧ ∃ p token, c = .patch uri p token ∧
          PatchesFirst host (run host schedule start).1 (run host schedule start).2 name uri p token
            found := by
  constructor
  · rintro ⟨earlier, p, token, later, split, first⟩
    rcases last_or_before split with ⟨rfl, same⟩ | ⟨later, rfl⟩
    · obtain ⟨rfl, rfl⟩ := Prod.mk.inj same
      exact .inr ⟨rfl, p, token, rfl, first⟩
    · exact .inl ⟨earlier, p, token, later, rfl, first⟩
  · rintro (⟨earlier, p, token, later, rfl, first⟩ | ⟨rfl, p, token, rfl, first⟩)
    · exact ⟨earlier, p, token, later ++ [(actor, c)], List.append_assoc .., first⟩
    · exact ⟨schedule, p, token, [], rfl, first⟩

/-- The session has created or patched the resource. -/
def Touched (trace : List Performed) (name uri : String) : Prop :=
  ∃ q ∈ trace, q.session = name ∧ (q.patches uri = true ∨ uri ∈ newUris q.answer)

theorem touched_concat {p : Performed} : Touched (trace ++ [p]) name uri ↔
    Touched trace name uri ∨
      p.session = name ∧ (p.patches uri = true ∨ uri ∈ newUris p.answer) := by
  simp only [Touched, List.mem_append, List.mem_singleton, or_and_right, exists_or, exists_eq_left]

theorem not_touched_iff : ¬ Touched trace name uri ↔
    ∀ q ∈ trace, q.session = name → q.patches uri = false ∧ uri ∉ newUris q.answer := by
  simp only [Touched, not_exists, not_and, not_or, Bool.not_eq_true]

theorem PatchesFirst.patches {p : Patch} {token : Token}
    (h : PatchesFirst host trace w name uri p token found) :
    (w.performed host name (.patch uri p token)).patches uri = true := by
  simp [performed, Performed.patches, Performed.succeeded, h.accepted, h.proper, Except.toBool]

/-- A call is a first patch where it patches a committed resource that the session has not
touched. -/
theorem patchesFirst_iff : (∃ p token, c = .patch uri p token ∧
      PatchesFirst host trace w name uri p token found) ↔
    (w.performed host name c).patches uri = true ∧ ¬ Touched trace name uri ∧
      w.repository.get? uri = some found := by
  constructor
  · rintro ⟨p, token, rfl, first⟩
    exact ⟨first.patches, not_touched_iff.mpr first.untouched, first.found⟩
  · rintro ⟨patches, untouched, hf⟩
    cases c with
    | patch patched p token =>
      obtain ⟨answer, r, t, hstep, performs⟩ := step_performs host name (.patch patched p token) w
      simp only [performed, Performed.patches, Performed.succeeded, hstep, Bool.and_eq_true,
        decide_eq_true_eq, Bool.not_eq_true'] at patches
      obtain ⟨⟨succeeded, rfl⟩, proper⟩ := patches
      refine ⟨p, token, rfl, not_touched_iff.mp untouched, proper, ?_, hf⟩
      rw [hstep]
      cases performs with
      | refused | failed => cases succeeded
      | unasked | patched => rfl
    | deposit | fetch | commit | rollback => cases patches

/-- What a session has patched first, it has touched. -/
theorem PatchedFirst.touched (h : PatchedFirst host schedule start name uri found) :
    Touched (run host schedule start).1 name uri := by
  obtain ⟨earlier, p, token, later, rfl, first⟩ := h
  rw [run_append]
  exact ⟨_, List.mem_append_right _ List.mem_cons_self, rfl, .inl first.patches⟩

/-! ## What a transaction notes -/

/-- The transaction of a session that is not finished stages what the session has touched, and notes
the versions that the session met at its first patches. -/
structure Tracks (host : Host) (schedule : List (String × SessionCall)) (start : Workspace)
    (name : String) (t : Transaction) : Prop where
  staged : ∀ uri, (t.staged.get? uri).isSome = true ↔
    Touched (run host schedule start).1 name uri
  noted : ∀ uri version, t.baseVersions.get? uri = some version ↔
    ∃ found, PatchedFirst host schedule start name uri found ∧ found.version = version

theorem tracks_idle (host : Host) (start : Workspace) (name : String) :
    Tracks host [] start name .idle where
  staged uri := iff_of_false (fun h => nomatch h) fun ⟨_, hq, _⟩ => nomatch hq
  noted uri version := iff_of_false (fun h => nomatch h) fun ⟨_, h, _⟩ => by
    obtain ⟨_, hq, _⟩ := h.touched
    cases hq

/-- Calls of other sessions are not tracked. -/
theorem Tracks.other {t : Transaction} {actor : String} (h : Tracks host schedule start name t)
    (other : actor ≠ name) : Tracks host (schedule ++ [(actor, c)]) start name t where
  staged uri := by
    rw [run_concat, touched_concat, h.staged]
    exact (or_iff_left fun same => other same.1).symm
  noted uri version := by
    simp only [patchedFirst_concat, other, false_and, or_false]
    exact h.noted uri version

/-- A call of the session itself is tracked, unless it finishes the session. -/
theorem Tracks.own (h : Tracks host schedule start name ((run host schedule start).2.transaction
    name)) (unfinished : (((run host schedule start).2.step host name c).2.transaction
      name).lifecycle.isFinished = false) :
    Tracks host (schedule ++ [(name, c)]) start name
      (((run host schedule start).2.step host name c).2.transaction name) := by
  obtain ⟨answer, r, t, hstep, performs⟩ := step_performs host name c (run host schedule start).2
  have went : (run host schedule start).2.performed host name c =
      ⟨name, host.freshName ((run host schedule start).2.deposits + 1), c, answer⟩ := by
    rw [performed, hstep]
  rw [hstep, transaction_after_self] at unfinished ⊢
  refine ⟨fun uri => ?_, fun uri version => ?_⟩
  · rcases performs.staged name uri with finished | staged
    · exact absurd finished (by rw [unfinished]; exact Bool.false_ne_true)
    · rw [run_concat, touched_concat, went, staged, h.staged]
      simp only [true_and]
  · rcases performs.noted name uri with finished | noted
    · exact absurd finished (by rw [unfinished]; exact Bool.false_ne_true)
    · have unstaged : ((run host schedule start).2.transaction name).staged.get? uri = none ↔
          ¬ Touched (run host schedule start).1 name uri := by
        rw [← h.staged, Option.not_isSome_iff_eq_none]
      simp only [patchedFirst_concat, true_and, patchesFirst_iff, went, ← unstaged, ← and_assoc]
      rw [noted]
      split
      case isTrue first =>
        have unpatched (found : Stored) : ¬ PatchedFirst host schedule start name uri found :=
          fun h => unstaged.mp first.2 h.touched
        simp only [first, unpatched, Option.map_eq_some_iff, true_and, false_or]
      case isFalse again =>
        simp only [again, false_and, or_false]
        exact h.noted uri version

/-- **What a transaction notes**, in terms of the schedule: as long as a session is not finished. -/
theorem tracks_run (host : Host) (start : Repository) (deposits : Nat)
    (schedule : List (String × SessionCall)) (name : String) :
    let t := (run host schedule ⟨start, Table.empty, deposits⟩).2.transaction name
    t.lifecycle.isFinished = false →
      Tracks host schedule ⟨start, Table.empty, deposits⟩ name t := by
  induction schedule using List.reverseRecOn with
  | nil => exact fun _ => tracks_idle host _ name
  | append_singleton schedule last ih =>
    obtain ⟨actor, c⟩ := last
    rw [run_concat]
    by_cases same : actor = name
    · subst same
      refine fun unfinished => Tracks.own (ih ?_) unfinished
      obtain ⟨answer, r, t, hstep, performs⟩ :=
        step_performs host actor c (run host schedule ⟨start, Table.empty, deposits⟩).2
      rw [hstep, transaction_after_self] at unfinished
      exact performs.unfinished_before unfinished
    · rw [step_eq, transaction_after, if_neg (Ne.symm same)]
      exact fun unfinished => (ih unfinished).other same

theorem Tracks.overtaken_iff {t : Transaction} (h : Tracks host schedule start name t) :
    Overtaken host schedule start name uri ↔ ∃ version, t.baseVersions.get? uri = some version ∧
      ((run host schedule start).2.repository.get? uri).map (·.version) ≠ some version := by
  simp only [h.noted]
  exact ⟨fun ⟨found, first, changed⟩ => ⟨_, ⟨found, first, rfl⟩, changed⟩,
    fun ⟨_, ⟨found, first, same⟩, changed⟩ => ⟨found, first, same ▸ changed⟩⟩

end Track

/-! ## Failures -/

section Fail

variable {host : Host} {w : Workspace} {name : String} {c : SessionCall}

/-- A call that fails leaves everything as it was, but for what `Unharmed` admits. -/
theorem unharmed_of_error {e : DepositError} (failed : (w.step host name c).1 = .error e) :
    (w.step host name c).2.repository = w.repository ∧
      (w.step host name c).2.deposits = w.deposits ∧
      (∀ other, other ≠ name →
        (w.step host name c).2.transaction other = w.transaction other) ∧
      (w.transaction name).Unharmed ((w.step host name c).2.transaction name) := by
  obtain ⟨answer, r, t, hstep, performs⟩ := step_performs host name c w
  rw [hstep] at failed ⊢
  obtain rfl : answer = .error e := failed
  obtain ⟨rfl, unharmed⟩ := performs.unharmed
  refine ⟨rfl, if_neg (fun h => nomatch h.2), fun other different => ?_, ?_⟩
  · rw [transaction_after, if_neg different]
  · rwa [transaction_after_self]

theorem rollback_of_unfinished (unfinished : (w.transaction name).lifecycle.isFinished = false) :
    (w.step host name .rollback).1 = .ok .done := by
  rw [step_eq, Transaction.perform_rollback unfinished]

end Fail

/-- **Calls that fail change nothing.** The repository and the other sessions are as before such a
call, and so is the work of the session: it may count one request more and have begun, but not if it
was finished. A commit of a session that is not finished fails exactly if a resource that the
session has patched, and not created, is no longer in the version that the session met at its first
patch, and it names such a resource; the session can still be rolled back. -/
theorem failure_harmless (host : Host) :
    (∀ (w : Workspace) name c e, (w.step host name c).1 = .error e →
      let w' := (w.step host name c).2
      w'.repository = w.repository ∧ w'.deposits = w.deposits ∧
        (∀ other, other ≠ name → w'.transaction other = w.transaction other) ∧
        (w.transaction name).Unharmed (w'.transaction name)) ∧
    ∀ (start : Repository) (deposits : Nat) (schedule : List (String × SessionCall))
        (name : String),
      let start : Workspace := ⟨start, Table.empty, deposits⟩
      let w := (run host schedule start).2
      let came := w.step host name .commit
      (w.transaction name).lifecycle.isFinished = false →
        ((∃ e, came.1 = .error e) ↔ ∃ uri, Overtaken host schedule start name uri) ∧
        ∀ e, came.1 = .error e →
          (∃ uri, e = .concurrentModification uri ∧ Overtaken host schedule start name uri) ∧
            (came.2.step host name .rollback).1 = .ok .done := by
  refine ⟨fun w name c e => unharmed_of_error, fun start deposits schedule name => ?_⟩
  intro start w came unfinished
  have tracks : Tracks host schedule start name (w.transaction name) :=
    tracks_run host _ deposits schedule name unfinished
  cases hc : (w.transaction name).conflict? w.repository with
  | some uri =>
    have failed : came = (.error (.concurrentModification uri), w.after name .commit
        (.error (.concurrentModification uri), w.repository, w.transaction name)) := by
      rw [show came = _ from step_eq .., Transaction.perform_commit_conflict unfinished hc]
    have overtaken := tracks.overtaken_iff.mpr (Transaction.noted_of_conflict hc)
    rw [failed]
    refine ⟨iff_of_true ⟨_, rfl⟩ ⟨uri, overtaken⟩, fun e same => ?_⟩
    refine ⟨⟨uri, (Except.error.inj same).symm, overtaken⟩, rollback_of_unfinished ?_⟩
    rwa [transaction_after_self]
  | none =>
    have done : came.1 = .ok .done := by
      rw [show came = _ from step_eq .., Transaction.perform_commit unfinished hc]
    rw [done]
    refine ⟨iff_of_false (fun ⟨_, same⟩ => nomatch same) ?_, fun _ same => nomatch same⟩
    rintro ⟨uri, overtaken⟩
    obtain ⟨version, noted, changed⟩ := tracks.overtaken_iff.mp overtaken
    obtain ⟨committed, found, same⟩ := Transaction.conflict?_eq_none_iff.mp hc uri version noted
    exact changed (by rw [found, Option.map_some, same])

/-- Two sessions patch the same container, and one of them commits. -/
def patchedByTwo : List (String × SessionCall) :=
  [("a", .patch "r" titled "1"), ("b", .patch "r" titled "1"), ("b", .commit)]

theorem failure_harmless_patchedByTwo :
    let w := (run .numbering patchedByTwo (new "r")).2
    let came := w.step .numbering "a" .commit
    (w.transaction "a").lifecycle.isFinished = false ∧
      came.1 = .error (.concurrentModification "r") ∧
      (w.transaction "a").Unharmed (came.2.transaction "a") ∧
      (∃ uri, Overtaken .numbering patchedByTwo (new "r") "a" uri) ∧
      (came.2.step .numbering "a" .rollback).1 = .ok .done := by
  intro w came
  have unfinished : (w.transaction "a").lifecycle.isFinished = false := by decide +kernel
  have failed : came.1 = .error (.concurrentModification "r") := by decide +kernel
  obtain ⟨harmless, commits⟩ := failure_harmless .numbering
  obtain ⟨-, -, -, unharmed⟩ := harmless w "a" .commit _ failed
  obtain ⟨fails_iff, after⟩ := commits (Repository.root "r") 0 patchedByTwo "a" unfinished
  exact ⟨unfinished, failed, unharmed, fails_iff.mp ⟨_, failed⟩, (after _ failed).2⟩

end Workspace

end LinkedDeposit
