import LinkedDeposit.Proofs.Deposit.Announcement
import LinkedDeposit.Proofs.Repository.Schedule

/-!
# Deposits that break a session's lifecycle

A session that is finished refuses every call. If it refuses a deposit, a fetch or a patch, the
deposit of the package breaks off there: the refusal is its result, the session is not rolled back
and nobody is told. If it refuses the commit, nothing is rolled back either, but the refusal is
announced like any other failure of a commit.

Results:
* `breaks_off_at_refusal`: a lifecycle that is broken before the end is found broken by the last
  call.
* `breach_passes`: what a deposit does with a broken lifecycle, for every session.
* `refused_commit_announced`: an empty package in a session that was committed before.
-/

namespace LinkedDeposit

section Work

variable {tree : List Resource} {target : String} {t : Transcript}

/-- Up to its end a deposit tells of resources and links only. -/
theorem kind_of_work_event {result : Except DepositError Report}
    (h : WorkTranscript tree target t result) :
    ∀ event ∈ t.events, event.kind = .deposit ∨ event.kind = .remap := by
  rw [(events_of_work h).events]
  intro event told
  rcases List.mem_append.mp told with told | told
  · obtain ⟨v, -, rfl⟩ := List.mem_map.mp told
    exact .inl rfl
  · obtain ⟨l, -, rfl⟩ := List.mem_map.mp told
    exact .inr rfl

/-- A work that is done was refused nothing. -/
theorem answered_of_work {report : Report} (h : WorkTranscript tree target t (.ok report)) :
    ∀ c ∈ t.calls, ∀ e, c.2 ≠ .error e := by
  obtain ⟨deposits, edits, calls, work⟩ := calls_of_work h
  rw [calls]
  exact fun c made => answered_of_firstFault work.fault made

/-- **A lifecycle that is broken before the end** is found broken by the last call, and no call
before it is refused. -/
theorem breaks_off_at_refusal {e : DepositError} (h : WorkTranscript tree target t (.error e))
    (illegal : e.isIllegalState = true) :
    ∃ before c, t.calls = before ++ [(c, .error e)] ∧ ∀ d ∈ before, ∀ e', d.2 ≠ .error e' := by
  obtain ⟨deposits, edits, calls, work⟩ := calls_of_work h
  have stops := work.stops
  have fault : firstFault [] (deposits ++ edits) = some e := work.fault
  rw [← calls] at stops fault
  rcases t.calls.eq_nil_or_concat with none | ⟨before, ⟨c, answer⟩, last⟩
  · rw [none] at fault
    cases fault
  · rw [List.concat_eq_append] at last
    rw [last, List.dropLast_concat] at stops
    rw [last, firstFault_append, stops, Option.none_or, firstFault, firstFault,
      Option.or_none] at fault
    obtain rfl : answer = .error e := answer_of_callFault fault illegal
    exact ⟨before, c, last, fun d made => answered_of_firstFault stops made⟩

end Work

/-- **What a deposit does with a broken lifecycle.** For every session, of any state and with any
answers: if a deposit reports that the lifecycle was broken, then this is what the session answered
to the last call, and it refused no call before that one. No success is announced and nothing is
rolled back. If the last call is no commit, no failure is announced either; if it is the commit, its
refusal is announced once. -/
theorem breach_passes {σ : Type} (s : Session (StateM σ)) (notify : Event → StateM σ Unit)
    (tree : List Resource) (target : String) (x : σ) :
    let noted := ((depositTree s.noted (noteEvent notify) tree target).run []).run x
    let calls := Transcript.calls noted.1.2
    let events := Transcript.events noted.1.2
    (depositTree s notify tree target).run x = (noted.1.1, noted.2) ∧
      ∀ e, noted.1.1 = .error e → e.isIllegalState = true →
        ∃ before c, calls = before ++ [(c, .error e)] ∧
          (∀ d ∈ before, ∀ e', d.2 ≠ .error e') ∧
          (∀ d ∈ calls, d.1.kind ≠ .rollback) ∧
          (∀ event ∈ events, event.kind ≠ .success) ∧
          events.filter (·.kind = .error) =
            if c.kind = .commit then [Event.error e.message] else [] := by
  have follows : Notes s notify (ExceptT.mk (depositTree s.noted (noteEvent notify) tree target))
      (ExceptT.mk (depositTree s notify tree target)) (DepositTranscript tree target) :=
    notes_depositTree tree target
  obtain ⟨t, result, y, hn, hp, -, worked, work, finish, rfl, hwork, hfinish⟩ := follows [] x
  have hn : ((depositTree s.noted (noteEvent notify) tree target).run []).run x =
    ((result, work ++ finish), y) := hn
  have told := kind_of_work_event hwork
  have unsuccessful : ∀ event ∈ work.events, event.kind ≠ .success := by
    intro event h
    rcases told event h with kind | kind <;> simp [kind]
  have quiet : work.events.filter (·.kind = .error) = [] := by
    refine List.filter_eq_nil_iff.mpr fun event h => ?_
    rcases told event h with kind | kind <;> simp [kind]
  simp only [hn, Transcript.calls_append, Transcript.events_append, List.filter_append, quiet,
    List.nil_append, List.forall_mem_append]
  refine ⟨hp, fun e reported illegal => ?_⟩
  cases hfinish with
  | committed report => cases reported
  | rolledBack e' legal =>
    cases reported
    rw [legal] at illegal
    cases illegal
  | refused report e' =>
    -- the work is done, and the commit is the last call
    cases reported
    refine ⟨work.calls, .commit, rfl, answered_of_work hwork,
      ⟨fun d made => (unfinished_of_work hwork d made).2, ?_⟩, ⟨unsuccessful, ?_⟩, rfl⟩
    · simp [SessionCall.kind]
    · simp [Event.error]
  | broken =>
    -- the work breaks off, and nothing follows it
    cases reported
    obtain ⟨before, c, last, through⟩ := breaks_off_at_refusal hwork illegal
    have working : c.kind ≠ .commit :=
      (unfinished_of_work hwork (c, .error e) (by simp [last])).1
    refine ⟨before, c, by simp [last], through,
      ⟨fun d made => (unfinished_of_work hwork d made).2, by simp⟩, ⟨unsuccessful, by simp⟩, ?_⟩
    rw [if_neg working]
    rfl

/-- A repository in memory on which one session, named "a", was committed. -/
def Workspace.afterCommit : Workspace := ((Workspace.new "r").step .numbering "a" .commit).2

theorem breach_passes_finished :
    let s := Workspace.session .numbering "a"
    let tree := [Resource.rdfSource "x" Graph.empty]
    let noted := ((depositTree s.noted (noteEvent fun _ => pure ()) tree "r").run []).run .afterCommit
    let breach : DepositError := .illegalState "deposit" "committed"
    noted.1.1 = .error breach ∧ breach.isIllegalState = true ∧
      ∃ before c, Transcript.calls noted.1.2 = before ++ [(c, .error breach)] ∧
        (∀ d ∈ Transcript.calls noted.1.2, d.1.kind ≠ .rollback) ∧
        (Transcript.events noted.1.2).filter (·.kind = .error) =
          if c.kind = .commit then [Event.error breach.message] else [] := by
  intro s tree noted breach
  have reported : noted.1.1 = .error breach := by decide +kernel
  obtain ⟨before, c, last, -, kept, -, told⟩ :=
    (breach_passes s (fun _ => pure ()) tree "r" .afterCommit).2 breach reported rfl
  exact ⟨reported, rfl, before, c, last, kept, told⟩

/-- **A refused commit is announced**, though it is the lifecycle that is broken. -/
theorem refused_commit_announced :
    let s := Workspace.session .numbering "a"
    let noted := ((depositTree s.noted (noteEvent fun _ => pure ()) [] "r").run []).run .afterCommit
    let breach : DepositError := .illegalState "commit" "committed"
    noted.1.1 = .error breach ∧ breach.isIllegalState = true ∧
      Transcript.events noted.1.2 = [Event.error breach.message] := by
  decide +kernel

end LinkedDeposit
