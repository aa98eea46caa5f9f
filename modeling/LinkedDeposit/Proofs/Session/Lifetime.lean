import LinkedDeposit.Proofs.Repository.Schedule

/-!
# The lifetime of a session

A session lives until a call ends it: a commit that succeeds, or a rollback, also one that could not
undo everything. After that it refuses every call and is not touched by it any more, and before that
it refuses none.

How a session answers is left open here. It has a state in which its lifecycle can be found, and a
law that says what one call does to the lifecycle (`Obeys`). From the law follows what is true of
any sequence of calls (`Lives`, `EndsInert`). A session in memory obeys it, among whatever other
sessions do in between.

Results:
* `Lives.concat`: one call more.
* `lives_asked`: any sequence of calls.
* `Workspace.obeys`, `Workspace.endsInert_run`: sessions in memory.
-/

namespace LinkedDeposit

namespace SessionCall

/-- How messages name the operation. -/
def operation : SessionCall → String
  | .deposit .. => "deposit"
  | .fetch _ => "fetch graph"
  | .patch .. => "apply patch"
  | .commit => "commit"
  | .rollback => "rollback"

end SessionCall

/-- Whether a session refused a call because it had ended. -/
def isRefusal : Except DepositError SessionAnswer → Bool
  | .ok _ => false
  | .error e => e.isIllegalState

/-- Whether a call that went like this ended its session. A commit has to succeed for this; a
rollback has to be accepted, whatever then becomes of it. -/
def SessionCall.ends (c : SessionCall) (answer : Except DepositError SessionAnswer) : Bool :=
  match c with
  | .commit => answer.toBool
  | .rollback => !isRefusal answer
  | _ => false

/-- The calls that were made to a session, and how they went. -/
abbrev History := List (SessionCall × Except DepositError SessionAnswer)

/-- Whether one of the calls has ended the session. -/
def History.ended (history : History) : Bool := history.any fun p => p.1.ends p.2

theorem History.ended_concat (history : History) (c : SessionCall)
    (answer : Except DepositError SessionAnswer) :
    History.ended (history ++ [(c, answer)]) = (history.ended || c.ends answer) := by
  simp [ended]

/-- What was refused has ended nothing. -/
theorem SessionCall.ends_of_isRefusal {c : SessionCall}
    {answer : Except DepositError SessionAnswer} (h : isRefusal answer = true) :
    c.ends answer = false := by
  cases answer with
  | ok a => cases h
  | error e => cases c <;> simp [ends, h, Except.toBool]

/-! ## The law of one call -/

section Law

variable {ρ : Type} {lifecycle : ρ → Lifecycle}
  {ask : SessionCall → ρ → Except DepositError SessionAnswer × ρ} {history : History} {x : ρ}

/-- What a call does to the lifecycle of a session: a finished one refuses it and stays what it is,
and another one does not refuse it and is then finished if the call ended it. -/
structure Obeys (lifecycle : ρ → Lifecycle)
    (ask : SessionCall → ρ → Except DepositError SessionAnswer × ρ) : Prop where
  refuses : ∀ c x, (lifecycle x).isFinished = true →
    ask c x = (.error (.illegalState c.operation (lifecycle x).name), x)
  accepts : ∀ c x, (lifecycle x).isFinished = false → isRefusal (ask c x).1 = false ∧
    (lifecycle (ask c x).2).isFinished = c.ends (ask c x).1

theorem Obeys.isRefusal_eq (h : Obeys lifecycle ask) (c : SessionCall) (x : ρ) :
    isRefusal (ask c x).1 = (lifecycle x).isFinished := by
  cases hf : (lifecycle x).isFinished with
  | true =>
    rw [h.refuses c x hf]
    rfl
  | false => exact (h.accepts c x hf).1

theorem Obeys.isFinished_eq (h : Obeys lifecycle ask) (c : SessionCall) (x : ρ) :
    (lifecycle (ask c x).2).isFinished = ((lifecycle x).isFinished || c.ends (ask c x).1) := by
  cases hf : (lifecycle x).isFinished with
  | true => rw [h.refuses c x hf, hf, Bool.true_or]
  | false => rw [(h.accepts c x hf).2, Bool.false_or]

/-! ## Any number of calls -/

/-- A session with a history: it is finished if a call has ended it. -/
structure Lives (history : History) (s : Lifecycle) : Prop where
  /-- At most one commit or rollback took effect. -/
  once : (history.filter fun p => p.1.ends p.2).length ≤ 1
  /-- A call was refused if one before it had ended the session, and only then. -/
  refused : ∀ earlier p later, history = earlier ++ p :: later →
    isRefusal p.2 = History.ended earlier
  finished : s.isFinished = history.ended

theorem lives_nil {s : Lifecycle} (unfinished : s.isFinished = false) : Lives [] s where
  once := Nat.zero_le 1
  refused earlier _ _ split := by simp at split
  finished := unfinished

/-- **One call more.** -/
theorem Lives.concat {s t : Lifecycle} {c : SessionCall}
    {answer : Except DepositError SessionAnswer} (h : Lives history s)
    (refused : isRefusal answer = s.isFinished)
    (finished : t.isFinished = (s.isFinished || c.ends answer)) :
    Lives (history ++ [(c, answer)]) t where
  once := by
    rw [List.filter_append, List.length_append]
    cases ended : history.ended with
    | true =>
      have refusal : isRefusal answer = true := by rw [refused, h.finished, ended]
      have none : [(c, answer)].filter (fun p => p.1.ends p.2) = [] := by
        simp [SessionCall.ends_of_isRefusal refusal]
      rw [none]
      exact h.once
    | false =>
      have none : history.filter (fun p => p.1.ends p.2) = [] :=
        List.filter_eq_nil_iff.mpr fun p hp => by
          simpa using List.any_eq_false.mp ended p hp
      rw [none, List.length_nil, Nat.zero_add]
      exact List.length_filter_le _ _
  refused earlier p later split := by
    rcases last_or_before split with ⟨rfl, rfl⟩ | ⟨later, rfl⟩
    · rw [refused, h.finished]
    · exact h.refused earlier p later rfl
  finished := by rw [finished, h.finished, History.ended_concat]

/-- A session that lives by the law, with what the law says of its next call: once it has ended, the
call is refused and changes nothing, and a commit that fails does not end it. -/
structure EndsInert (lifecycle : ρ → Lifecycle)
    (ask : SessionCall → ρ → Except DepositError SessionAnswer × ρ) (history : History) (x : ρ) :
    Prop extends Lives history (lifecycle x) where
  inert : history.ended = true → ∀ c,
    ask c x = (.error (.illegalState c.operation (lifecycle x).name), x)
  commit : ∀ e, (ask .commit x).1 = .error e →
    (lifecycle (ask .commit x).2).isFinished = (lifecycle x).isFinished

theorem Obeys.endsInert (h : Obeys lifecycle ask) (lives : Lives history (lifecycle x)) :
    EndsInert lifecycle ask history x where
  toLives := lives
  inert ended c := h.refuses c x (lives.finished.trans ended)
  commit e failed := by
    rw [h.isFinished_eq, failed]
    exact Bool.or_false _

/-- Makes calls, one after the other. -/
def asked (ask : SessionCall → ρ → Except DepositError SessionAnswer × ρ) :
    List SessionCall → ρ → History × ρ
  | [], x => ([], x)
  | c :: rest, x =>
    let (history, y) := asked ask rest (ask c x).2
    ((c, (ask c x).1) :: history, y)

/-- **Any sequence of calls.** -/
theorem lives_asked (h : Obeys lifecycle ask) (lives : Lives history (lifecycle x))
    (calls : List SessionCall) :
    Lives (history ++ (asked ask calls x).1) (lifecycle (asked ask calls x).2) := by
  induction calls generalizing history x with
  | nil =>
    rw [asked, List.append_nil]
    exact lives
  | cons c rest ih =>
    have next := ih (lives.concat (h.isRefusal_eq c x) (h.isFinished_eq c x))
    rwa [List.append_assoc] at next

end Law

/-! ## Sessions in memory -/

theorem Resource.isIllegalState_of_stored {files : Files} {uri : String} {r : Resource}
    {e : DepositError} (h : r.stored files uri = .error e) : e.isIllegalState = false := by
  cases r with
  | container | rdfSource => cases h
  | binary id b description =>
    simp only [stored] at h
    cases read : b.content.read files with
    | error e' =>
      rw [read] at h
      exact Except.error.inj h ▸ Content.isIllegalState_of_read read
    | ok bytes =>
      rw [read] at h
      cases description <;> cases h

namespace Transaction

section Perform

variable {files : Files} {name : String} {r : Repository} {t : Transaction}

theorem perform_of_finished (h : t.lifecycle.isFinished = true) (c : SessionCall) :
    t.perform files name r c = (.error (.illegalState c.operation t.lifecycle.name), r, t) := by
  have shut := checkOpen_of_finished h
  cases c <;> simp only [perform, deposit, fetch, patch, commit, rollback, shut, Except.map,
    SessionCall.operation]

theorem lifecycle_noteBase (uri : String) (version : Nat) (t : Transaction) :
    (t.noteBase uri version).lifecycle = t.lifecycle := by
  unfold noteBase
  split <;> rfl

/-- A transaction that is not finished refuses nothing, and is finished after what ends it. -/
theorem perform_accepts (unfinished : t.lifecycle.isFinished = false) (c : SessionCall) :
    isRefusal (t.perform files name r c).1 = false ∧
      (t.perform files name r c).2.2.lifecycle.isFinished =
        c.ends (t.perform files name r c).1 := by
  have free := checkOpen_of_unfinished unfinished
  cases c with
  | deposit resource parent =>
    simp only [perform, deposit, free, stage_eq]
    split
    · exact ⟨rfl, rfl⟩
    · cases hs : resource.stored files (childUri parent name) with
      | error e => exact ⟨Resource.isIllegalState_of_stored hs, rfl⟩
      | ok new => exact ⟨rfl, rfl⟩
    · exact ⟨rfl, rfl⟩
  | fetch uri =>
    simp only [perform, fetch, free]
    split
    · exact ⟨rfl, rfl⟩
    · split <;> exact ⟨rfl, rfl⟩
  | patch uri p token =>
    simp only [perform, patch, free]
    split
    · exact ⟨rfl, rfl⟩
    · split
      · exact ⟨rfl, rfl⟩
      · split
        · exact ⟨rfl, rfl⟩
        · exact ⟨rfl, congrArg Lifecycle.isFinished (lifecycle_noteBase ..)⟩
  | commit =>
    cases hc : t.conflict? r with
    | none =>
      rw [perform_commit unfinished hc]
      exact ⟨rfl, rfl⟩
    | some uri =>
      rw [perform_commit_conflict unfinished hc]
      exact ⟨rfl, unfinished⟩
  | rollback =>
    rw [perform_rollback unfinished]
    exact ⟨rfl, rfl⟩

end Perform

end Transaction

namespace Workspace

/-- What a session keeps that is finished is there already. -/
theorem keep_transaction {w : Workspace} {name : String}
    (finished : (w.transaction name).lifecycle.isFinished = true) :
    w.keep name (w.transaction name) = w := by
  have used : w.transactions.get? name = some (w.transaction name) := by
    unfold transaction at finished ⊢
    cases h : w.transactions.get? name with
    | none =>
      rw [h] at finished
      cases finished
    | some t => rfl
  have same : w.transactions.insert name (w.transaction name) = w.transactions := by
    refine Table.ext fun other => ?_
    rw [Table.get?_insert]
    split
    case isTrue h => rw [h, used]
    case isFalse => rfl
  rw [keep, same]

/-- **A session in memory obeys the law.** -/
theorem obeys (host : Host) (name : String) :
    Obeys (fun w => (w.transaction name).lifecycle) (step host name) where
  refuses c w finished := by
    rw [step_eq, Transaction.perform_of_finished finished]
    simp only [after, keep_transaction finished, Except.toBool, Bool.false_eq_true, and_false,
      if_false]
  accepts c w unfinished := by
    rw [step_eq]
    obtain ⟨accepted, ends⟩ := Transaction.perform_accepts unfinished c
    exact ⟨accepted, by rw [transaction_after_self]; exact ends⟩

/-- The calls of one session in a trace, and how they went. -/
def historyOf (name : String) (trace : List Performed) : History :=
  (trace.filter (·.session = name)).map fun p => (p.call, p.answer)

theorem historyOf_concat (host : Host) (name actor : String) (trace : List Performed)
    (w : Workspace) (c : SessionCall) :
    historyOf name (trace ++ [w.performed host actor c]) =
      historyOf name trace ++ if actor = name then [(c, (w.step host actor c).1)] else [] := by
  unfold historyOf
  rw [List.filter_append, List.map_append]
  by_cases h : actor = name <;> simp [performed, h]

/-- **A session in memory lives by the law**, whatever other sessions do. -/
theorem endsInert_run (host : Host) (start : Repository) (deposits : Nat)
    (schedule : List (String × SessionCall)) (name : String) :
    let (trace, w) := run host schedule ⟨start, Table.empty, deposits⟩
    EndsInert (fun w => (w.transaction name).lifecycle) (step host name) (historyOf name trace)
      w := by
  refine (obeys host name).endsInert ?_
  induction schedule using List.reverseRecOn with
  | nil => exact lives_nil rfl
  | append_singleton schedule last ih =>
    obtain ⟨actor, c⟩ := last
    rw [run_concat, historyOf_concat]
    by_cases own : actor = name
    · subst own
      rw [if_pos rfl]
      exact ih.concat ((obeys host actor).isRefusal_eq c _) ((obeys host actor).isFinished_eq c _)
    · -- another session's call is none of this session's
      rw [if_neg own, List.append_nil, step_eq, transaction_after, if_neg (Ne.symm own)]
      exact ih

end Workspace

end LinkedDeposit
