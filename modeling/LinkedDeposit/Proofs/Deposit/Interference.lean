import LinkedDeposit.Proofs.Deposit.InMemory
import LinkedDeposit.Session.Probe

/-!
# Sessions that are interfered with

Something stands between a session and its caller. At every call it decides, from all that went
before, whether the call fails without reaching the session, and otherwise what becomes of the
answer on its way back (`Interference`). `Session.disturbed` is the session as its caller has it
then; it keeps a list of what really happened (`Dealing`).

Results:
* `answers_of_disturbed`: what a caller hears comes about by dealings, and the session answers those
  that reach it.
* `answer_probed`: the faults of a probe are an interference.
-/

namespace LinkedDeposit

/-- What becomes of one call between a session and its caller. -/
structure Interference where
  /-- The call fails with this and does not reach the session. -/
  fault : Option DepositError
  onDeposited : Deposited → Deposited
  onFetched : Graph × Token → Graph × Token

/-- One call of a caller, with what really happened. -/
inductive Dealing where
  /-- The call did not reach the session. -/
  | stopped (c : SessionCall) (e : DepositError)
  /-- The session refused the call. -/
  | refused (c : SessionCall) (e : DepositError)
  /-- The session answered, and the caller was told something. -/
  | answered (c : SessionCall) (real told : SessionAnswer)

namespace Dealing

def call : Dealing → SessionCall
  | stopped c _ => c
  | refused c _ => c
  | answered c _ _ => c

/-- The call as its caller knows it. -/
def heard : Dealing → Answered
  | stopped c e => (c, .error e)
  | refused c e => (c, .error e)
  | answered c _ told => (c, .ok told)

/-- What there was of the call at the session. -/
def reached : Dealing → List Answered
  | stopped .. => []
  | refused c e => [(c, .error e)]
  | answered c real _ => [(c, .ok real)]

/-- The URIs that the session gave out. -/
def given : Dealing → List String
  | answered _ (.deposited d) _ => d.uris
  | _ => []

theorem fst_heard (d : Dealing) : d.heard.1 = d.call := by cases d <;> rfl

/-- Only the call itself can have reached the session; if it went well, so it did for the caller. -/
theorem mem_reached {d : Dealing} {c : Answered} (h : c ∈ d.reached) :
    c.1 = d.call ∧ ∀ a, c.2 = .ok a → ∃ told, d.heard.2 = .ok told := by
  cases d with
  | stopped => cases h
  | refused c' e =>
    obtain rfl := List.mem_singleton.mp h
    exact ⟨rfl, fun a ha => by cases ha⟩
  | answered c' real told =>
    obtain rfl := List.mem_singleton.mp h
    exact ⟨rfl, fun _ _ => ⟨told, rfl⟩⟩

end Dealing

section Disturbed

variable {σ α : Type}

/-- Makes a call unless it is stopped, and alters what it comes to. -/
def disturb (meddle : List Dealing → SessionCall → Interference) (c : SessionCall)
    (shown : α → SessionAnswer) (alter : Interference → α → α)
    (make : ExceptT DepositError (StateM σ) α) :
    ExceptT DepositError (StateM (σ × List Dealing)) α :=
  ExceptT.mk fun (x, past) =>
    let i := meddle past c
    match i.fault with
    | some e => (.error e, x, past ++ [.stopped c e])
    | none =>
      match make.run.run x with
      | (.error e, y) => (.error e, y, past ++ [.refused c e])
      | (.ok a, y) => (.ok (alter i a), y, past ++ [.answered c (shown a) (shown (alter i a))])

/-- A session with something between it and its caller. -/
def Session.disturbed (meddle : List Dealing → SessionCall → Interference)
    (s : Session (StateM σ)) : Session (StateM (σ × List Dealing)) where
  deposit r parent :=
    disturb meddle (.deposit r parent) .deposited (·.onDeposited) (s.deposit r parent)
  fetch uri :=
    disturb meddle (.fetch uri) (fun a => .fetched a.1 a.2) (·.onFetched) (s.fetch uri)
  patch uri p token :=
    disturb meddle (.patch uri p token) (fun _ => .done) (fun _ a => a) (s.patch uri p token)
  commit := disturb meddle .commit (fun _ => .done) (fun _ a => a) s.commit
  rollback := disturb meddle .rollback (fun _ => .done) (fun _ a => a) s.rollback

variable {meddle : List Dealing → SessionCall → Interference} {s : Session (StateM σ)}

section Run

variable {c : SessionCall} {shown : α → SessionAnswer} {alter : Interference → α → α}
  {make : ExceptT DepositError (StateM σ) α} {past : List Dealing} {x y : σ}

/-- A call that is stopped. -/
theorem run_disturb_of_fault {e : DepositError} (fault : (meddle past c).fault = some e) :
    (disturb meddle c shown alter make).run.run (x, past) =
      (.error e, x, past ++ [.stopped c e]) := by
  simp only [disturb, ExceptT.run_mk, StateT.run, fault]

/-- A call that the session refuses. -/
theorem run_disturb_of_error {e : DepositError} (free : (meddle past c).fault = none)
    (made : make.run.run x = (.error e, y)) :
    (disturb meddle c shown alter make).run.run (x, past) =
      (.error e, y, past ++ [.refused c e]) := by
  simp only [StateT.run] at made
  simp only [disturb, ExceptT.run_mk, StateT.run, free, made]

/-- A call that the session answers. -/
theorem run_disturb_of_ok {a : α} (free : (meddle past c).fault = none)
    (made : make.run.run x = (.ok a, y)) :
    (disturb meddle c shown alter make).run.run (x, past) =
      (.ok (alter (meddle past c) a), y,
        past ++ [.answered c (shown a) (shown (alter (meddle past c) a))]) := by
  simp only [StateT.run] at made
  simp only [disturb, ExceptT.run_mk, StateT.run, free, made]

/-- What comes of a call that is not stopped. -/
theorem exists_run_disturb_of_free (free : (meddle past c).fault = none) : ∃ ds,
    (disturb meddle c shown alter make).run.run (x, past) =
      ((make.run.run x).1.map (alter (meddle past c)), (make.run.run x).2, ds) := by
  rcases made : make.run.run x with ⟨e | a, y⟩
  · exact ⟨_, run_disturb_of_error free made⟩
  · exact ⟨_, run_disturb_of_ok free made⟩

end Run

/-- An operation that is interfered with comes to one dealing. -/
theorem run_disturb (c : SessionCall) (shown : α → SessionAnswer) (alter : Interference → α → α)
    (make : ExceptT DepositError (StateM σ) α) (shows : s.answer c = shown <$> make) (x : σ)
    (past : List Dealing) : ∃ d y,
      (shown <$> disturb meddle c shown alter make).run.run (x, past) =
        (d.heard.2, y, past ++ [d]) ∧ d.call = c ∧ Answers s x d.reached y := by
  have answer : (s.answer c).run x = ((make.run.run x).1.map shown, (make.run.run x).2) := by
    rw [shows]
    exact run_shown shown make x
  cases fault : (meddle past c).fault with
  | some e =>
    refine ⟨.stopped c e, x, ?_, rfl, rfl⟩
    rw [run_shown, run_disturb_of_fault fault]
    rfl
  | none =>
    rcases made : make.run.run x with ⟨e | a, y⟩
    · refine ⟨.refused c e, y, ?_, rfl, ?_⟩
      · rw [run_shown, run_disturb_of_error fault made]
        rfl
      · rw [made] at answer
        exact ⟨congrArg Prod.fst answer, congrArg Prod.snd answer⟩
    · refine ⟨.answered c (shown a) (shown (alter (meddle past c) a)), y, ?_, rfl, ?_⟩
      · rw [run_shown, run_disturb_of_ok fault made]
        rfl
      · rw [made] at answer
        exact ⟨congrArg Prod.fst answer, congrArg Prod.snd answer⟩

variable (meddle s) in
/-- **A call that is interfered with comes to one dealing.** -/
theorem answer_disturbed (c : SessionCall) (x : σ) (past : List Dealing) : ∃ d y,
    ((s.disturbed meddle).answer c).run (x, past) = (d.heard.2, y, past ++ [d]) ∧ d.call = c ∧
      Answers s x d.reached y := by
  cases c with
  | deposit r parent =>
    exact run_disturb (.deposit r parent) .deposited (·.onDeposited) (s.deposit r parent) rfl x past
  | fetch uri =>
    exact run_disturb (.fetch uri) (fun a => .fetched a.1 a.2) (·.onFetched) (s.fetch uri) rfl x
      past
  | patch uri p token =>
    exact run_disturb (.patch uri p token) (fun _ => .done) (fun _ a => a) (s.patch uri p token)
      rfl x past
  | commit => exact run_disturb .commit (fun _ => .done) (fun _ a => a) s.commit rfl x past
  | rollback => exact run_disturb .rollback (fun _ => .done) (fun _ a => a) s.rollback rfl x past

/-- **What a caller hears comes about by dealings**, and the session answers those that reach it. -/
theorem answers_of_disturbed {cs : List Answered} {x y : σ × List Dealing}
    (h : Answers (s.disturbed meddle) x cs y) : ∃ ds, y.2 = x.2 ++ ds ∧
      ds.map Dealing.heard = cs ∧ Answers s x.1 (ds.flatMap Dealing.reached) y.1 := by
  induction cs generalizing x with
  | nil =>
    obtain rfl : x = y := h
    exact ⟨[], (List.append_nil _).symm, rfl, rfl⟩
  | cons c cs ih =>
    obtain ⟨c, answer⟩ := c
    obtain ⟨heard, rest⟩ := h
    obtain ⟨d, z, run, rfl, reached⟩ := answer_disturbed meddle s c x.1 x.2
    change ((s.disturbed meddle).answer d.call).run x = _ at run
    rw [run] at heard rest
    obtain ⟨ds, past, rfl, answers⟩ := ih rest
    refine ⟨d :: ds, ?_, ?_, ?_⟩
    · rw [past, List.append_assoc]
      rfl
    · rw [List.map_cons, ← heard, ← d.fst_heard]
    · exact answers_append.mpr ⟨z, reached, answers⟩

/-! ## Probes -/

/-- The call is left alone. -/
def Interference.none : Interference := ⟨.none, id, id⟩

/-- How a call fails under an effect of a fault. -/
def FaultEffect.error? : FaultEffect → Option DepositError
  | .fail e => some e
  | _ => .none

def FaultEffect.interference (effect : FaultEffect) : Interference :=
  ⟨effect.error?, (effect.onDeposited ·), (effect.onFetched ·)⟩

/-- What a probe does to a call: what the first fault for it says. -/
def probing (faults : List Fault) (past : List Dealing) (c : SessionCall) : Interference :=
  let number := (past.filter (·.call.kind = c.kind)).length + 1
  ((faults.find? fun f => f.kind = c.kind && f.number = number).map (·.effect.interference)).getD
    .none

theorem callCount_eq {journal : Journal} {past : List Dealing}
    (same : journal.calls = past.map Dealing.call) (kind : CallKind) :
    journal.callCount kind = (past.filter (·.call.kind = kind)).length := by
  rw [Journal.callCount, same, List.filter_map, List.length_map]
  rfl

section Probe

variable {faults : List Fault} {journal : Journal} {c : SessionCall} {alter : α → FaultEffect → α}
  {make : ExceptT DepositError (StateM σ) α}

/-- The fault that a probe finds for the next call. -/
def Fault.next? (faults : List Fault) (journal : Journal) (c : SessionCall) : Option Fault :=
  faults.find? fun f => f.kind = c.kind && f.number = journal.callCount c.kind + 1

theorem probing_eq {past : List Dealing} (same : journal.calls = past.map Dealing.call) :
    probing faults past c =
      ((Fault.next? faults journal c).map (·.effect.interference)).getD .none := by
  rw [Fault.next?, callCount_eq same]
  rfl

/-- A probe notes the call first. -/
theorem run_getModify (x : σ) :
    ((getModify (· ++ [.call c]) : ExceptT DepositError (StateT Journal (StateM σ))
      Journal).run.run journal).run x = ((.ok journal, journal ++ [.call c]), x) :=
  rfl

/-- An answer that is altered on its way back. -/
theorem run_altered (journal : Journal) (effect : FaultEffect) (x : σ) :
    (((return alter (← ExceptT.mk (liftM make.run)) effect :
      ExceptT DepositError (StateT Journal (StateM σ)) α).run.run journal).run x) =
        (((make.run.run x).1.map (alter · effect), journal), (make.run.run x).2) := by
  have lifted : ((ExceptT.mk (liftM make.run) :
      ExceptT DepositError (StateT Journal (StateM σ)) α).run.run journal).run x =
        (((make.run.run x).1, journal), (make.run.run x).2) := rfl
  rw [ExceptT.run_bind, StateT.run_bind, StateT.run_bind, lifted]
  rcases make.run.run x with ⟨e | a, y⟩ <;> rfl

/-- What comes of a call through a probe. -/
theorem run_probeCall_eq (x : σ) :
    ((probeCall faults c alter make).run.run journal).run x =
      let made := make.run.run x
      match Fault.next? faults journal c with
      | none => ((made.1, journal ++ [.call c]), made.2)
      | some f =>
        match f.effect.error? with
        | some e => ((.error e, journal ++ [.call c]), x)
        | none => ((made.1.map (alter · f.effect), journal ++ [.call c]), made.2) := by
  unfold probeCall
  rw [ExceptT.run_bind, StateT.run_bind, StateT.run_bind, run_getModify]
  dsimp only [bind]
  cases found : Fault.next? faults journal c with
  | none =>
    unfold Fault.next? at found
    simp only [found]
    rfl
  | some f =>
    unfold Fault.next? at found
    obtain ⟨kind, number, effect⟩ := f
    simp only [found]
    cases effect with
    | fail e => rfl
    | _ => exact run_altered _ _ x

end Probe

/-- A call through a probe comes to the same as one that is interfered with. -/
theorem run_probeCall {faults : List Fault} {journal : Journal} {past : List Dealing}
    (same : journal.calls = past.map Dealing.call) (c : SessionCall) (shown : α → SessionAnswer)
    (alter : Interference → α → α) (alter' : α → FaultEffect → α)
    (make : ExceptT DepositError (StateM σ) α) (unaltered : ∀ a, alter .none a = a)
    (altered : ∀ effect a, alter effect.interference a = alter' a effect) (x : σ) :
    ((shown <$> probeCall faults c alter' make).run.run journal).run x =
      let made := (shown <$> disturb (probing faults) c shown alter make).run.run (x, past)
      ((made.1, journal ++ [.call c]), made.2.1) := by
  have probed : ((shown <$> probeCall faults c alter' make).run.run journal).run x =
      let out := ((probeCall faults c alter' make).run.run journal).run x
      ((out.1.1.map shown, out.1.2), out.2) := by
    rw [ExceptT.run_map]
    rfl
  rw [probed, run_shown]
  have does : probing faults past c = _ := probing_eq same
  cases found : Fault.next? faults journal c with
  | none =>
    have alone : probing faults past c = .none := by rw [does, found]; rfl
    obtain ⟨ds, run⟩ := exists_run_disturb_of_free (congrArg Interference.fault alone)
    have kept : (make.run.run x).1.map (alter .none) = (make.run.run x).1 := by
      rw [funext (g := id) unaltered, Except.map_id]
      rfl
    rw [run_probeCall_eq, found, run, alone, kept]
  | some f =>
    have held : probing faults past c = f.effect.interference := by rw [does, found]; rfl
    have fault : (probing faults past c).fault = f.effect.error? :=
      congrArg Interference.fault held
    cases effect : f.effect.error? with
    | some e =>
      rw [run_probeCall_eq, found, run_disturb_of_fault (fault.trans effect)]
      simp only [effect]
    | none =>
      obtain ⟨ds, run⟩ := exists_run_disturb_of_free (fault.trans effect)
      rw [run_probeCall_eq, found, run, held, funext (altered f.effect)]
      simp only [effect]

/-- **The faults of a probe are an interference.** After the same calls, a call through the probe
comes to the same. -/
theorem answer_probed (faults : List Fault) {journal : Journal} {past : List Dealing}
    (same : journal.calls = past.map Dealing.call) (c : SessionCall) (x : σ) :
    (((s.probed faults).answer c).run.run journal).run x =
      let made := ((s.disturbed (probing faults)).answer c).run (x, past)
      ((made.1, journal ++ [.call c]), made.2.1) := by
  cases c with
  | deposit r parent =>
    exact run_probeCall same (.deposit r parent) .deposited (·.onDeposited)
      (fun d f => f.onDeposited d) (s.deposit r parent) (fun _ => rfl) (fun _ _ => rfl) x
  | fetch uri =>
    exact run_probeCall same (.fetch uri) (fun a => .fetched a.1 a.2) (·.onFetched)
      (fun a f => f.onFetched a) (s.fetch uri) (fun _ => rfl) (fun _ _ => rfl) x
  | patch uri p token =>
    exact run_probeCall same (.patch uri p token) (fun _ => .done) (fun _ a => a) (fun a _ => a)
      (s.patch uri p token) (fun _ => rfl) (fun _ _ => rfl) x
  | commit =>
    exact run_probeCall same .commit (fun _ => .done) (fun _ a => a) (fun a _ => a) s.commit
      (fun _ => rfl) (fun _ _ => rfl) x
  | rollback =>
    exact run_probeCall same .rollback (fun _ => .done) (fun _ a => a) (fun a _ => a) s.rollback
      (fun _ => rfl) (fun _ _ => rfl) x

end Disturbed

end LinkedDeposit
