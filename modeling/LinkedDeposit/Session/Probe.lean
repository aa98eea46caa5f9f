import LinkedDeposit.Event
import LinkedDeposit.Session.Call

/-!
# Watching a session

`Session.probed` puts a probe around a session. The probe notes every call before it is made, in one
journal with the events of the deposit, and can be told to go wrong at chosen calls (`Fault`): to
fail without making the call, or to alter its answer.
-/

namespace LinkedDeposit

/-- What a probe makes of a call. -/
inductive FaultEffect where
  /-- Fails without making the call. -/
  | fail (e : DepositError)
  | dropDescription
  | replaceUri (uri : String)
  | replaceToken (token : Token)
  | replaceGraph (g : Graph)
  deriving DecidableEq, Inhabited

/-- An effect on the call that has a number among the calls of its kind, counted from one. -/
structure Fault where
  kind : CallKind
  number : Nat
  effect : FaultEffect
  deriving DecidableEq, Inhabited

/-- A line of a journal. -/
inductive JournalEntry where
  | call (c : SessionCall)
  | event (e : Event)
  deriving Inhabited

/-- What happened, in order. -/
abbrev Journal := List JournalEntry

namespace Journal

def calls (j : Journal) : List SessionCall :=
  j.filterMap fun
    | .call c => some c
    | .event _ => none

def events (j : Journal) : List Event :=
  j.filterMap fun
    | .event e => some e
    | .call _ => none

/-- The number of calls of a kind. -/
def callCount (j : Journal) (kind : CallKind) : Nat := ((calls j).filter (·.kind = kind)).length

variable {m : Type → Type} [Monad m]

/-- Notes an event. -/
def notify (e : Event) : StateT Journal m Unit := modify (· ++ [.event e])

end Journal

namespace FaultEffect

/-- Alters what a deposit answers. -/
def onDeposited (d : Deposited) : FaultEffect → Deposited
  | dropDescription => { d with description := none }
  | replaceUri uri => { d with uri }
  | _ => d

/-- Alters what a fetch answers. -/
def onFetched (answer : Graph × Token) : FaultEffect → Graph × Token
  | replaceToken token => (answer.1, token)
  | replaceGraph g => (g, answer.2)
  | _ => answer

end FaultEffect

variable {m : Type → Type} [Monad m]

/-- Notes a call and makes it, or does what the first fault for it says. -/
def probeCall {α : Type} (faults : List Fault) (c : SessionCall) (alter : α → FaultEffect → α)
    (make : ExceptT DepositError m α) : ExceptT DepositError (StateT Journal m) α := do
  let journal ← getModify (· ++ [.call c])
  let number := Journal.callCount journal c.kind + 1
  let made : StateT Journal m (Except DepositError α) := liftM make.run
  match faults.find? fun f => f.kind = c.kind && f.number = number with
  | some ⟨_, _, .fail e⟩ => throw e
  | some ⟨_, _, effect⟩ => return alter (← ExceptT.mk made) effect
  | none => ExceptT.mk made

/-- A session with a probe around it. -/
def Session.probed (s : Session m) (faults : List Fault) : Session (StateT Journal m) where
  deposit r parent :=
    probeCall faults (.deposit r parent) (fun d f => f.onDeposited d) (s.deposit r parent)
  fetch uri := probeCall faults (.fetch uri) (fun a f => f.onFetched a) (s.fetch uri)
  patch uri p token := probeCall faults (.patch uri p token) (fun a _ => a) (s.patch uri p token)
  commit := probeCall faults .commit (fun a _ => a) s.commit
  rollback := probeCall faults .rollback (fun a _ => a) s.rollback

end LinkedDeposit
