import LinkedDeposit.Error

/-!
# The lifecycle of a session

A session is idle until its first operation and active until it is committed or rolled back. After
that it takes no operation and is not finished again.
-/

namespace LinkedDeposit

inductive Lifecycle where
  | idle
  | active
  | committed
  | rolledBack
  deriving DecidableEq, Repr, Inhabited

namespace Lifecycle

/-- The name of a state in messages. -/
def name : Lifecycle → String
  | idle => "idle"
  | active => "active"
  | committed => "committed"
  | rolledBack => "rolled back"

def isFinished : Lifecycle → Bool
  | committed | rolledBack => true
  | idle | active => false

/-- Refuses what a finished session is asked for. -/
def checkOpen (s : Lifecycle) (operation : String) : Except DepositError Unit :=
  if s.isFinished then .error (.illegalState operation s.name) else .ok ()

/-- Begins an operation. -/
def enter (s : Lifecycle) (operation : String) : Except DepositError Lifecycle := do
  s.checkOpen operation
  return active

/-- The state after a commit or a rollback. -/
def finished (isCommit : Bool) : Lifecycle := if isCommit then committed else rolledBack

theorem checkOpen_eq_ok_iff {s : Lifecycle} {operation : String} :
    s.checkOpen operation = .ok () ↔ s.isFinished = false := by
  cases s <;> simp [checkOpen, isFinished]

end Lifecycle

end LinkedDeposit
