import LinkedDeposit.Repository.Transaction
import LinkedDeposit.Session.Call

/-!
# Sessions on one repository

A workspace is a repository in memory with the transactions of any number of sessions on it. Each
operation belongs to one session, and only a successful commit changes the repository.

`session` gives the session of a name as operations on the workspace; `step` performs one operation
of it as a value (`SessionCall`), so that a list of such pairs is a schedule.
-/

namespace LinkedDeposit

/-- What a repository needs around it: the files that binaries are read from, and a fresh name for
each new resource. -/
structure Host where
  files : Files
  /-- The name of the resource that is created after so many others. -/
  freshName : Nat → String

/-- A repository with the transactions of its sessions. -/
structure Workspace where
  repository : Repository
  transactions : Table String Transaction
  /-- The number of resources that were deposited. -/
  deposits : Nat
  deriving Inhabited

namespace Workspace

/-- A repository that holds one empty container, without sessions. -/
def new (rootUri : String) : Workspace := ⟨Repository.root rootUri, Table.empty, 0⟩

/-- The transaction of a session; one that was not used yet is idle. -/
def transaction (w : Workspace) (name : String) : Transaction :=
  (w.transactions.get? name).getD Transaction.idle

/-- Keeps what an operation made of a session's transaction. -/
def keep (w : Workspace) (name : String) (t : Transaction) : Workspace :=
  { w with transactions := w.transactions.insert name t }

def deposit (host : Host) (name : String) (r : Resource) (parent : String) (w : Workspace) :
    Except DepositError Deposited × Workspace :=
  let (result, t) :=
    (w.transaction name).deposit host.files (host.freshName (w.deposits + 1)) w.repository r parent
  let deposits := if result.toBool then w.deposits + 1 else w.deposits
  (result, { w.keep name t with deposits })

def fetch (name uri : String) (w : Workspace) : Except DepositError (Graph × Token) × Workspace :=
  let (result, t) := (w.transaction name).fetch w.repository uri
  (result, w.keep name t)

def patch (name uri : String) (p : Patch) (token : Token) (w : Workspace) :
    Except DepositError Unit × Workspace :=
  let (result, t) := (w.transaction name).patch w.repository uri p token
  (result, w.keep name t)

def commit (name : String) (w : Workspace) : Except DepositError Unit × Workspace :=
  let (result, repository, t) := (w.transaction name).commit w.repository
  (result, { w.keep name t with repository })

def rollback (name : String) (w : Workspace) : Except DepositError Unit × Workspace :=
  let (result, t) := (w.transaction name).rollback
  (result, w.keep name t)

/-- The session of a name. -/
def session (host : Host) (name : String) : Session (StateM Workspace) where
  deposit r parent := ExceptT.mk (Workspace.deposit host name r parent)
  fetch uri := ExceptT.mk (Workspace.fetch name uri)
  patch uri p token := ExceptT.mk (Workspace.patch name uri p token)
  commit := ExceptT.mk (Workspace.commit name)
  rollback := ExceptT.mk (Workspace.rollback name)

/-- Performs one call of the session of a name. -/
def step (host : Host) (name : String) (c : SessionCall) (w : Workspace) :
    Except DepositError SessionAnswer × Workspace :=
  ((session host name).answer c).run w

end Workspace

end LinkedDeposit
