import LinkedDeposit.Deposit.Walk
import LinkedDeposit.Link.Remap

/-!
# Depositing a package

A deposit is one unit of work: it walks the package, remaps the local links of every graph once
all URIs are known, and commits. What goes wrong before the commit is rolled back, unless the
session's lifecycle was broken, which is reported as it is.
-/

namespace LinkedDeposit

/-- What a deposit did. -/
structure Report where
  deposited : Nat
  descriptions : Nat
  remapped : Nat
  unchanged : Nat
  deriving DecidableEq, Repr, Inhabited

namespace Report

def summary (r : Report) : String :=
  toString r.deposited ++ " resources deposited, " ++ toString r.descriptions ++
    " descriptions, " ++ toString r.remapped ++ " graphs remapped, " ++ toString r.unchanged ++
    " unchanged"

end Report

/-- What an event says of a patch. -/
def Patch.extent (p : Patch) : String :=
  "+" ++ toString p.added.size ++ " -" ++ toString p.removed.size

section Run

variable {m : Type → Type} [Monad m] (s : Session m) (notify : Event → m Unit)

/-- Remaps the local links of one graph; says whether there were any. -/
def remapNode (uris : UriMap) (v : Visited) : ExceptT DepositError m Bool := do
  let (g, token) ← s.fetch v.uri
  let p := Patch.between g (g.remap uris)
  if p.isEmpty then return false
  s.patch v.uri p token
  notify (.remap v.uri v.subject p.extent)
  return true

/-- Remaps the local links of some graphs, in order. -/
def remapNodes (uris : UriMap) : List Visited → Report → ExceptT DepositError m Report
  | [], report => return report
  | v :: rest, report => do
    if ← remapNode s notify uris v then
      remapNodes uris rest { report with remapped := report.remapped + 1 }
    else remapNodes uris rest { report with unchanged := report.unchanged + 1 }

/-- Walks a package and remaps its links. Binaries have none. -/
def walkAndRemap (tree : List Resource) (target : String) : ExceptT DepositError m Report := do
  let w ← walk s notify tree target
  remapNodes s notify w.uris ((w.visited tree).filter (·.subject.isRdf))
    ⟨w.deposits, w.descriptions, 0, 0⟩

/-- Announces a failure and reports it. -/
def failWith (e : DepositError) : m (Except DepositError Report) := do
  notify (.error e.message)
  return .error e

/-- Deposits a package below a container in a session, which is finished by this. -/
def depositTree (tree : List Resource) (target : String) : m (Except DepositError Report) := do
  match ← (walkAndRemap s notify tree target).run with
  | .ok report =>
    match ← s.commit.run with
    | .ok _ => do
      notify (.success target report.summary)
      return .ok report
    | .error e => failWith notify e
  | .error e =>
    if e.isIllegalState then return .error e
    else do
      let _ ← s.rollback.run
      failWith notify e

/-- Opens a session and deposits a package in it. -/
def depositPackage (openSession : ExceptT DepositError m (Session m)) (tree : List Resource)
    (target : String) : m (Except DepositError Report) := do
  match ← openSession.run with
  | .ok s => depositTree s notify tree target
  | .error e => failWith notify e

end Run

end LinkedDeposit
