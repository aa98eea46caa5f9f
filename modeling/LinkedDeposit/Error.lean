/-!
# What can go wrong in a deposit

One type covers the failures of every part: the package, the configuration, the session's
lifecycle and the repository. `message` gives the wording that a user sees.
-/

namespace LinkedDeposit

/-- A failure, with what its message names. -/
inductive DepositError where
  /-- A repository call failed at a URI. -/
  | failure (uri reason : String)
  /-- A concurrency token does not name the current state of a resource. -/
  | concurrentModification (uri : String)
  /-- A finished session was asked for another operation. -/
  | illegalState (operation state : String)
  /-- The repository created a binary and did not say where its description is. -/
  | missingDescription (uri : String)
  /-- The package breaks one of its rules. -/
  | invalidPackage (reason : String)
  | invalidUri (uri : String)
  | config (reason : String)
  /-- A file could not be read or written. -/
  | io (reason : String)
  /-- A document is not JSON, or not of the expected shape. What its reader says of the document is
  left out: the message ends where those words would begin. -/
  | json
  | invalidPath (path : String)
  deriving DecidableEq, Repr, Inhabited

namespace DepositError

/-- The wording of a failure. -/
def message : DepositError → String
  | failure uri reason => "Deposit failed at " ++ uri ++ ": " ++ reason
  | concurrentModification uri =>
    "Concurrent modification of " ++ uri ++ ": concurrency token is stale"
  | illegalState operation state =>
    "Illegal session state: cannot " ++ operation ++ " while session is " ++ state
  | missingDescription uri =>
    "Repository did not report a description URI for binary " ++ uri
  | invalidPackage reason => "Invalid package: " ++ reason
  | invalidUri uri => "Invalid URI '" ++ uri ++ "'"
  | config reason => "Configuration error: " ++ reason
  | io reason => "IO error: " ++ reason
  | json => "JSON error"
  | invalidPath path => "Invalid path: " ++ path

/-- Whether the repository interaction failed; a stale token counts as a failed call. -/
def isDepositFailure : DepositError → Bool
  | failure .. | concurrentModification _ | missingDescription _ => true
  | _ => false

/-- Whether the caller broke the session's lifecycle. Such an error bypasses rollback. -/
def isIllegalState : DepositError → Bool
  | illegalState .. => true
  | _ => false

/-! ## Causes with a wording of their own -/

/-- A local id was recorded before. -/
def repeatedLocalId (id : String) : DepositError :=
  .invalidPackage ("local id " ++ id ++ " appears more than once in the package")

/-- Two nodes of a manifest share an id. -/
def duplicateId (id : String) : DepositError := .invalidPackage ("duplicate resource id " ++ id)

/-- A package path is absolute, empty or climbs. -/
def escapingPath (path : String) : DepositError :=
  .invalidPackage ("package path '" ++ path ++ "' must be relative and stay inside the package")

end DepositError

end LinkedDeposit
