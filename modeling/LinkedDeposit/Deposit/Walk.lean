import LinkedDeposit.Event
import LinkedDeposit.Link.Remap
import LinkedDeposit.Session.Basic

/-!
# Walking a package

`walk` deposits every resource of a package, parents before their children, and records where each
local id ended up. The first failure ends it.
-/

namespace LinkedDeposit

/-- What a walk has done. -/
structure Walked where
  uris : UriMap
  /-- Local ids in the order of their URIs becoming known. -/
  order : List String
  deposits : Nat
  descriptions : Nat
  deriving Inhabited

/-- A node with the URI that it was given. -/
structure Visited where
  subject : Subject
  uri : String
  deriving DecidableEq, Repr, Inhabited

namespace Walked

def nothing : Walked := ⟨Table.empty, [], 0, 0⟩

/-- Records the URI of a local id. -/
def record (w : Walked) (id uri : String) : Except DepositError Walked := do
  return { w with uris := ← w.uris.record id uri, order := w.order ++ [id] }

/-- The nodes of a package that were given a URI, in the order of the walk. -/
def visited (w : Walked) (tree : List Resource) : List Visited :=
  (Resource.allSubjects tree).filterMap fun s => (w.uris.get? s.id).map (⟨s, ·⟩)

end Walked

section Walk

variable {m : Type → Type} [Monad m] (s : Session m) (notify : Event → m Unit)

/-- Deposits one resource, records its URI and that of its description, and announces both. -/
def depositNode (r : Resource) (parent : String) (w : Walked) :
    ExceptT DepositError m (Deposited × Walked) := do
  let d ← s.deposit r parent
  let w ← liftM (Walked.record { w with deposits := w.deposits + 1 } r.id d.uri)
  notify (.deposit d.uri r.subject)
  match r.description? with
  | none => return (d, w)
  | some description =>
    match d.description with
    | none => throw (.missingDescription d.uri)
    | some uri =>
      let w ← liftM (w.record description.id uri)
      notify (.deposit uri description.subject)
      return (d, { w with descriptions := w.descriptions + 1 })

mutual

/-- Deposits a resource and what is below it. -/
def walkNode (r : Resource) (parent : String) (w : Walked) : ExceptT DepositError m Walked := do
  let (d, w) ← depositNode s notify r parent w
  match r with
  | .container _ _ children => walkNodes children d.uri w
  | _ => return w

/-- Deposits resources below one container. -/
def walkNodes (tree : List Resource) (parent : String) (w : Walked) :
    ExceptT DepositError m Walked := do
  match tree with
  | [] => return w
  | r :: rest => walkNodes rest parent (← walkNode r parent w)

end

/-- Deposits a package below a container. -/
def walk (tree : List Resource) (target : String) : ExceptT DepositError m Walked :=
  walkNodes s notify tree target Walked.nothing

end Walk

end LinkedDeposit
