import LinkedDeposit.Rdf.Patch
import LinkedDeposit.Resource
import LinkedDeposit.Session.Lifecycle

/-!
# Sessions

A session is one unit of work against a repository. A deposit knows a repository only through these
five operations, whatever monad they run in.
-/

namespace LinkedDeposit

/-- What a repository answers to a deposit. -/
structure Deposited where
  uri : String
  /-- The URI of the description, if one was written. -/
  description : Option String
  deriving DecidableEq, Repr, Inhabited

/-- The state of a resource as its repository names it; a patch with a token of another state is
refused. -/
abbrev Token := String

/-- The operations of a session. -/
structure Session (m : Type → Type) where
  /-- Creates a resource below a container, a binary together with its description. -/
  deposit : (r : Resource) → (parent : String) → ExceptT DepositError m Deposited
  /-- The graph of a resource and the token of its state. -/
  fetch : (uri : String) → ExceptT DepositError m (Graph × Token)
  patch : (uri : String) → Patch → Token → ExceptT DepositError m Unit
  /-- Makes the whole work visible. -/
  commit : ExceptT DepositError m Unit
  /-- Discards the whole work. -/
  rollback : ExceptT DepositError m Unit

/-- A session whose operations run inside a larger monad. -/
def Session.lift {m n : Type → Type} [Monad n] [MonadLiftT m n] (s : Session m) : Session n where
  deposit r parent := ExceptT.mk (liftM (s.deposit r parent).run)
  fetch uri := ExceptT.mk (liftM (s.fetch uri).run)
  patch uri p token := ExceptT.mk (liftM (s.patch uri p token).run)
  commit := ExceptT.mk (liftM s.commit.run)
  rollback := ExceptT.mk (liftM s.rollback.run)

end LinkedDeposit
