import LinkedDeposit.Session.Basic

/-!
# Calls of a session

An operation of a session with its arguments as a value, so that what a deposit did can be logged
and what several sessions do can be written down as a schedule.
-/

namespace LinkedDeposit

/-- An operation of a session with its arguments. -/
inductive SessionCall where
  | deposit (r : Resource) (parent : String)
  | fetch (uri : String)
  | patch (uri : String) (p : Patch) (token : Token)
  | commit
  | rollback
  deriving Inhabited

/-- Which operation a call is. -/
inductive CallKind where
  | deposit
  | fetch
  | patch
  | commit
  | rollback
  deriving DecidableEq, Repr, Inhabited

/-- What a call that succeeds answers. -/
inductive SessionAnswer where
  | deposited (d : Deposited)
  | fetched (g : Graph) (token : Token)
  | done
  deriving DecidableEq, Inhabited

namespace SessionCall

def kind : SessionCall → CallKind
  | .deposit .. => .deposit
  | .fetch _ => .fetch
  | .patch .. => .patch
  | .commit => .commit
  | .rollback => .rollback

end SessionCall

/-- Makes a call. -/
def Session.answer {m : Type → Type} [Monad m] (s : Session m) :
    SessionCall → ExceptT DepositError m SessionAnswer
  | .deposit r parent => SessionAnswer.deposited <$> s.deposit r parent
  | .fetch uri => (fun (g, token) => .fetched g token) <$> s.fetch uri
  | .patch uri p token => (fun _ => .done) <$> s.patch uri p token
  | .commit => (fun _ => .done) <$> s.commit
  | .rollback => (fun _ => .done) <$> s.rollback

end LinkedDeposit
