import LinkedDeposit.Http.Message

/-!
# Scripted peers

A peer that gives prepared answers in order and keeps every request. When no answer is left it says
so in a response of its own. A peer that does not listen is never reached: it sees no request and
keeps its answers.
-/

namespace LinkedDeposit.Http

/-- A prepared answer. -/
inductive ScriptedAnswer where
  | response (r : Response)
  /-- The connection ends without a response. -/
  | drop
  deriving DecidableEq, Repr, Inhabited

/-- A peer with its prepared answers and the requests that arrived. -/
structure Script where
  listens : Bool
  answers : List ScriptedAnswer
  requests : List Request

namespace Script

/-- The response of a peer that has no answer left. -/
def exhausted : Response := ⟨500, [], some (Text.toUtf8 "unscripted")⟩

/-- Takes a request. -/
def receive (r : Request) (s : Script) : Except String Response × Script :=
  if !s.listens then (.error "no connection", s)
  else
    match r.body with
    | .error reason => (.error reason, s)
    | .ok _ =>
      let s := { s with requests := s.requests ++ [r] }
      match s.answers with
      | [] => (.ok exhausted, s)
      | .response response :: answers => (.ok response, { s with answers })
      | .drop :: answers => (.error "connection closed", { s with answers })

/-- The transport to a scripted peer. -/
def transport : Transport (StateM Script) := receive

end Script

end LinkedDeposit.Http
