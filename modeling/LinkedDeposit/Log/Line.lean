import LinkedDeposit.Config
import LinkedDeposit.Event.Sink

/-!
# Log lines

An entry of the log on a line of its own, as text or as a JSON object.
-/

namespace LinkedDeposit.LogEntry

/-- The part of the program that logs events, as filters name it. -/
def target : String := "ldp_deposit::notify"

/-- The fields of an entry besides its message. -/
def fields (e : LogEntry) : List (String × String) :=
  [("kind", e.kind.name), ("uri", e.uri), ("local_id", e.localId)]

/-- An entry as text. -/
def textLine (e : LogEntry) : String :=
  e.level.name ++ " " ++ target ++ ": " ++ e.message ++
    String.join (e.fields.map fun (name, value) => " " ++ name ++ "=" ++ Json.quote value)

/-- An entry as a JSON object. -/
def jsonLine (e : LogEntry) : String :=
  Json.writeRecord [
    ("level", Json.quote e.level.name),
    ("fields", Json.writeRecord
      ((("message", e.message) :: e.fields).map fun (name, value) => (name, Json.quote value))),
    ("target", Json.quote target)]

/-- An entry in a format. -/
def line : LogFormat → LogEntry → String
  | .text => textLine
  | .json => jsonLine

/-- Whether a filter lets an entry through. -/
def passes (e : LogEntry) (filter : LogFilter) : Bool := filter.allows target e.level

end LinkedDeposit.LogEntry
