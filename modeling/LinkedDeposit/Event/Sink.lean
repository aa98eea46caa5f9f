import LinkedDeposit.Event
import LinkedDeposit.Log.Filter

/-!
# Sinks

A sink takes events one at a time. Several sinks that take the same events do not notice each other,
so one that fails costs the others nothing.
-/

namespace LinkedDeposit

/-- What the log says of an event. -/
structure LogEntry where
  level : LogLevel
  kind : EventKind
  uri : String
  localId : String
  message : String
  deriving DecidableEq, Repr, Inhabited

namespace LogEntry

/-- The entry of an event: failures are errors, and a dash stands for what an event does not have.
-/
def ofEvent (e : Event) : LogEntry where
  level := if e.kind = .error then .error else .info
  kind := e.kind
  uri := e.uri.getD "-"
  localId := (e.subject.map (·.id)).getD "-"
  message := e.detail.getD ""

end LogEntry

/-- Where events go, with what it has taken so far. -/
inductive Sink where
  /-- Keeps the record of every event. -/
  | recorder (records : List EventRecord)
  /-- Writes the record of every event on a line of its own. -/
  | lines (text : String)
  /-- Fails on every write. -/
  | broken
  /-- Drops every event. -/
  | discard
  | log (entries : List LogEntry)
  deriving DecidableEq, Repr, Inhabited

namespace Sink

/-- The line of an event. -/
def line (e : Event) : String := e.toRecord.toJson ++ "\n"

/-- Takes an event. -/
def accept (e : Event) : Sink → Sink
  | recorder records => recorder (records ++ [e.toRecord])
  | lines text => lines (text ++ line e)
  | broken => broken
  | discard => discard
  | log entries => log (entries ++ [LogEntry.ofEvent e])

/-- Gives an event to every sink. -/
def acceptAll (e : Event) (sinks : List Sink) : List Sink := sinks.map (accept e)

end Sink

end LinkedDeposit
