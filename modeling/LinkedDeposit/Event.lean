import LinkedDeposit.Json.Document
import LinkedDeposit.Resource

/-!
# Events

A deposit reports its progress as events. Sinks keep the record of an event (`EventRecord`), which
has a JSON form: one object, in which an absent field is left out.
-/

namespace LinkedDeposit

open Json (Part)

/-- What happened. -/
inductive EventKind where
  /-- A resource was created, or the URI of a description became known. -/
  | deposit
  /-- The links of a resource were remapped. -/
  | remap
  /-- The deposit failed. -/
  | error
  /-- The deposit was committed. -/
  | success
  /-- A sign of life from a service around the deposit; a deposit itself sends none. -/
  | heartbeat
  deriving DecidableEq, Repr, Inhabited

namespace EventKind

/-- The name of a kind in records. -/
def name : EventKind → String
  | deposit => "DEPOSIT"
  | remap => "REMAP"
  | error => "ERROR"
  | success => "SUCCESS"
  | heartbeat => "HEARTBEAT"

/-- The kind of a name. -/
def ofName? : String → Option EventKind
  | "DEPOSIT" => some deposit
  | "REMAP" => some remap
  | "ERROR" => some error
  | "SUCCESS" => some success
  | "HEARTBEAT" => some heartbeat
  | _ => none

theorem ofName?_name (k : EventKind) : ofName? k.name = some k := by cases k <;> rfl

end EventKind

/-- An event of a deposit. -/
structure Event where
  kind : EventKind
  uri : Option String
  subject : Option Subject
  detail : Option String
  deriving DecidableEq, Repr, Inhabited

/-- What a sink keeps of an event. -/
structure EventRecord where
  kind : EventKind
  uri : Option String
  localId : Option String
  resourceKind : Option ResourceKind
  detail : Option String
  deriving DecidableEq, Repr, Inhabited

namespace Event

def deposit (uri : String) (s : Subject) : Event := ⟨.deposit, some uri, some s, none⟩

def remap (uri : String) (s : Subject) (detail : String) : Event :=
  ⟨.remap, some uri, some s, some detail⟩

def error (detail : String) : Event := ⟨.error, none, none, some detail⟩

def success (uri detail : String) : Event := ⟨.success, some uri, none, some detail⟩

def toRecord (e : Event) : EventRecord :=
  ⟨e.kind, e.uri, e.subject.map (·.id), e.subject.map (·.kind), e.detail⟩

end Event

namespace EventRecord

def fieldNames : List String := ["kind", "uri", "local_id", "resource_kind", "detail"]

/-- Reads a record. -/
def ofPart? (p : Part) : Option EventRecord := do
  let fields ← Document.record? fieldNames p
  let kind ← fields.required 0 fun p => (Document.choice? p).bind EventKind.ofName?
  let uri ← fields.nullable 1 Document.text?
  let localId ← fields.nullable 2 Document.text?
  let resourceKind ← fields.nullable 3 fun p => (Document.choice? p).bind ResourceKind.ofName?
  let detail ← fields.nullable 4 Document.text?
  return ⟨kind, uri, localId, resourceKind, detail⟩

/-- Writes a record. -/
def toJson (r : EventRecord) : String :=
  Json.writeRecord ([("kind", Json.quote r.kind.name)] ++ Json.optionalMember "uri" r.uri ++
    Json.optionalMember "local_id" r.localId ++
    Json.optionalMember "resource_kind" (r.resourceKind.map ResourceKind.name) ++
    Json.optionalMember "detail" r.detail)

end EventRecord

end LinkedDeposit
