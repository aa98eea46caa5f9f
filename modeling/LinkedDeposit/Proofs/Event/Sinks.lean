import Mathlib.Data.List.Forall2
import LinkedDeposit.Event.Sink
import LinkedDeposit.Proofs.Json.Written

/-!
# What sinks tell

Sinks that take the same events tell the same story, each in its own form, and none of them notices
what the others do, or that one of them fails. A text of lines tells it as well as the records
themselves: it comes apart into one line for each event, and every line is read back as the record
of its event, whatever characters are in it.

Results:
* `EventRecord.ofString?_toJson`: a written record is read back.
* `EventRecord.ofLines?_line`: the line of an event adds its record in front of what follows.
* `Sink.Tells.step`: what a sink tells after an event begins with that event.
* `sinks_tell_alike`: every sink tells all events in their order, whatever the other ones are.
-/

namespace LinkedDeposit

open Json (Part present writeTexts textPart)

namespace EventRecord

/-! ## Records -/

/-- Reads a record from its JSON form. -/
def ofString? (s : String) : Option EventRecord := (Json.partOfString? s).bind ofPart?

/-- The texts of the fields of a record. -/
def fields (r : EventRecord) : List (String × Option String) :=
  [("kind", some r.kind.name), ("uri", r.uri), ("local_id", r.localId),
    ("resource_kind", r.resourceKind.map ResourceKind.name), ("detail", r.detail)]

theorem toJson_eq (r : EventRecord) : r.toJson = writeTexts (present r.fields) := by
  rcases r with ⟨kind, uri, localId, resourceKind, detail⟩
  cases uri <;> cases localId <;> cases resourceKind <;> cases detail <;> rfl

/-- **A written record is read back.** -/
theorem ofString?_toJson (r : EventRecord) : ofString? r.toJson = some r := by
  have distinct : (r.fields.map (·.1)).Nodup := show fieldNames.Nodup by decide
  let found := Json.received r.fields
  obtain ⟨p, parsed, named⟩ := Option.bind_eq_some_iff.mp (Json.record?_writeTexts distinct)
  have named : Document.record? fieldNames p = some found := named
  have kind : found.required 0 (fun p => (Document.choice? p).bind EventKind.ofName?) =
      some r.kind := Json.required_choice EventKind.ofName?_name rfl
  have uri : found.nullable 1 Document.text? = some r.uri := Json.nullable_text rfl
  have localId : found.nullable 2 Document.text? = some r.localId := Json.nullable_text rfl
  have resourceKind : found.nullable 3 (fun p => (Document.choice? p).bind ResourceKind.ofName?) =
      some r.resourceKind := Json.nullable_choice ResourceKind.ofName?_name rfl
  have detail : found.nullable 4 Document.text? = some r.detail := Json.nullable_text rfl
  simp [ofString?, toJson_eq, parsed, ofPart?, named, kind, uri, localId, resourceKind, detail]

/-- **A written record is on one line.** -/
theorem newline_not_mem_toJson (r : EventRecord) : '\n' ∉ r.toJson.toList := by
  intro inside
  rw [toJson_eq] at inside
  exact Json.printable_writeTexts _ '\n' inside (by decide)

/-! ## Lines -/

/-- Reads the records of a text in which every line is ended. -/
def ofLines? (text : String) : Option (List EventRecord) :=
  let lines := Text.splitAt (· = '\n') text.toList
  if lines.getLast? = some [] then lines.dropLast.mapM fun line => ofString? (String.ofList line)
  else none

/-- **The line of an event adds its record** in front of what follows. -/
theorem ofLines?_line (e : Event) (text : String) :
    ofLines? (Sink.line e ++ text) = (ofLines? text).map (e.toRecord :: ·) := by
  let record := e.toRecord.toJson
  have whole : ∀ c ∈ record.toList, decide (c = '\n') = false := fun c hc =>
    decide_eq_false fun newline => newline_not_mem_toJson e.toRecord (newline ▸ hc)
  have apart : Text.splitAt (· = '\n') (Sink.line e ++ text).toList =
      record.toList :: Text.splitAt (· = '\n') text.toList := by
    rw [← Text.splitAt_append (decide_eq_true rfl) whole]
    simp [Sink.line, record]
  have read : ofString? (String.ofList record.toList) = some e.toRecord := by
    rw [String.ofList_toList, ofString?_toJson]
  -- the last part is the one behind the last newline, so it belongs to what follows
  obtain ⟨line, lines, more⟩ := List.exists_cons_of_ne_nil
    (Text.splitAt_ne_nil (· = '\n') text.toList)
  unfold ofLines?
  simp only [apart, more, List.getLast?_cons_cons, List.dropLast_cons_cons, List.mapM_cons, read]
  split
  case isTrue =>
    cases (line :: lines).dropLast.mapM fun line => ofString? (String.ofList line) <;> rfl
  case isFalse => rfl

end EventRecord

namespace Sink

/-! ## Stories -/

/-- How a sink tells events: what it held before, and what it holds after them. -/
inductive Tells (events : List Event) : Sink → Sink → Prop where
  /-- By their records. -/
  | recorder (records : List EventRecord) :
    Tells events (.recorder records) (.recorder (records ++ events.map Event.toRecord))
  /-- By a text that is read as their records. -/
  | lines {text written : String}
    (told : EventRecord.ofLines? written = some (events.map Event.toRecord)) :
    Tells events (.lines text) (.lines (text ++ written))
  /-- Not at all, as it fails. -/
  | broken : Tells events .broken .broken
  /-- Not at all, as it is meant to. -/
  | discard : Tells events .discard .discard
  /-- By their entries. -/
  | log (entries : List LogEntry) :
    Tells events (.log entries) (.log (entries ++ events.map LogEntry.ofEvent))

/-- A sink that has taken nothing tells nothing. -/
theorem Tells.none (s : Sink) : Tells [] s s := by
  cases s with
  | recorder records => simpa using (Tells.recorder records : Tells [] _ _)
  | lines text => simpa using (Tells.lines rfl : Tells [] (.lines text) (.lines (text ++ "")))
  | broken => exact .broken
  | discard => exact .discard
  | log entries => simpa using (Tells.log entries : Tells [] _ _)

/-- **What a sink tells after an event begins with it.** -/
theorem Tells.step {events : List Event} {e : Event} {s after : Sink}
    (later : Tells events (s.accept e) after) : Tells (e :: events) s after := by
  cases s with
  | recorder records =>
    cases later
    simpa [accept] using (Tells.recorder records : Tells (e :: events) _ _)
  | lines text =>
    obtain _ | @⟨_, written, told⟩ := later
    rw [String.append_assoc]
    exact .lines (by rw [EventRecord.ofLines?_line, told]; rfl)
  | broken =>
    cases later
    exact .broken
  | discard =>
    cases later
    exact .discard
  | log entries =>
    cases later
    simpa [accept] using (Tells.log entries : Tells (e :: events) _ _)

theorem tells_foldl (events : List Event) (s : Sink) :
    Tells events s (events.foldl (fun s e => s.accept e) s) := by
  induction events generalizing s with
  | nil => exact .none s
  | cons e events ih => exact (ih (s.accept e)).step

/-- Every sink takes the events as if it were the only one. -/
theorem foldl_acceptAll (events : List Event) (sinks : List Sink) :
    events.foldl (fun sinks e => acceptAll e sinks) sinks =
      sinks.map fun s => events.foldl (fun s e => s.accept e) s := by
  induction events generalizing sinks with
  | nil => simp
  | cons e events ih =>
    rw [List.foldl_cons, ih, acceptAll, List.map_map]
    rfl

end Sink

/-- **All sinks tell the same story.** Whatever sinks take a sequence of events, broken ones among
them, each of them tells all events in their order in its own form: a recorder has their records,
and what is written in lines comes apart into a line for each event, which is read as its record. -/
theorem sinks_tell_alike (events : List Event) (sinks : List Sink) :
    List.Forall₂ (Sink.Tells events) sinks
      (events.foldl (fun sinks e => Sink.acceptAll e sinks) sinks) := by
  rw [Sink.foldl_acceptAll, List.forall₂_map_right_iff, List.forall₂_same]
  exact fun s _ => Sink.tells_foldl events s

end LinkedDeposit
