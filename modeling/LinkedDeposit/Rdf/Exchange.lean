import LinkedDeposit.Json.Document
import LinkedDeposit.Rdf.Graph

/-!
# Terms, triples and graphs in JSON

The JSON form in which terms, triples and graphs are exchanged. A term names its form in `type` and
gives its content in `value`; a literal's content is an object of its own, in which an absent
datatype or language is left out.
-/

namespace LinkedDeposit

open Json (Part)

namespace Term

/-- The content of a literal, which is given by name. -/
def literalOfPart? (p : Part) : Option Term := do
  let fields ← p.members?.bind (fieldsByName ["value", "datatype", "language"])
  let text ← fields.required 0 Document.text?
  let datatype ← fields.optional 1 Document.text?
  let language ← fields.optional 2 Document.text?
  return .literal text datatype language

/-- A term of a form. -/
def ofForm? (form : String) (content : Part) : Option Term :=
  match form with
  | "iri" => content.text?.map .iri
  | "blank" => content.text?.map .blank
  | "literal" => literalOfPart? content
  | _ => none

/-- Reads a term. Content that stands before its form is not known yet when it is read, so all of it
has to be a JSON value. -/
def ofPart? (p : Part) : Option Term := do
  let fields ← Document.record? ["type", "value"] p
  let form ← fields.required 0 Document.choice?
  let content ← fields.get? 1
  let names := (p.members?.getD []).map (·.1)
  let formFirst := fields.byPosition || names.idxOf "type" < names.idxOf "value"
  if formFirst || content.json?.isSome then ofForm? form content else none

/-- Writes a term. -/
def toExchange : Term → String
  | .iri i => Json.writeRecord [("type", Json.quote "iri"), ("value", Json.quote i)]
  | .blank l => Json.writeRecord [("type", Json.quote "blank"), ("value", Json.quote l)]
  | .literal text datatype language =>
    Json.writeRecord [("type", Json.quote "literal"), ("value", Json.writeRecord
      ([("value", Json.quote text)] ++ Json.optionalMember "datatype" datatype ++
        Json.optionalMember "language" language))]

end Term

namespace Triple

def ofPart? (p : Part) : Option Triple := do
  let fields ← Document.record? ["subject", "predicate", "object"] p
  let subject ← fields.required 0 Term.ofPart?
  let predicate ← fields.required 1 Document.text?
  let object ← fields.required 2 Term.ofPart?
  return ⟨subject, predicate, object⟩

def toExchange (t : Triple) : String :=
  Json.writeRecord [("subject", t.subject.toExchange), ("predicate", Json.quote t.predicate),
    ("object", t.object.toExchange)]

end Triple

namespace Graph

def ofPart? (p : Part) : Option Graph := do
  let fields ← Document.record? ["triples"] p
  let items ← fields.required 0 Document.items?
  return ofList (← items.mapM Triple.ofPart?)

def toExchange (g : Graph) : String :=
  Json.writeRecord [("triples", Json.writeArray (g.toList.map Triple.toExchange))]

end Graph

end LinkedDeposit
