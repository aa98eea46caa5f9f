import LinkedDeposit.Json.Basic
import LinkedDeposit.Rdf.Iri
import LinkedDeposit.Rdf.Graph
import LinkedDeposit.Rdf.Vocabulary
import LinkedDeposit.Text.Cut

/-!
# Graphs from JSON-LD

Expanded and flattened JSON-LD is read into a graph: a node object, an array of node objects, or a
document with an `@graph` array. Property names are taken as predicates as they stand. A node
without `@id` becomes a blank node; its label is the next of `b1`, `b2`, … that the document does
not use itself (`nextFresh`), so it never meets another node's label.

An IRI that cannot be written between angle brackets is refused, wherever it stands.
-/

namespace LinkedDeposit.JsonLd

/-! ## Blank labels -/

/-- The label of an identifier that names a blank node. -/
def blankLabel? (id : String) : Option String := Text.dropPrefix? "_:" id

mutual

/-- The labels that a document uses in an `@id`, at any depth. -/
def blankLabels : Json → List String
  | .array items => itemLabels items
  | .object members => memberLabels members
  | _ => []

def itemLabels : List Json → List String
  | [] => []
  | v :: items => blankLabels v ++ itemLabels items

def memberLabels : List (String × Json) → List String
  | [] => []
  | (name, v) :: members =>
    (match name, v with
      | "@id", .string id => (blankLabel? id).toList
      | _, v => blankLabels v) ++ memberLabels members

end

/-- The label of the `n`-th generated blank node. -/
def generatedLabel (n : Nat) : String := "b" ++ toString n

/-- The first number after `n` whose label is not used. One candidate more than there are used
labels is always enough. -/
def nextFresh (used : List String) (n : Nat) : Nat :=
  go (used.length + 1) (n + 1)
where
  go : Nat → Nat → Nat
    | 0, n => n
    | fuel + 1, n => if generatedLabel n ∈ used then go fuel (n + 1) else n

/-! ## Nodes -/

/-- What has been read so far, and the number of the last generated label. -/
structure Reading where
  graph : Graph
  generated : Nat

/-- A step of a reader that knows the labels of its document. -/
abbrev Reader := ReaderT (List String) (StateT Reading (Except DepositError))

/-- Refuses the document with a reason. -/
def refuse {α : Type} (reason : String) : Reader α := throw (.invalidPackage reason)

def emit (subject : Term) (predicate : String) (object : Term) : Reader Unit :=
  modify fun r => { r with graph := r.graph.insert ⟨subject, predicate, object⟩ }

/-- A blank node that stands for nothing else in the document. -/
def freshBlank : Reader Term := do
  let used ← read
  let n := nextFresh used (← get).generated
  modify fun r => { r with generated := n }
  return .blank (generatedLabel n)

/-- The term that an identifier names. -/
def idTerm (id : String) : Except DepositError Term :=
  match blankLabel? id with
  | some label => .ok (.blank label)
  | none => (checkIri id).map fun _ => .iri id

/-- The term that a node object is about. -/
def subject (members : List (String × Json)) : Reader Term :=
  match Json.member? "@id" members with
  | some (.string id) => liftM (idTerm id)
  | some other => refuse ("@id must be a string, got " ++ other.compact)
  | none => freshBlank

/-- States the types of a node. Members of an array that are not strings are passed over. -/
def emitTypes (subject : Term) (members : List (String × Json)) : Reader Unit :=
  let one (type : String) : Reader Unit := do
    liftM (checkIri type)
    emit subject Vocabulary.rdfType (.iri type)
  match Json.member? "@type" members with
  | some (.string type) => one type
  | some (.array types) => (types.filterMap Json.string?).forM one
  | _ => pure ()

/-- The literal of a value object. A language wins over a datatype. -/
def literal (value : Json) (members : List (String × Json)) : Except DepositError Term :=
  let text := match value with
    | .string s => s
    | v => v.compact
  match (Json.member? "@language" members).bind Json.string? with
  | some language => .ok (.inLanguage text language)
  | none =>
    match (Json.member? "@type" members).bind Json.string? with
    | some datatype => (checkIri datatype).map fun _ => .typed text datatype
    | none => .ok (.plain text)

/-- The literal of a number. -/
def numberTerm (n : JsonNumber) : Term :=
  match n with
  | .double _ => .typed n.toText Vocabulary.xsdDouble
  | .whole _ => .typed n.toText Vocabulary.xsdInteger

/-- What an object in property position is, apart from an embedded node. -/
def reference? (members : List (String × Json)) : Option (Except DepositError Term) :=
  match Json.member? "@value" members, members with
  | some value, _ => some (literal value members)
  | none, [("@id", .string id)] => some (idTerm id)
  | none, _ => none

mutual

/-- The term of a property value; an embedded node is read on the way. -/
def readValue : Json → Reader Term
  | .string s => pure (.plain s)
  | .bool b => pure (.typed (if b then "true" else "false") Vocabulary.xsdBoolean)
  | .number n => pure (numberTerm n)
  | .object members =>
    match reference? members with
    | some term => liftM term
    | none => do
      let subject ← subject members
      emitTypes subject members
      readMembers subject members
      return subject
  | .null => refuse ("unsupported JSON-LD value " ++ Json.null.compact)
  | .array items =>
    refuse ("unsupported JSON-LD value " ++ (Json.array items).compact)

/-- States the properties of a node. Names that begin with `@` are not properties. -/
def readMembers (subject : Term) : List (String × Json) → Reader Unit
  | [] => pure ()
  | (name, v) :: members => do
    if !name.toList.head?.any (· = '@') then
      liftM (checkIri name)
      match v with
      | .array items => readItems subject name items
      | v => emit subject name (← readValue v)
    readMembers subject members

/-- States each value of an array. -/
def readItems (subject : Term) (predicate : String) : List Json → Reader Unit
  | [] => pure ()
  | v :: items => do
    emit subject predicate (← readValue v)
    readItems subject predicate items

end

/-- Reads a node object. -/
def readNode : Json → Reader Unit
  | .object members => do
    let subject ← subject members
    emitTypes subject members
    readMembers subject members
  | v => refuse ("expected a JSON-LD node object, got " ++ v.compact)

/-- Reads the nodes of a document. -/
def readDocument : Json → Reader Unit
  | .array nodes => nodes.forM readNode
  | .object members =>
    match Json.member? "@graph" members with
    | some (.array nodes) => nodes.forM readNode
    | some _ => refuse "@graph must be an array"
    | none => readNode (.object members)
  | _ => refuse "JSON-LD document must be an object or array"

/-- The graph of a document. -/
def toGraph (doc : Json) : Except DepositError Graph :=
  (((readDocument doc).run (blankLabels doc)).run ⟨Graph.empty, 0⟩).map (·.2.graph)

end LinkedDeposit.JsonLd
