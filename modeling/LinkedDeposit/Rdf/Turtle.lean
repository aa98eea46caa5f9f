import LinkedDeposit.Rdf.Graph
import LinkedDeposit.Rdf.Vocabulary
import LinkedDeposit.Text.Cut

/-!
# Graphs as text

A graph is written as one statement a line, in the order of its triples. Without a base the text is
N-Triples; with one, an IRI in subject or object position that is the base, or the base and a
fragment, is written as a relative reference, so that the receiver resolves it against the resource
it belongs to. Predicates and datatypes are always written whole.

A literal is written with its language if it has one, else with its datatype, and `xsd:string` is
never written.
-/

namespace LinkedDeposit

/-- A character inside a written literal. -/
def escapeLiteralChar (c : Char) : List Char :=
  match c with
  | '\\' => ['\\', '\\']
  | '"' => ['\\', '"']
  | '\n' => ['\\', 'n']
  | '\r' => ['\\', 'r']
  | '\t' => ['\\', 't']
  | c => [c]

/-- The text of a literal between its quotes. -/
def escapeLiteral (s : String) : String := String.ofList (s.toList.flatMap escapeLiteralChar)

/-- The reference to `iri` from `base`: nothing or a fragment, and absent for any other IRI. -/
def relativeTo (base iri : String) : Option String :=
  match Text.afterPrefix? base.toList iri.toList with
  | some [] => some ""
  | some ('#' :: fragment) => some (String.ofList ('#' :: fragment))
  | _ => none

/-- What follows the closing quote of a literal. -/
def literalSuffix : (datatype language : Option String) → String
  | _, some language => "@" ++ language
  | some datatype, none =>
    if datatype = Vocabulary.xsdString then "" else "^^<" ++ datatype ++ ">"
  | none, none => ""

namespace Term

/-- A term as text, with IRIs shortened by `shorten` where it gives a reference. -/
def write (shorten : String → Option String) : Term → String
  | .iri i => "<" ++ (shorten i).getD i ++ ">"
  | .blank label => "_:" ++ label
  | .literal text datatype language =>
    "\"" ++ escapeLiteral text ++ "\"" ++ literalSuffix datatype language

/-- A term in N-Triples. -/
def toNTriples (t : Term) : String := t.write fun _ => none

end Term

namespace Triple

/-- A statement without its line end. -/
def statement (shorten : String → Option String) (t : Triple) : String :=
  t.subject.write shorten ++ " <" ++ t.predicate ++ "> " ++ t.object.write shorten ++ " ."

/-- A statement on its line. -/
def writeLine (shorten : String → Option String) (t : Triple) : String :=
  t.statement shorten ++ "\n"

end Triple

namespace Graph

/-- The lines of the graph, one after the other. -/
def write (shorten : String → Option String) (g : Graph) : String :=
  String.join (g.toList.map (Triple.writeLine shorten))

/-- The graph in N-Triples. -/
def toNTriples (g : Graph) : String := g.write fun _ => none

/-- The graph in Turtle, with references below `base` written relative. -/
def toTurtle (base : String) (g : Graph) : String := g.write (relativeTo base)

/-- The N-Triples statements in the order of their text. -/
def statements (g : Graph) : List String :=
  (g.toList.map (Triple.statement fun _ => none)).mergeSort (· ≤ ·)

end Graph

end LinkedDeposit
