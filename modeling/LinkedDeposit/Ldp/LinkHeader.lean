import LinkedDeposit.Text.Blank
import LinkedDeposit.Text.Cut

/-!
# Link headers

A link header lists targets in angle brackets, each with its relations in a parameter. A part that
is not of this form is passed over.
-/

namespace LinkedDeposit.Ldp

/-- A target with its relations, in small letters. -/
structure Link where
  target : String
  relations : List String
  deriving DecidableEq, Repr, Inhabited

namespace Link

/-- The relations that a parameter names. -/
def relationsOf (parameter : List Char) : List String :=
  match Text.afterPrefix? ['r', 'e', 'l', '='] (Text.trimBlank parameter) with
  | some value => (Text.words (Text.trimBoth (· = '"') value)).map fun w =>
      String.ofList (w.map Char.toLower)
  | none => []

/-- The link of one part of a header. -/
def ofPart? (part : List Char) : Option Link :=
  match Text.trimBlank part with
  | '<' :: s =>
    let target := s.takeWhile (· ≠ '>')
    match s.drop target.length with
    | _ :: parameters =>
      some ⟨String.ofList target, (Text.splitAt (· = ';') parameters).flatMap relationsOf⟩
    | [] => none
  | _ => none

/-- The links of a header. -/
def ofHeader (value : String) : List Link :=
  (Text.splitAt (· = ',') value.toList).filterMap ofPart?

/-- The first target that a header gives for a relation. -/
def find? (relation : String) (value : String) : Option String :=
  ((ofHeader value).find? fun link => link.relations.contains relation).map (·.target)

/-- A header that gives a relation to one target. -/
def write (target relation : String) : String := "<" ++ target ++ ">; rel=\"" ++ relation ++ "\""

end Link

end LinkedDeposit.Ldp
