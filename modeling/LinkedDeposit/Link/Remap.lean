import LinkedDeposit.Digest.Blake3
import LinkedDeposit.Error
import LinkedDeposit.Rdf.Graph
import LinkedDeposit.Table
import LinkedDeposit.Text.Cut
import LinkedDeposit.Text.Utf8

/-!
# Remapping links

Functions on terms that a graph goes through on its way into a repository. Each of them touches
subjects and objects; predicates and literals stay.

* `Term.remap`: an IRI whose part before the first `#` is a local id becomes the id's repository
  URI followed by the fragment.
* `Term.skolemize`: a blank node becomes a fragment that depends on its label alone.
* `Term.resolve`: an empty reference or a fragment is put behind the resource's URI.
* `rebase?`: a URI below one base becomes the URI below another; only whole path segments match.
-/

namespace LinkedDeposit

/-- A URI's part before the first `#`, and its fragment with the `#`. -/
def splitFragment (uri : String) : String × String := Text.cutBefore (· = '#') uri

theorem splitFragment_append (uri : String) : (splitFragment uri).1 ++ (splitFragment uri).2 = uri :=
  Text.cutBefore_append _ uri

/-! ## Local ids -/

/-- Where local ids ended up: repository URIs by the ids that a package uses inside itself. It is
written once per id. -/
abbrev UriMap := Table String String

namespace UriMap

/-- Records where an id ended up; an id that was recorded before is refused. -/
def record (m : UriMap) (id uri : String) : Except DepositError UriMap :=
  if m.contains id then .error (.repeatedLocalId id) else .ok (m.insert id uri)

theorem record_eq_ok_iff {m n : UriMap} {id uri : String} :
    m.record id uri = .ok n ↔ m.get? id = none ∧ n = m.insert id uri := by
  unfold record
  cases h : m.get? id with
  | none => simp [Table.contains, h, eq_comm]
  | some v => simp [Table.contains, h]

end UriMap

/-- The IRI that a link becomes once local ids have URIs. -/
def UriMap.remapIri (m : UriMap) (iri : String) : String :=
  let (base, fragment) := splitFragment iri
  match m.get? base with
  | some uri => uri ++ fragment
  | none => iri

/-- Replaces a local id by its repository URI, keeping the fragment. -/
def Term.remap (m : UriMap) (t : Term) : Term := t.mapIri m.remapIri

/-- Replaces local ids in subjects and objects. -/
def Graph.remap (m : UriMap) (g : Graph) : Graph := g.mapTerms (Term.remap m)

/-! ## Blank nodes -/

/-- The number of hexadecimal digits that a skolem fragment keeps of the hash. -/
def skolemDigits : Nat := 16

/-- The fragment that stands for a blank node: the start of the hash of its label. -/
def skolemFragment (label : String) : String :=
  "#_" ++ Text.toHex ((Blake3.hashBytes (Text.toUtf8 label)).take (skolemDigits / 2))

/-- Replaces a blank node by its fragment. -/
def Term.skolemize : Term → Term
  | .blank label => .iri (skolemFragment label)
  | t => t

/-- Replaces blank nodes in subjects and objects. -/
def Graph.skolemize (g : Graph) : Graph := g.mapTerms Term.skolemize

/-! ## Relative references -/

/-- Whether a reference is empty or a fragment. -/
def isRelative (iri : String) : Bool := iri.toList.head?.all (· = '#')

/-- Puts a relative reference behind a base. -/
def resolveIri (base iri : String) : String := if isRelative iri then base ++ iri else iri

def Term.resolve (base : String) (t : Term) : Term := t.mapIri (resolveIri base)

/-- Resolves relative references in subjects and objects. -/
def Graph.resolve (base : String) (g : Graph) : Graph := g.mapTerms (Term.resolve base)

/-! ## Bases -/

/-- Whether what follows a base leaves its last path segment whole. -/
def endsSegment (rest : List Char) : Bool :=
  match rest with
  | [] => true
  | c :: _ => c = '/' || c = '#'

/-- The URI below base `destination` for a URI below base `source`. Both bases are taken without
trailing slashes. -/
def rebase? (source destination uri : String) : Option String :=
  match Text.afterPrefix? (Text.trimSlashes source).toList uri.toList with
  | some rest =>
    if endsSegment rest then some (Text.trimSlashes destination ++ String.ofList rest) else none
  | none => none

theorem rebase?_eq_some_iff {source destination uri moved : String} :
    rebase? source destination uri = some moved ↔
      ∃ rest, endsSegment rest = true ∧ uri = Text.trimSlashes source ++ String.ofList rest ∧
        moved = Text.trimSlashes destination ++ String.ofList rest := by
  have split (rest : List Char) : uri = Text.trimSlashes source ++ String.ofList rest ↔
      uri.toList = (Text.trimSlashes source).toList ++ rest := by
    constructor
    · rintro rfl
      simp
    · intro h
      exact String.toList_injective (by simpa using h)
  unfold rebase?
  cases h : Text.afterPrefix? (Text.trimSlashes source).toList uri.toList with
  | none =>
    simp only [reduceCtorEq, false_iff]
    rintro ⟨rest, -, hr, -⟩
    rw [Text.afterPrefix?_eq_some_iff.mpr ((split rest).mp hr)] at h
    cases h
  | some rest =>
    have hu := Text.afterPrefix?_eq_some_iff.mp h
    constructor
    · intro hm
      by_cases he : endsSegment rest
      · exact ⟨rest, he, (split rest).mpr hu, by simpa [he, eq_comm] using hm⟩
      · simp [he] at hm
    · rintro ⟨rest', he, hr, rfl⟩
      have : rest' = rest := by
        have := (split rest').mp hr
        rw [hu] at this
        exact (List.append_cancel_left this).symm
      subst this
      simp [he]

/-- Moves a URI between bases and leaves one outside the first base alone. -/
def rebase (source destination uri : String) : String := (rebase? source destination uri).getD uri

/-- Moves the IRIs of subjects and objects between bases. -/
def Graph.rebase (source destination : String) (g : Graph) : Graph :=
  g.mapTerms (Term.mapIri (LinkedDeposit.rebase source destination))

end LinkedDeposit
