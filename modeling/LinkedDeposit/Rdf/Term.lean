/-!
# RDF terms and triples

Terms are compared as they are spelled: no literal and no blank label is brought to a normal form.
Terms are ordered by their form, IRIs before blank nodes before literals, then by their text;
literals of one text by datatype, then by language, where an absent one comes first. Triples are
ordered by subject, predicate and object.
-/

namespace LinkedDeposit

/-- A node or value in a triple. -/
inductive Term where
  /-- An absolute or fragment-relative IRI. -/
  | iri (iri : String)
  /-- A blank node, by its label without the leading `_:`. -/
  | blank (label : String)
  /-- A literal: its text, and a datatype and a language where they are given. -/
  | literal (text : String) (datatype : Option String) (language : Option String)
  deriving DecidableEq, Repr, Inhabited

namespace Term

/-- A literal with neither datatype nor language. -/
def plain (text : String) : Term := .literal text none none

/-- A literal with a datatype. -/
def typed (text datatype : String) : Term := .literal text (some datatype) none

/-- A literal with a language. -/
def inLanguage (text language : String) : Term := .literal text none (some language)

/-- The IRI of an IRI term. -/
def iri? : Term → Option String
  | .iri i => some i
  | _ => none

def isBlank : Term → Bool
  | .blank _ => true
  | _ => false

/-- Applies `f` to the IRI of an IRI term and leaves other terms alone. -/
def mapIri (f : String → String) : Term → Term
  | .iri i => .iri (f i)
  | t => t

/-! ## Order -/

/-- The rank of a form: IRI, blank node, literal. -/
def rank : Term → Nat
  | .iri _ => 0
  | .blank _ => 1
  | .literal .. => 2

/-- The IRI, label or text. -/
def text : Term → String
  | .iri i => i
  | .blank l => l
  | .literal t _ _ => t

def datatype? : Term → Option String
  | .literal _ d _ => d
  | _ => none

def language? : Term → Option String
  | .literal _ _ l => l
  | _ => none

instance : Ord Term where
  compare := compareLex (compareOn rank) <| compareLex (compareOn text) <|
    compareLex (compareOn datatype?) (compareOn language?)

instance : Std.TransOrd Term :=
  inferInstanceAs (Std.TransCmp (compareLex (compareOn rank) <| compareLex (compareOn text) <|
    compareLex (compareOn datatype?) (compareOn language?)))

instance : Std.LawfulEqOrd Term where
  eq_of_compare {a b} h := by
    change compareLex (compareOn rank) (compareLex (compareOn text) (compareLex
      (compareOn datatype?) (compareOn language?))) a b = .eq at h
    simp only [compareLex_eq_eq] at h
    obtain ⟨hr, ht, hd, hl⟩ := h
    have hr : a.rank = b.rank := Std.LawfulEqOrd.eq_of_compare hr
    have ht : a.text = b.text := Std.LawfulEqOrd.eq_of_compare ht
    have hd : a.datatype? = b.datatype? := Std.LawfulEqOrd.eq_of_compare hd
    have hl : a.language? = b.language? := Std.LawfulEqOrd.eq_of_compare hl
    cases a <;> cases b <;> simp_all [rank, text, datatype?, language?]

end Term

/-- A subject-predicate-object statement. -/
structure Triple where
  subject : Term
  predicate : String
  object : Term
  deriving DecidableEq, Repr, Inhabited

namespace Triple

instance : Ord Triple where
  compare := compareLex (compareOn subject) <| compareLex (compareOn predicate) (compareOn object)

instance : Std.TransOrd Triple :=
  inferInstanceAs (Std.TransCmp (compareLex (compareOn subject) <|
    compareLex (compareOn predicate) (compareOn object)))

instance : Std.LawfulEqOrd Triple where
  eq_of_compare {a b} h := by
    change compareLex (compareOn subject) (compareLex (compareOn predicate)
      (compareOn object)) a b = .eq at h
    simp only [compareLex_eq_eq] at h
    obtain ⟨hs, hp, ho⟩ := h
    have hs : a.subject = b.subject := Std.LawfulEqOrd.eq_of_compare hs
    have hp : a.predicate = b.predicate := Std.LawfulEqOrd.eq_of_compare hp
    have ho : a.object = b.object := Std.LawfulEqOrd.eq_of_compare ho
    cases a
    cases b
    simp_all

/-- Applies `f` to subject and object; the predicate stays. -/
def mapTerms (f : Term → Term) (t : Triple) : Triple :=
  { t with subject := f t.subject, object := f t.object }

end Triple

end LinkedDeposit
