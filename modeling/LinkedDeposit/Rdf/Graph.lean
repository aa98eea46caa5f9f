import LinkedDeposit.Ascending
import LinkedDeposit.Rdf.Term

/-!
# Graphs

A graph is a finite set of triples, listed in their order. The order is part of the type, so
graphs with the same triples are equal (`Graph.ext`).

`mem_insert`, `mem_erase`, `mem_diff`, `mem_union` and `mem_map` say what each operation does to
membership; nothing else about an operation can be observed.
-/

namespace LinkedDeposit

/-- A finite set of triples, listed in ascending order. -/
structure Graph where
  toList : List Triple
  ascending : Ascending.IsAscending toList
  deriving DecidableEq

namespace Graph

instance : Membership Triple Graph := ⟨fun g t => t ∈ g.toList⟩

theorem mem_def {g : Graph} {t : Triple} : t ∈ g ↔ t ∈ g.toList := Iff.rfl

instance (t : Triple) (g : Graph) : Decidable (t ∈ g) := inferInstanceAs (Decidable (t ∈ g.toList))

/-- The graph without triples. -/
def empty : Graph := ⟨[], List.Pairwise.nil⟩

instance : EmptyCollection Graph := ⟨empty⟩
instance : Inhabited Graph := ⟨empty⟩

/-- The set of the triples of a list. -/
def ofList (l : List Triple) : Graph := ⟨Ascending.ofList l, Ascending.pairwise_ofList l⟩

def insert (g : Graph) (t : Triple) : Graph :=
  ⟨Ascending.insert t g.toList, Ascending.pairwise_insert g.ascending⟩

def erase (g : Graph) (t : Triple) : Graph :=
  ⟨g.toList.filter (· ≠ t), g.ascending.filter _⟩

/-- The triples of `g` that are not in `h`. -/
def diff (g h : Graph) : Graph :=
  ⟨g.toList.filter (· ∉ h), g.ascending.filter _⟩

/-- The triples of either graph. -/
def union (g h : Graph) : Graph :=
  ⟨h.toList.foldr Ascending.insert g.toList, by
    induction h.toList with
    | nil => exact g.ascending
    | cons t l ih => exact Ascending.pairwise_insert ih⟩

/-- The image of the graph under `f`; triples with one image merge. -/
def map (f : Triple → Triple) (g : Graph) : Graph := ofList (g.toList.map f)

/-- Applies a function to the subject and object of every triple. -/
def mapTerms (f : Term → Term) (g : Graph) : Graph := g.map (Triple.mapTerms f)

def size (g : Graph) : Nat := g.toList.length

def isEmpty (g : Graph) : Bool := g.toList.isEmpty

/-- Whether a blank node stands in subject or object position. -/
def hasBlank (g : Graph) : Bool := g.toList.any fun t => t.subject.isBlank || t.object.isBlank

/-- The IRIs in subject and object position, ascending. -/
def iris (g : Graph) : List String :=
  Ascending.ofList (g.toList.flatMap fun t => [t.subject.iri?, t.object.iri?].filterMap id)

/-! ## Membership -/

/-- A graph is determined by its triples. -/
theorem ext {g h : Graph} (hm : ∀ t, t ∈ g ↔ t ∈ h) : g = h := by
  have : g.toList = h.toList := Ascending.ext g.ascending h.ascending hm
  cases g
  cases h
  simp_all

@[simp] theorem not_mem_empty (t : Triple) : t ∉ empty := by simp [mem_def, empty]

@[simp] theorem mem_ofList {l : List Triple} {t : Triple} : t ∈ ofList l ↔ t ∈ l :=
  Ascending.mem_ofList

@[simp] theorem mem_insert {g : Graph} {t u : Triple} : u ∈ g.insert t ↔ u = t ∨ u ∈ g :=
  Ascending.mem_insert

@[simp] theorem mem_erase {g : Graph} {t u : Triple} : u ∈ g.erase t ↔ u ∈ g ∧ u ≠ t := by
  simp [mem_def, erase]

@[simp] theorem mem_diff {g h : Graph} {t : Triple} : t ∈ g.diff h ↔ t ∈ g ∧ t ∉ h := by
  simp [mem_def, diff]

@[simp] theorem mem_union {g h : Graph} {t : Triple} : t ∈ g.union h ↔ t ∈ g ∨ t ∈ h := by
  simp only [mem_def, union]
  induction h.toList with
  | nil => simp
  | cons a l ih => simp only [List.foldr_cons, Ascending.mem_insert, ih, List.mem_cons]; grind

@[simp] theorem mem_map {f : Triple → Triple} {g : Graph} {t : Triple} :
    t ∈ g.map f ↔ ∃ u ∈ g, f u = t := by
  simp [map, mem_def (g := g)]

theorem isEmpty_iff {g : Graph} : g.isEmpty = true ↔ g = empty := by
  constructor
  · intro h
    refine ext fun t => ?_
    simp [mem_def, List.isEmpty_iff.mp h, empty]
  · rintro rfl
    rfl

end Graph

end LinkedDeposit
