import LinkedDeposit.Rdf.Turtle

/-!
# Patches

A patch names the triples to remove from a graph and the triples to add. Triples, not texts, are
compared, so a patch does not depend on how a graph was written.

* `applyTo_between`: the patch between two graphs turns the first into the second.
* `isEmpty_between`: it is empty exactly when they are equal.
-/

namespace LinkedDeposit

/-- Triples to add to and to remove from a graph. -/
structure Patch where
  added : Graph
  removed : Graph
  deriving DecidableEq, Inhabited

namespace Patch

/-- Whether the patch names no triple. -/
def isEmpty (p : Patch) : Bool := p.added.isEmpty && p.removed.isEmpty

/-- The number of triples named. -/
def size (p : Patch) : Nat := p.added.size + p.removed.size

/-- Removes what is to be removed, then adds what is to be added. -/
def applyTo (p : Patch) (g : Graph) : Graph := (g.diff p.removed).union p.added

/-- The patch from one graph to another. -/
def between (g h : Graph) : Patch := ⟨h.diff g, g.diff h⟩

/-- Applies a function to the terms of every named triple. -/
def mapTerms (f : Term → Term) (p : Patch) : Patch := ⟨p.added.mapTerms f, p.removed.mapTerms f⟩

/-- One block of a SPARQL update, absent when it names no triple. -/
def block (keyword : String) (g : Graph) : List String :=
  if g.isEmpty then [] else [keyword ++ " DATA \x7b\n" ++ g.toNTriples ++ "\x7d"]

/-- The patch as a SPARQL update, deletions first. An empty patch is the empty text. -/
def toSparql (p : Patch) : String :=
  String.intercalate " ;\n" (block "DELETE" p.removed ++ block "INSERT" p.added)

@[simp] theorem mem_applyTo {p : Patch} {g : Graph} {t : Triple} :
    t ∈ p.applyTo g ↔ (t ∈ g ∧ t ∉ p.removed) ∨ t ∈ p.added := by
  simp [applyTo]

theorem applyTo_between (g h : Graph) : (between g h).applyTo g = h := by
  refine Graph.ext fun t => ?_
  by_cases ht : t ∈ h
  · simp [between, ht, Classical.em]
  · simp [between, ht]

theorem isEmpty_between {g h : Graph} : (between g h).isEmpty = true ↔ g = h := by
  simp only [isEmpty, between, Bool.and_eq_true, Graph.isEmpty_iff]
  constructor
  · rintro ⟨ha, hr⟩
    refine Graph.ext fun t => ?_
    have ha : t ∉ h.diff g := by simp [ha]
    have hr : t ∉ g.diff h := by simp [hr]
    simp only [Graph.mem_diff] at ha hr
    grind
  · rintro rfl
    constructor <;> exact Graph.ext fun t => by simp

end Patch

end LinkedDeposit
