import LinkedDeposit.Error
import LinkedDeposit.Text.Quoted

/-!
# IRIs that can be written

Turtle and SPARQL write an IRI between angle brackets. `checkIri` admits exactly the IRIs without a
character that may not stand there (`checkIri_eq_ok_iff`), so a written IRI ends where it should.
-/

namespace LinkedDeposit

/-- Whether a character is one of the controls of ASCII or Latin-1. -/
def isControl (c : Char) : Bool := c.toNat < 0x20 || (0x7F ≤ c.toNat && c.toNat < 0xA0)

/-- Whether a character may not stand between angle brackets. -/
def isIllegalInIri (c : Char) : Bool :=
  isControl c || c ∈ [' ', '<', '>', '"', '\x7b', '\x7d', '|', '^', '`', '\\']

/-- Refuses an IRI at its first illegal character. -/
def checkIri (iri : String) : Except DepositError Unit :=
  match iri.toList.find? isIllegalInIri with
  | some c => .error (.invalidPackage
      ("IRI " ++ Text.quoted iri ++ " contains illegal character " ++ Text.quotedSingle c))
  | none => .ok ()

theorem checkIri_eq_ok_iff {iri : String} :
    checkIri iri = .ok () ↔ ∀ c ∈ iri.toList, isIllegalInIri c = false := by
  unfold checkIri
  cases h : iri.toList.find? isIllegalInIri with
  | some c =>
    simp only [reduceCtorEq, false_iff]
    intro hall
    have := List.find?_some h
    simp [hall c (List.mem_of_find?_eq_some h)] at this
  | none => simpa using h

end LinkedDeposit
