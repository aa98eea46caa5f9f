import LinkedDeposit.Proofs.Link.Rebase

/-!
# Remapping a second time

A graph that has been remapped is left alone by the same map if what it was mapped to is not moved
on. The map of a deposit is of this kind, since new URIs are no local ids; a map that exchanges two
ids, or sends one along a chain, is not. A URI is only ever looked up by the part before its first
`#`, so a key with a `#` says nothing, and a mapped URI counts by its base (`UriMap.Settles`).

Results:
* `remapIri_eq_self_iff`: an IRI stays where it is exactly if its base does.
* `remapIri_remapIri_iff`: which IRIs are remapped at once.
* `remap_remap_iff`: a map that remaps every graph at once, in terms of its entries alone.
-/

namespace LinkedDeposit

/-- A fragment put behind a URI goes on with the fragment that is there. -/
theorem splitFragment_append_fragment (uri : String) {i : String} (relative : isRelative i = true) :
    splitFragment (uri ++ i) = ((splitFragment uri).1, (splitFragment uri).2 ++ i) := by
  have joined : isRelative ((splitFragment uri).2 ++ i) = true := by
    rcases isRelative_iff.mp (isRelative_fragment uri) with none | ⟨rest, text⟩
    · rwa [none, String.empty_append]
    · exact isRelative_iff.mpr (.inr ⟨rest ++ i.toList, by simp [text]⟩)
  have parts : uri ++ i = (splitFragment uri).1 ++ ((splitFragment uri).2 ++ i) := by
    rw [← String.append_assoc, splitFragment_append]
  rw [parts]
  exact splitFragment_append_relative (plain_fst_splitFragment uri) joined

namespace UriMap

variable {m : UriMap}

/-- The map does not move a base: it is no local id, or stands for itself. -/
def Settles (m : UriMap) (base : String) : Prop := m.get? base = none ∨ m.get? base = some base

theorem remapIri_of_get? {i uri : String} (known : m.get? (splitFragment i).1 = some uri) :
    m.remapIri i = uri ++ (splitFragment i).2 := by
  unfold remapIri
  simp only [known]

/-- An IRI stays where it is exactly if its base does. -/
theorem remapIri_eq_self_iff {i : String} :
    m.remapIri i = i ↔ m.Settles (splitFragment i).1 := by
  unfold Settles
  cases known : m.get? (splitFragment i).1 with
  | none =>
    unfold remapIri
    simp only [known, true_or]
  | some uri =>
    rw [remapIri_of_get? known]
    constructor
    · intro same
      have parts := same.trans (splitFragment_append i).symm
      exact .inr (congrArg some (String.append_left_inj _ |>.mp parts))
    · rintro (unknown | self)
      · cases unknown
      · rw [Option.some.inj self, splitFragment_append]

/-- **An IRI is remapped at once** exactly if the base of the URI that its own base is mapped to
stays where it is. -/
theorem remapIri_remapIri_iff {i : String} : m.remapIri (m.remapIri i) = m.remapIri i ↔
    ∀ uri, m.get? (splitFragment i).1 = some uri → m.Settles (splitFragment uri).1 := by
  rw [remapIri_eq_self_iff]
  cases known : m.get? (splitFragment i).1 with
  | none =>
    have stays : m.remapIri i = i := remapIri_eq_self_iff.mpr (.inl known)
    rw [stays]
    exact ⟨fun _ _ h => (nomatch h), fun _ => .inl known⟩
  | some uri =>
    rw [remapIri_of_get? known, splitFragment_append_fragment uri (isRelative_fragment i)]
    constructor
    · rintro settled _ ⟨⟩
      exact settled
    · intro settled
      exact settled uri rfl

end UriMap

namespace Graph

/-- A graph that says one thing about one IRI. -/
def about (i : String) : Graph := .ofList [⟨.iri i, "", .plain ""⟩]

theorem mem_about {i : String} {t : Triple} : t ∈ about i ↔ t = ⟨.iri i, "", .plain ""⟩ := by
  rw [about, mem_ofList, List.mem_singleton]

theorem about_injective : Function.Injective about := by
  intro i j same
  have told : (⟨.iri i, "", .plain ""⟩ : Triple) ∈ about j := same ▸ mem_about.mpr rfl
  exact Term.iri.inj (congrArg Triple.subject (mem_about.mp told))

theorem remap_about (m : UriMap) (i : String) : (about i).remap m = about (m.remapIri i) := by
  refine ext fun t => ?_
  rw [remap, mapTerms, mem_map, mem_about]
  constructor
  · rintro ⟨u, hu, rfl⟩
    rw [mem_about.mp hu]
    rfl
  · rintro rfl
    exact ⟨_, mem_about.mpr rfl, rfl⟩

/-- A map remaps every graph at once exactly if it remaps every IRI at once. -/
theorem remap_remap_iff_remapIri {m : UriMap} :
    (∀ g : Graph, (g.remap m).remap m = g.remap m) ↔
      ∀ i, m.remapIri (m.remapIri i) = m.remapIri i := by
  constructor
  · intro once i
    have same := once (about i)
    rw [remap_about, remap_about] at same
    exact about_injective same
  · intro once g
    unfold remap
    rw [mapTerms_mapTerms]
    congr 1
    funext t
    cases t with
    | iri i => exact congrArg Term.iri (once i)
    | blank label => rfl
    | literal text datatype language => rfl

end Graph

/-- **When remapping is idempotent.** A map remaps every graph at once exactly if, for each of its
local ids without a `#`, the base of the URI that it is mapped to is no local id or is mapped to
itself. In particular, if no base of a mapped URI is a local id, then remapping a remapped graph
changes nothing. -/
theorem remap_remap_iff (m : UriMap) :
    ((∀ g : Graph, (g.remap m).remap m = g.remap m) ↔
      ∀ id uri, '#' ∉ id.toList → m.get? id = some uri →
        m.get? (splitFragment uri).1 = none ∨
          m.get? (splitFragment uri).1 = some (splitFragment uri).1) ∧
    ((∀ id uri, m.get? id = some uri → m.get? (splitFragment uri).1 = none) →
      ∀ g : Graph, (Patch.between (g.remap m) ((g.remap m).remap m)).isEmpty = true) := by
  have settles : (∀ g : Graph, (g.remap m).remap m = g.remap m) ↔
      ∀ id uri, '#' ∉ id.toList → m.get? id = some uri → m.Settles (splitFragment uri).1 := by
    rw [Graph.remap_remap_iff_remapIri]
    constructor
    · intro once id uri plain known
      refine UriMap.remapIri_remapIri_iff.mp (once id) uri ?_
      rwa [splitFragment_plain plain]
    · intro settled i
      refine UriMap.remapIri_remapIri_iff.mpr fun uri known => ?_
      exact settled _ uri (plain_fst_splitFragment i) known
  refine ⟨settles, fun foreign g => ?_⟩
  have once := settles.mpr fun id uri _ known => .inl (foreign id uri known)
  exact Patch.isEmpty_between.mpr (once g).symm

/-- New URIs are no local ids, also where one has a fragment; exchanged ids are. -/
theorem remap_remap_iff_deposited :
    let deposited : UriMap := Table.ofList [("a", "r/1"), ("b", "r/2#b")]
    let exchanged : UriMap := Table.ofList [("a", "b"), ("b", "a")]
    (∀ id uri, deposited.get? id = some uri → deposited.get? (splitFragment uri).1 = none) ∧
      (∀ g : Graph, (g.remap deposited).remap deposited = g.remap deposited) ∧
      (∀ g : Graph, (Patch.between (g.remap deposited)
        ((g.remap deposited).remap deposited)).isEmpty = true) ∧
      ¬ ∀ g : Graph, (g.remap exchanged).remap exchanged = g.remap exchanged := by
  intro deposited exchanged
  have listed : ∀ e ∈ deposited.entries, deposited.get? (splitFragment e.2).1 = none := by
    decide +kernel
  have foreign (id uri : String) (known : deposited.get? id = some uri) :
      deposited.get? (splitFragment uri).1 = none :=
    listed (id, uri) (Table.mem_entries_iff.mpr known)
  refine ⟨foreign, ?_, (remap_remap_iff deposited).2 foreign, fun once => ?_⟩
  · exact (remap_remap_iff deposited).1.mpr fun id uri _ known => .inl (foreign id uri known)
  · have settled := (remap_remap_iff exchanged).1.mp once "a" "b" (by decide) (by decide +kernel)
    revert settled
    decide +kernel

end LinkedDeposit
