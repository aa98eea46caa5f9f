import LinkedDeposit.Proofs.Link.Settled
import LinkedDeposit.Proofs.Rdf.LeastPatch

/-!
# Which statements a remapping touches

When the links of a graph are remapped, a patch is sent and not the graph. Triples merge on the way,
or become triples that were there before, so what the patch names is not decided triple by triple.
It still is local: it removes only what mentions a local id, and adds only images of such triples
(`Triple.mentions`). So it can be applied to a graph that others have added to since it was read,
and what they have added is kept unless it is just what the patch removes.

Results:
* `Term.remap_of_not_mentions`: remapping is felt only where a local id is mentioned.
* `mem_removed_remap`, `mem_added_remap`: what the patch names.
* `remap_patch_local`.
-/

namespace LinkedDeposit

/-- Whether the term is an IRI whose part before the first `#` is a local id. -/
def Term.mentions (m : UriMap) (t : Term) : Bool :=
  t.iri?.any fun i => m.contains (splitFragment i).1

/-- Whether the subject or the object mentions a local id. -/
def Triple.mentions (m : UriMap) (t : Triple) : Bool := t.subject.mentions m || t.object.mentions m

/-- Replaces local ids in subject and object. -/
def Triple.remap (m : UriMap) (t : Triple) : Triple := t.mapTerms (Term.remap m)

section Locality

variable {m : UriMap} {g : Graph} {t : Triple}

theorem Term.remap_of_not_mentions {t : Term} (silent : t.mentions m = false) : t.remap m = t := by
  cases t with
  | iri i =>
    have unknown : m.get? (splitFragment i).1 = none := by
      simpa [mentions, iri?, Table.contains] using silent
    exact congrArg Term.iri (UriMap.remapIri_eq_self_iff.mpr (.inl unknown))
  | blank label => rfl
  | literal text datatype language => rfl

/-- **Remapping is felt only where a local id is mentioned.** -/
theorem Triple.remap_of_not_mentions (silent : t.mentions m = false) : t.remap m = t := by
  obtain ⟨subject, object⟩ := Bool.or_eq_false_iff.mp silent
  cases t
  unfold remap mapTerms
  rw [Term.remap_of_not_mentions subject, Term.remap_of_not_mentions object]

theorem Graph.mem_remap : t ∈ g.remap m ↔ ∃ u ∈ g, u.remap m = t := Graph.mem_map

/-- What is removed was there, and is the image of nothing that was there. -/
theorem mem_removed_remap : t ∈ (Patch.between g (g.remap m)).removed ↔
    t ∈ g ∧ ∀ u ∈ g, u.remap m ≠ t := by
  rw [Patch.mem_removed_between, Graph.mem_remap]
  simp only [not_exists, not_and, ne_eq]

/-- What is added was not there, and is the image of something that mentions a local id. -/
theorem mem_added_remap : t ∈ (Patch.between g (g.remap m)).added ↔
    t ∉ g ∧ ∃ u ∈ g, u.mentions m = true ∧ u.remap m = t := by
  rw [Patch.mem_added_between, Graph.mem_remap]
  constructor
  · rintro ⟨⟨u, hu, rfl⟩, new⟩
    refine ⟨new, u, hu, ?_, rfl⟩
    cases silent : u.mentions m with
    | true => rfl
    | false =>
      rw [Triple.remap_of_not_mentions silent] at new
      exact absurd hu new
  · rintro ⟨new, u, hu, -, rfl⟩
    exact ⟨⟨u, hu, rfl⟩, new⟩

/-- What mentions no local id is not removed. -/
theorem not_mem_removed_of_not_mentions (silent : t.mentions m = false) :
    t ∉ (Patch.between g (g.remap m)).removed := by
  intro removed
  obtain ⟨there, lost⟩ := mem_removed_remap.mp removed
  exact lost t there (Triple.remap_of_not_mentions silent)

end Locality

/-- **A remapping touches only what mentions a local id.** The patch that remaps the links of a
graph does not remove a triple that mentions none, from this graph or from any other; all that it
adds are images of triples that mention one. Applied to the graph with more in it, it gives the
remapped graph with the same more in it, as far as the patch does not remove it. -/
theorem remap_patch_local (m : UriMap) (g : Graph) :
    let p := Patch.between g (g.remap m)
    (∀ t, t.mentions m = false → t ∉ p.removed ∧ ∀ h : Graph, t ∈ h → t ∈ p.applyTo h) ∧
      (∀ t ∈ p.added, ∃ u ∈ g, u.mentions m = true ∧ u.remap m = t) ∧
      ∀ c : Graph, p.applyTo (g.union c) = (g.remap m).union (c.diff p.removed) ∧
        ((∀ t ∈ c, t ∉ p.removed) → p.applyTo (g.union c) = (g.remap m).union c) := by
  intro p
  refine ⟨fun t silent => ?_, fun t added => (mem_added_remap.mp added).2, fun c => ?_⟩
  · have spared : t ∉ p.removed := not_mem_removed_of_not_mentions silent
    exact ⟨spared, fun h there => Patch.mem_applyTo.mpr (.inl ⟨there, spared⟩)⟩
  · have general := Patch.applyTo_between_union g (g.remap m) c
    refine ⟨general, fun apart => ?_⟩
    have whole : c.diff p.removed = c :=
      Graph.ext fun t =>
        ⟨fun h => (Graph.mem_diff.mp h).1, fun h => Graph.mem_diff.mpr ⟨h, apart t h⟩⟩
    exact general.trans (congrArg _ whole)

/-- Two ids are exchanged, so that one statement takes the place of the other, while a server notes
a child. -/
theorem remap_patch_local_exchange :
    let m : UriMap := Table.ofList [("a", "b"), ("b", "a"), ("c", "r/3")]
    let triple (s o : String) : Triple := ⟨.iri s, "p", .iri o⟩
    let g := Graph.ofList [triple "a" "b", triple "b" "a", triple "a#x" "c", triple "r" "q"]
    let noted := Graph.ofList [triple "r" "r/4"]
    let p := Patch.between g (g.remap m)
    p = ⟨.ofList [triple "b#x" "r/3"], .ofList [triple "a#x" "c"]⟩ ∧
      (triple "r" "q").mentions m = false ∧ (triple "r" "q") ∈ p.applyTo g ∧
      p.applyTo (g.union noted) = (g.remap m).union noted := by
  intro m triple g noted p
  have silent : (triple "r" "q").mentions m = false := by decide +kernel
  have apart : ∀ t ∈ noted, t ∉ p.removed := by decide +kernel
  have holds := remap_patch_local m g
  exact ⟨by decide +kernel, silent, (holds.1 _ silent).2 g (by decide +kernel),
    (holds.2.2 noted).2 apart⟩

end LinkedDeposit
