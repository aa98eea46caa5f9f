import LinkedDeposit.Proofs.Link.Rebase

/-!
# Fragments for blank nodes

An upload has a fragment for each of its blank nodes, and the fragment depends on the label alone.
Then relative references, the fragments among them, are put behind the URI of the resource. Both
steps work term by term on a set of triples, so they lose something where two terms become one.

The hash in a fragment is never opened here: all that is used of a fragment is that it begins with
`#`. What is needed of the labels of a graph is `HasOwnFragments`: no two of them share a fragment,
and none of the fragments is an IRI of the graph already. With the labels at hand, the graph can
then be read off its skolemization (`Graph.unskolemize`).

Results:
* `unskolemize_skolemize`: the labels bring the graph back.
* `hasBlank_skolemize`, `skolemize_skolemize`: no blank node is left, so once is enough.
* `resolveIri_injOn`: which IRIs stay apart when relative references are resolved.
* `skolemize_loses_nothing`: all of it.
-/

namespace LinkedDeposit

/-- The label of a blank node. -/
def Term.label? : Term → Option String
  | .blank label => some label
  | _ => none

/-- Puts the labels of blank nodes back for their fragments. -/
def Term.unskolemize (labels : List String) : Term → Term
  | .iri i =>
    match labels.find? (skolemFragment · = i) with
    | some label => .blank label
    | none => .iri i
  | t => t

namespace Graph

/-- The labels of the blank nodes in subject and object position. -/
def labels (g : Graph) : List String :=
  g.toList.flatMap fun t => [t.subject.label?, t.object.label?].filterMap id

def unskolemize (labels : List String) (g : Graph) : Graph := g.mapTerms (Term.unskolemize labels)

/-- The blank nodes of a graph have fragments of their own. -/
structure HasOwnFragments (g : Graph) : Prop where
  distinct : ∀ l ∈ g.labels, ∀ k ∈ g.labels, skolemFragment l = skolemFragment k → l = k
  unused : ∀ l ∈ g.labels, skolemFragment l ∉ g.iris

end Graph

/-- A term stands in subject or object position. -/
def Triple.Has (t : Triple) (u : Term) : Prop := u = t.subject ∨ u = t.object

theorem Graph.mem_labels {g : Graph} {l : String} : l ∈ g.labels ↔ ∃ t ∈ g, t.Has (.blank l) := by
  have labelled (t : Term) : some l = t.label? ↔ .blank l = t := by
    cases t with
    | iri i => simp [Term.label?]
    | blank label => simp [Term.label?]
    | literal text datatype language => simp [Term.label?]
  simp only [labels, List.mem_flatMap, List.mem_filterMap, List.mem_cons, List.not_mem_nil,
    or_false, id, exists_eq_right, labelled, Triple.Has, Graph.mem_def]

theorem Graph.mem_iris_of_has {g : Graph} {t : Triple} (ht : t ∈ g) {i : String}
    (has : t.Has (.iri i)) : i ∈ g.iris :=
  Graph.mem_iris.mpr ⟨t, ht, has.imp Eq.symm Eq.symm⟩

/-- Functions that agree on the terms of a triple agree on the triple. -/
theorem Triple.mapTerms_congr {f h : Term → Term} {t : Triple} (same : ∀ u, t.Has u → f u = h u) :
    t.mapTerms f = t.mapTerms h := by
  unfold mapTerms
  rw [same t.subject (.inl rfl), same t.object (.inr rfl)]

/-- A function that keeps the terms of two triples apart keeps the triples apart. -/
theorem Triple.mapTerms_injOn {f : Term → Term} {t u : Triple}
    (inj : ∀ a b, t.Has a → u.Has b → f a = f b → a = b) (same : t.mapTerms f = u.mapTerms f) :
    t = u := by
  obtain ⟨subject, predicate, object⟩ := Triple.mk.inj same
  have subject := inj _ _ (.inl rfl) (.inl rfl) subject
  have object := inj _ _ (.inr rfl) (.inr rfl) object
  cases t
  cases u
  simp_all

/-! ## Skolemization -/

section Fragments

variable {g : Graph} {t : Triple}

/-- The labels bring a term back. -/
theorem Term.unskolemize_skolemize (own : g.HasOwnFragments) (ht : t ∈ g) {u : Term}
    (has : t.Has u) : u.skolemize.unskolemize g.labels = u := by
  cases u with
  | iri i =>
    have none : g.labels.find? (skolemFragment · = i) = none := by
      refine List.find?_eq_none.mpr fun l hl same => own.unused l hl ?_
      rw [of_decide_eq_true same]
      exact Graph.mem_iris_of_has ht has
    simp only [skolemize, unskolemize, none]
  | blank label =>
    have listed : label ∈ g.labels := Graph.mem_labels.mpr ⟨t, ht, has⟩
    simp only [skolemize, unskolemize]
    cases found : g.labels.find? (skolemFragment · = skolemFragment label) with
    | none => exact absurd (decide_eq_true rfl) (List.find?_eq_none.mp found label listed)
    | some l =>
      have same : skolemFragment l = skolemFragment label := by
        simpa using List.find?_some found
      rw [own.distinct l (List.mem_of_find?_eq_some found) label listed same]
  | literal text datatype language => rfl

/-- **The labels bring the graph back.** -/
theorem Graph.unskolemize_skolemize (own : g.HasOwnFragments) :
    g.skolemize.unskolemize g.labels = g := by
  unfold skolemize unskolemize
  rw [mapTerms_mapTerms]
  refine mapTerms_eq_self fun t ht => ?_
  exact Triple.mapTerms_congr (h := id) fun u has => Term.unskolemize_skolemize own ht has

/-- No two triples become one. -/
theorem Graph.skolemize_injOn (own : g.HasOwnFragments) : ∀ t ∈ g, ∀ u ∈ g,
    t.mapTerms Term.skolemize = u.mapTerms Term.skolemize → t = u := by
  intro t ht u hu same
  refine Triple.mapTerms_injOn (fun a b ha hb merged => ?_) same
  rw [← Term.unskolemize_skolemize own ht ha, merged, Term.unskolemize_skolemize own hu hb]

theorem Term.isBlank_skolemize (t : Term) : t.skolemize.isBlank = false := by
  cases t <;> rfl

theorem Term.skolemize_of_not_isBlank {t : Term} (h : t.isBlank = false) : t.skolemize = t := by
  cases t with
  | iri i => rfl
  | blank label => cases h
  | literal text datatype language => rfl

/-- No blank node is left. -/
theorem Graph.hasBlank_skolemize (g : Graph) : g.skolemize.hasBlank = false := by
  refine List.any_eq_false.mpr fun t ht => ?_
  obtain ⟨u, -, rfl⟩ := Graph.mem_map.mp (Graph.mem_def.mpr ht)
  simp [Triple.mapTerms, Term.isBlank_skolemize]

/-- So skolemizing once is enough. -/
theorem Graph.skolemize_skolemize (g : Graph) : g.skolemize.skolemize = g.skolemize := by
  unfold skolemize
  rw [mapTerms_mapTerms]
  congr 1
  funext t
  exact Term.skolemize_of_not_isBlank t.isBlank_skolemize

end Fragments

/-! ## Relative references -/

section References

variable {g : Graph} {base : String}

/-- An IRI is the base or has a fragment behind it. -/
def LiesAt (base i : String) : Prop := i = base ∨ ∃ fragment, i = base ++ "#" ++ fragment

theorem liesAt_append {reference : String} (relative : isRelative reference = true)
    (base : String) : LiesAt base (base ++ reference) := by
  rcases isRelative_iff.mp relative with rfl | ⟨rest, hrest⟩
  · exact .inl (String.append_empty ..)
  · refine .inr ⟨String.ofList rest, ?_⟩
    rw [String.append_assoc, String.append_right_inj]
    exact String.toList_injective (by simp [hrest])

/-- **IRIs stay apart when references are resolved**, if those that are not relative do not lie at
the base. -/
theorem resolveIri_injOn {i j : String} (hi : isRelative i = true ∨ ¬LiesAt base i)
    (hj : isRelative j = true ∨ ¬LiesAt base j) (same : resolveIri base i = resolveIri base j) :
    i = j := by
  have apart {i j : String} (relative : isRelative i = true)
      (hj : isRelative j = true ∨ ¬LiesAt base j) (other : ¬isRelative j = true) (same : base ++ i = j) : i = j := by
    rcases hj with hj | hj
    · exact absurd hj other
    · exact absurd (same ▸ liesAt_append relative base) hj
  unfold resolveIri at same
  by_cases ri : isRelative i = true
  · rw [if_pos ri] at same
    by_cases rj : isRelative j = true
    · rw [if_pos rj] at same
      exact (String.append_right_inj _).mp same
    · rw [if_neg rj] at same
      exact apart ri hj rj same
  · rw [if_neg ri] at same
    by_cases rj : isRelative j = true
    · rw [if_pos rj] at same
      exact (apart rj hi ri same.symm).symm
    · rwa [if_neg rj] at same

/-- An IRI of a skolemized graph is a fragment, or was one of the graph. -/
theorem Graph.iri_of_mem_skolemize {t : Triple} (ht : t ∈ g.skolemize) {i : String}
    (has : t.Has (.iri i)) : isRelative i = true ∨ i ∈ g.iris := by
  obtain ⟨u, hu, rfl⟩ := Graph.mem_map.mp ht
  have came {v : Term} (hv : u.Has v) (made : .iri i = v.skolemize) :
      isRelative i = true ∨ i ∈ g.iris := by
    cases v with
    | iri j =>
      rw [Term.iri.inj made]
      exact .inr (Graph.mem_iris_of_has hu hv)
    | blank label =>
      rw [Term.iri.inj made]
      exact .inl (isRelative_skolemFragment label)
    | literal text datatype language => cases made
  rcases has with subject | object
  · exact came (.inl rfl) subject
  · exact came (.inr rfl) object

/-- No two triples become one when the references of an upload are resolved. -/
theorem Graph.resolve_injOn (apart : ∀ i ∈ g.iris, ¬LiesAt base i) :
    ∀ t ∈ g.skolemize, ∀ u ∈ g.skolemize,
      t.mapTerms (Term.resolve base) = u.mapTerms (Term.resolve base) → t = u := by
  have placed {t : Triple} (ht : t ∈ g.skolemize) {i : String} (has : t.Has (.iri i)) :
      isRelative i = true ∨ ¬LiesAt base i := (iri_of_mem_skolemize ht has).imp id (apart i)
  intro t ht u hu
  refine Triple.mapTerms_injOn fun a b ha hb => Term.mapIri_injOn fun i j hi hj => ?_
  subst hi hj
  exact resolveIri_injOn (placed ht ha) (placed hu hb)

end References

/-- **Skolemization loses nothing.** If the blank nodes of a graph have fragments of their own, no
two triples become one, so the graph keeps its size, and the labels bring it back. No blank node is
left, and to skolemize again changes nothing. Nor do triples become one when relative references are
put behind a URI, if no IRI of the graph is that URI or a fragment of it already. -/
theorem skolemize_loses_nothing (g : Graph) (own : g.HasOwnFragments) :
    (∀ t ∈ g, ∀ u ∈ g, t ≠ u → t.mapTerms Term.skolemize ≠ u.mapTerms Term.skolemize) ∧
    g.skolemize.size = g.size ∧
    g.skolemize.unskolemize g.labels = g ∧
    g.skolemize.hasBlank = false ∧
    g.skolemize.skolemize = g.skolemize ∧
    ∀ base, (∀ i ∈ g.iris, i ≠ base ∧ ∀ fragment, i ≠ base ++ "#" ++ fragment) →
      (∀ t ∈ g.skolemize, ∀ u ∈ g.skolemize, t ≠ u →
        t.mapTerms (Term.resolve base) ≠ u.mapTerms (Term.resolve base)) ∧
      (g.skolemize.resolve base).size = g.size := by
  have injOn := Graph.skolemize_injOn own
  have size : g.skolemize.size = g.size := Graph.size_map injOn
  refine ⟨fun t ht u hu => mt (injOn t ht u hu), size, Graph.unskolemize_skolemize own,
    g.hasBlank_skolemize, g.skolemize_skolemize, fun base apart => ?_⟩
  have away : ∀ i ∈ g.iris, ¬LiesAt base i := fun i hi lies =>
    lies.elim (apart i hi).1 fun ⟨fragment, h⟩ => (apart i hi).2 fragment h
  have resolved := Graph.resolve_injOn away
  exact ⟨fun t ht u hu => mt (resolved t ht u hu), (Graph.size_map resolved).trans size⟩

/-- Two blank nodes beside a fragment and a link of the graph's own. -/
def acquaintances : Graph :=
  Graph.ofList [⟨.blank "ada", "knows", .blank "bob"⟩, ⟨.iri "#_0", "knows", .iri "http://h/r"⟩,
    ⟨.iri "", "knows", .iri "#_0"⟩]

theorem skolemize_loses_nothing_acquaintances :
    let g := acquaintances
    g.hasBlank = true ∧ g.skolemize.hasBlank = false ∧ g.skolemize.size = 3 ∧
      g.skolemize.unskolemize g.labels = g ∧ (g.skolemize.resolve "http://h/r/1").size = 3 := by
  intro g
  have ada : skolemFragment "ada" = "#_1bed34efd6739275" := by decide +kernel
  have bob : skolemFragment "bob" = "#_e476f1b379438de7" := by decide +kernel
  have labels : g.labels = ["ada", "bob"] := by decide +kernel
  have iris : g.iris = ["", "#_0", "http://h/r"] := by decide +kernel
  have own : g.HasOwnFragments := by
    constructor
    · rw [labels]
      simp [ada, bob]
    · rw [labels, iris]
      simp [ada, bob]
  have apart : ∀ i ∈ g.iris, i ≠ "http://h/r/1" ∧
      ∀ fragment, i ≠ "http://h/r/1" ++ "#" ++ fragment := by
    intro i hi
    have short : i.length < "http://h/r/1".length := by
      rw [iris] at hi
      revert i
      decide +kernel
    refine ⟨fun same => ?_, fun fragment same => ?_⟩
    · rw [same] at short
      exact Nat.lt_irrefl _ short
    · rw [same, String.length_append, String.length_append] at short
      omega
  have size : g.size = 3 := by decide +kernel
  obtain ⟨-, kept, back, none, -, resolved⟩ := skolemize_loses_nothing g own
  exact ⟨by decide +kernel, none, kept.trans size, back, (resolved _ apart).2.trans size⟩

end LinkedDeposit
