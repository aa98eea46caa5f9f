import LinkedDeposit.Proofs.Link.Rewrite
import LinkedDeposit.Rdf.Patch

/-!
# Graphs between two bases

A session with a transaction moves URIs from the base of the repository to that of the transaction
on their way out, and back on their way in. Neither move is injective: a URI that is below the other
base already stays where it is. `isBelow` says which URIs a move takes along, and the results say on
which URIs the two moves undo each other.

Results:
* `rebase_rebase`: what is below the first base only if it is below the second comes back.
* `rebase_injOn`: where a move from the second base to the first ends, no two URIs are moved to one.
* `Patch.rebase_applyTo`: so a patch may be applied before the move or after it.
-/

namespace LinkedDeposit

/-- Whether a URI is below a base, which is taken without trailing slashes. -/
def isBelow (base uri : String) : Bool :=
  (Text.afterPrefix? (Text.trimSlashes base).toList uri.toList).any endsSegment

section Uris

variable {base tx i j : String}

theorem isBelow_eq_isSome (source destination uri : String) :
    isBelow source uri = (rebase? source destination uri).isSome := by
  unfold isBelow rebase?
  cases Text.afterPrefix? (Text.trimSlashes source).toList uri.toList with
  | none => rfl
  | some rest =>
    by_cases he : endsSegment rest = true
    · simp [he]
    · simp [he]

/-- What is below a base is moved with the rest of it. -/
theorem exists_of_isBelow (h : isBelow base i = true) :
    ∃ rest, endsSegment rest = true ∧ i = Text.trimSlashes base ++ String.ofList rest := by
  rw [isBelow_eq_isSome base base, Option.isSome_iff_exists] at h
  obtain ⟨moved, hm⟩ := h
  obtain ⟨rest, he, hi, -⟩ := rebase?_eq_some_iff.mp hm
  exact ⟨rest, he, hi⟩

theorem rebase_append {rest : List Char} (he : endsSegment rest = true) (base tx : String) :
    rebase base tx (Text.trimSlashes base ++ String.ofList rest) =
      Text.trimSlashes tx ++ String.ofList rest := by
  rw [rebase, rebase?_eq_some_iff.mpr ⟨rest, he, rfl, rfl⟩]
  rfl

theorem isBelow_append {rest : List Char} (he : endsSegment rest = true) (base : String) :
    isBelow base (Text.trimSlashes base ++ String.ofList rest) = true := by
  rw [isBelow_eq_isSome base base, rebase?_eq_some_iff.mpr ⟨rest, he, rfl, rfl⟩]
  rfl

/-- What is not below a base stays. -/
theorem rebase_of_not_isBelow (h : isBelow base i = false) (tx : String) :
    rebase base tx i = i := by
  rw [isBelow_eq_isSome base tx, Option.isSome_eq_false_iff, Option.isNone_iff_eq_none] at h
  rw [rebase, h]
  rfl

/-- **A URI comes back from the first base** to the second, if it was not below the first alone. -/
theorem rebase_rebase (known : isBelow base i = true → isBelow tx i = true) :
    rebase base tx (rebase tx base i) = i := by
  cases h : isBelow tx i with
  | true =>
    obtain ⟨rest, he, rfl⟩ := exists_of_isBelow h
    rw [rebase_append he tx base, rebase_append he base tx]
  | false =>
    rw [rebase_of_not_isBelow h base]
    refine rebase_of_not_isBelow ?_ tx
    cases hb : isBelow base i with
    | true =>
      rw [known hb] at h
      cases h
    | false => rfl

/-- Where the move from the second base to the first ends: below the first, or not below the second.
-/
def Lands (base tx i : String) : Prop := isBelow base i = true ∨ isBelow tx i = false

theorem lands_rebase (base tx i : String) : Lands base tx (rebase tx base i) := by
  cases h : isBelow tx i with
  | true =>
    obtain ⟨rest, he, rfl⟩ := exists_of_isBelow h
    rw [rebase_append he tx base]
    exact .inl (isBelow_append he base)
  | false =>
    rw [rebase_of_not_isBelow h base]
    exact .inr h

/-- What is moved to the second base is below it, and what stays is not. -/
theorem isBelow_rebase (h : Lands base tx i) : isBelow tx (rebase base tx i) = isBelow base i := by
  cases hb : isBelow base i with
  | true =>
    obtain ⟨rest, he, rfl⟩ := exists_of_isBelow hb
    rw [rebase_append he base tx]
    exact isBelow_append he tx
  | false =>
    rw [rebase_of_not_isBelow hb tx]
    rcases h with h | h
    · rw [h] at hb
      cases hb
    · exact h

/-- **No two of these URIs are moved to one.** -/
theorem rebase_injOn (hi : Lands base tx i) (hj : Lands base tx j)
    (same : rebase base tx i = rebase base tx j) : i = j := by
  have both : isBelow base i = isBelow base j := by
    rw [← isBelow_rebase hi, ← isBelow_rebase hj, same]
  cases hb : isBelow base i with
  | true =>
    obtain ⟨rest, he, rfl⟩ := exists_of_isBelow hb
    rw [hb] at both
    obtain ⟨rest', he', rfl⟩ := exists_of_isBelow both.symm
    rw [rebase_append he base tx, rebase_append he' base tx] at same
    have : String.ofList rest = String.ofList rest' := (String.append_right_inj _).mp same
    rw [this]
  | false =>
    rw [hb] at both
    rwa [rebase_of_not_isBelow hb tx, rebase_of_not_isBelow both.symm tx] at same

end Uris

/-! ## Terms and triples -/

/-- A function that does not merge two IRIs does not merge the terms. -/
theorem Term.mapIri_injOn {f : String → String} {t u : Term}
    (inj : ∀ i j, t = .iri i → u = .iri j → f i = f j → i = j) (same : t.mapIri f = u.mapIri f) :
    t = u := by
  cases t with
  | iri i =>
    cases u with
    | iri j => rw [inj i j rfl rfl (Term.iri.inj same)]
    | blank label => cases same
    | literal text datatype language => cases same
  | blank label =>
    cases u with
    | iri j => cases same
    | blank label' => exact same
    | literal text datatype language => cases same
  | literal text datatype language =>
    cases u with
    | iri j => cases same
    | blank label => cases same
    | literal text' datatype' language' => exact same

/-- An IRI stands in subject or object position. -/
def Triple.Names (t : Triple) (i : String) : Prop := t.subject = .iri i ∨ t.object = .iri i

theorem Graph.mem_iris {g : Graph} {i : String} : i ∈ g.iris ↔ ∃ t ∈ g, t.Names i := by
  have named (t : Term) : some i = t.iri? ↔ t = .iri i := by
    cases t with
    | iri j => simp [Term.iri?, eq_comm]
    | blank label => simp [Term.iri?]
    | literal text datatype language => simp [Term.iri?]
  simp only [iris, Ascending.mem_ofList, List.mem_flatMap, List.mem_filterMap, List.mem_cons,
    List.not_mem_nil, or_false, id, exists_eq_right, named, Triple.Names, Graph.mem_def]

/-! ## Graphs -/

theorem Graph.mapTerms_eq_self {f : Term → Term} {g : Graph} (h : ∀ t ∈ g, t.mapTerms f = t) :
    g.mapTerms f = g := by
  refine Graph.ext fun t => ?_
  rw [mapTerms, mem_map]
  constructor
  · rintro ⟨u, hu, rfl⟩
    rwa [h u hu]
  · intro ht
    exact ⟨t, ht, h t ht⟩

/-- A patch may be applied before a function on terms or after it, if the function keeps the triples
of the graph apart from those that are removed. -/
theorem Patch.mapTerms_applyTo {f : Term → Term} {p : Patch} {g : Graph}
    (apart : ∀ t ∈ g, ∀ u ∈ p.removed, t.mapTerms f = u.mapTerms f → t = u) :
    (p.applyTo g).mapTerms f = (p.mapTerms f).applyTo (g.mapTerms f) := by
  refine Graph.ext fun t => ?_
  simp only [Graph.mapTerms, Graph.mem_map, Patch.mem_applyTo, Patch.mapTerms]
  constructor
  · rintro ⟨u, ⟨hu, kept⟩ | hu, rfl⟩
    · refine .inl ⟨⟨u, hu, rfl⟩, ?_⟩
      rintro ⟨v, hv, same⟩
      rw [apart u hu v hv same.symm] at kept
      exact kept hv
    · exact .inr ⟨u, hu, rfl⟩
  · rintro (⟨⟨u, hu, rfl⟩, kept⟩ | ⟨u, hu, rfl⟩)
    · exact ⟨u, .inl ⟨hu, fun hr => kept ⟨u, hr, rfl⟩⟩, rfl⟩
    · exact ⟨u, .inr hu, rfl⟩

section Moves

variable {base tx : String}

/-- A graph comes back from the first base. -/
theorem Graph.rebase_rebase {g : Graph}
    (known : ∀ i ∈ g.iris, isBelow base i = true → isBelow tx i = true) :
    (g.rebase tx base).rebase base tx = g := by
  unfold Graph.rebase
  rw [mapTerms_mapTerms]
  refine mapTerms_eq_self fun t ht => ?_
  have back (u : Term) (hu : ∀ i, u = .iri i → t.Names i) :
      (u.mapIri (LinkedDeposit.rebase tx base)).mapIri (LinkedDeposit.rebase base tx) = u := by
    cases u with
    | iri i =>
      have listed : i ∈ g.iris := Graph.mem_iris.mpr ⟨t, ht, hu i rfl⟩
      exact congrArg Term.iri (LinkedDeposit.rebase_rebase (known i listed))
    | blank label => rfl
    | literal text datatype language => rfl
  have subject := back t.subject fun i hi => .inl hi
  have object := back t.object fun i hi => .inr hi
  unfold Triple.mapTerms
  dsimp only
  rw [subject, object]

/-- Every IRI of a graph that was moved to the first base has landed. -/
theorem Graph.lands_of_mem_rebase {g : Graph} {t : Triple} (ht : t ∈ g.rebase tx base) {i : String}
    (hi : t.Names i) : Lands base tx i := by
  obtain ⟨u, -, rfl⟩ := Graph.mem_map.mp ht
  have landed (v : Term) (hv : v.mapIri (LinkedDeposit.rebase tx base) = .iri i) :
      Lands base tx i := by
    cases v with
    | iri j =>
      rw [← Term.iri.inj hv]
      exact lands_rebase base tx j
    | blank label => cases hv
    | literal text datatype language => cases hv
  rcases hi with hi | hi
  · exact landed u.subject hi
  · exact landed u.object hi

/-- **Patching a graph at the first base and moving it to the second patches it there**, with the
patch moved. -/
theorem Patch.rebase_applyTo {p : Patch} {g : Graph}
    (known : ∀ i ∈ g.iris, isBelow base i = true → isBelow tx i = true)
    (foreign : ∀ i ∈ p.removed.iris, isBelow tx i = false) :
    (p.applyTo (g.rebase tx base)).rebase base tx =
      Patch.applyTo ⟨p.added.rebase base tx, p.removed.rebase base tx⟩ g := by
  have apart : ∀ t ∈ g.rebase tx base, ∀ u ∈ p.removed,
      t.mapTerms (Term.mapIri (LinkedDeposit.rebase base tx)) =
        u.mapTerms (Term.mapIri (LinkedDeposit.rebase base tx)) → t = u := by
    intro t ht u hu same
    have inj {i j : String} (hi : t.Names i) (hj : u.Names j)
        (moved : LinkedDeposit.rebase base tx i = LinkedDeposit.rebase base tx j) : i = j :=
      rebase_injOn (Graph.lands_of_mem_rebase ht hi)
        (.inr (foreign j (Graph.mem_iris.mpr ⟨u, hu, hj⟩))) moved
    obtain ⟨subject, predicate, object⟩ := Triple.mk.inj same
    have subject : t.subject = u.subject :=
      Term.mapIri_injOn (fun i j hi hj => inj (.inl hi) (.inl hj)) subject
    have object : t.object = u.object :=
      Term.mapIri_injOn (fun i j hi hj => inj (.inr hi) (.inr hj)) object
    cases t
    cases u
    simp_all
  have patched := Patch.mapTerms_applyTo apart
  have back : (g.rebase tx base).mapTerms (Term.mapIri (LinkedDeposit.rebase base tx)) = g :=
    Graph.rebase_rebase known
  rw [back] at patched
  exact patched

end Moves

end LinkedDeposit
