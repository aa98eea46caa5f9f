import LinkedDeposit.Link.Remap
import LinkedDeposit.Proofs.Repository.Evolution

/-!
# Rewritten links

A graph of a package reaches its final form in two stages. When it is uploaded to a URI, its blank
nodes, its own id and its relative references are put behind that URI (`Transaction.ingest`). When
every local id has a URI, what is stored is remapped. `Term.rewrite` says at once what both stages
together make of a term.

The stages do not get into each other's way because a new URI has no fragment and is no local id:
the second stage leaves alone what the first one has put behind it.

Results:
* `splitFragment_append_relative`: behind a URI without fragment, a relative reference is the
  fragment.
* `remap_ingest`: both stages together are `Term.rewrite` on every term.
* `remap_containments`: the second stage does not touch the statements about children.
-/

namespace LinkedDeposit

/-- What a term of a package becomes in the graph at a URI: a blank node becomes a fragment, a
relative reference is put behind the URI, and a local id becomes the URI that it was given. -/
def Term.rewrite (uris : UriMap) (uri : String) : Term → Term
  | .blank label => .iri (uri ++ skolemFragment label)
  | .iri i =>
    if isRelative i then .iri (uri ++ i)
    else
      match uris.get? (splitFragment i).1 with
      | some place => .iri (place ++ (splitFragment i).2)
      | none => .iri i
  | .literal text datatype language => .literal text datatype language

/-- The graph of a package's node, rewritten for the URI that it is stored at. -/
def Graph.rewrite (uris : UriMap) (uri : String) (g : Graph) : Graph :=
  g.mapTerms (Term.rewrite uris uri)

/-! ## Fragments -/

theorem isRelative_iff {i : String} :
    isRelative i = true ↔ i = "" ∨ ∃ rest, i.toList = '#' :: rest := by
  unfold isRelative
  cases h : i.toList with
  | nil => simp [String.toList_eq_nil_iff.mp h]
  | cons c rest =>
    have : i ≠ "" := by
      rintro rfl
      cases h
    simp [this]

theorem isRelative_skolemFragment (label : String) : isRelative (skolemFragment label) = true :=
  isRelative_iff.mpr (.inr ⟨_, by simp [skolemFragment]; rfl⟩)

theorem isRelative_fragment (i : String) : isRelative (splitFragment i).2 = true := by
  unfold splitFragment Text.cutBefore isRelative
  rw [String.toList_ofList]
  have := List.head?_dropWhile_not (fun c => !decide (c = '#')) i.toList
  cases h : (i.toList.dropWhile fun c => !decide (c = '#')).head? with
  | none => rfl
  | some c =>
    rw [h] at this
    simpa using this

/-- The part before the first `#` has none. -/
theorem plain_fst_splitFragment (uri : String) : '#' ∉ (splitFragment uri).1.toList := by
  intro h
  rw [splitFragment, Text.cutBefore, String.toList_ofList] at h
  simpa using List.all_eq_true.mp List.all_takeWhile _ h

/-- **Behind a URI without fragment, a relative reference is the fragment.** -/
theorem splitFragment_append_relative {uri i : String} (plain : '#' ∉ uri.toList)
    (relative : isRelative i = true) : splitFragment (uri ++ i) = (uri, i) := by
  have all : ∀ c ∈ uri.toList, (!decide (c = '#')) = true := by
    intro c hc
    have : c ≠ '#' := fun e => plain (e ▸ hc)
    simpa using this
  unfold splitFragment Text.cutBefore
  rw [String.toList_append, List.takeWhile_append_of_pos all, List.dropWhile_append_of_pos all]
  have before : i.toList.takeWhile (fun c => !decide (c = '#')) = [] := by
    rcases isRelative_iff.mp relative with rfl | ⟨rest, hrest⟩ <;> simp_all
  have after : i.toList.dropWhile (fun c => !decide (c = '#')) = i.toList := by
    rcases isRelative_iff.mp relative with rfl | ⟨rest, hrest⟩ <;> simp_all
  rw [before, after, List.append_nil, String.ofList_toList, String.ofList_toList]

theorem splitFragment_relative {i : String} (relative : isRelative i = true) :
    splitFragment i = ("", i) := by
  have plain : '#' ∉ "".toList := by simp
  simpa using splitFragment_append_relative plain relative

theorem splitFragment_plain {uri : String} (plain : '#' ∉ uri.toList) :
    splitFragment uri = (uri, "") := by
  simpa using splitFragment_append_relative plain (i := "") rfl

/-- What is no relative reference has a part before its first `#`. -/
theorem fst_splitFragment_ne_empty {i : String} (absolute : isRelative i = false) :
    (splitFragment i).1 ≠ "" := by
  intro empty
  have whole := splitFragment_append i
  rw [empty, String.empty_append] at whole
  have relative := isRelative_fragment i
  rw [whole, absolute] at relative
  cases relative

theorem not_isRelative_append {uri : String} (plain : '#' ∉ uri.toList) (nonempty : uri ≠ "")
    (i : String) : isRelative (uri ++ i) = false := by
  refine Bool.eq_false_iff.mpr fun h => ?_
  rcases isRelative_iff.mp h with h | ⟨rest, hrest⟩
  · exact nonempty (String.append_eq_empty_iff.mp h).1
  · rw [String.toList_append] at hrest
    cases hu : uri.toList with
    | nil => exact nonempty (String.toList_eq_nil_iff.mp hu)
    | cons c cs =>
      rw [hu, List.cons_append] at hrest
      rw [hu, (List.cons.inj hrest).1] at plain
      exact plain List.mem_cons_self

/-! ## Both stages -/

section Stages

variable {uris : UriMap} {id uri : String}

/-- Remapping leaves alone what was put behind a new URI. -/
theorem remapIri_append (plain : '#' ∉ uri.toList) (foreign : uris.get? uri = none) {i : String}
    (relative : isRelative i = true) : uris.remapIri (uri ++ i) = uri ++ i := by
  unfold UriMap.remapIri
  rw [splitFragment_append_relative plain relative]
  simp only [foreign]

/-- An upload puts a relative reference behind the URI, also where the node's own id is empty. -/
theorem ingest_relative (plain : '#' ∉ uri.toList) (nonempty : uri ≠ "") {i : String}
    (relative : isRelative i = true) :
    resolveIri uri (UriMap.remapIri (Table.empty.insert id uri) i) = uri ++ i := by
  unfold UriMap.remapIri
  rw [splitFragment_relative relative]
  simp only [Table.get?_insert, Table.get?_empty]
  split
  case h_1 u h =>
    split at h
    · obtain rfl := Option.some.inj h
      rw [resolveIri, not_isRelative_append plain nonempty, if_neg Bool.false_ne_true]
    · cases h
  case h_2 => rw [resolveIri, if_pos relative]

/-- **Upload and remapping together are `Term.rewrite`.** -/
theorem remap_ingest (plain : '#' ∉ uri.toList) (nonempty : uri ≠ "")
    (own : uris.get? id = some uri) (foreign : uris.get? uri = none) (t : Term) :
    ((t.skolemize.remap (Table.empty.insert id uri)).resolve uri).remap uris =
      t.rewrite uris uri := by
  cases t with
  | blank label =>
    have relative := isRelative_skolemFragment label
    simp only [Term.skolemize, Term.remap, Term.resolve, Term.mapIri, Term.rewrite,
      ingest_relative plain nonempty relative, remapIri_append plain foreign relative]
  | literal text datatype language => rfl
  | iri i =>
    simp only [Term.skolemize, Term.remap, Term.resolve, Term.mapIri, Term.rewrite]
    by_cases relative : isRelative i = true
    · rw [if_pos relative, ingest_relative plain nonempty relative,
        remapIri_append plain foreign relative]
    rw [if_neg relative]
    by_cases hb : (splitFragment i).1 = id
    · -- a link of the node to itself
      have uploaded : UriMap.remapIri (Table.empty.insert id uri) i =
          uri ++ (splitFragment i).2 := by
        simp only [UriMap.remapIri, hb, Table.get?_insert_self]
      rw [uploaded, resolveIri, not_isRelative_append plain nonempty,
        if_neg Bool.false_ne_true, remapIri_append plain foreign (isRelative_fragment i), hb, own]
    · have uploaded : UriMap.remapIri (Table.empty.insert id uri) i = i := by
        simp only [UriMap.remapIri, Table.get?_insert, if_neg hb, Table.get?_empty]
      rw [uploaded, resolveIri, if_neg relative]
      simp only [UriMap.remapIri]
      cases uris.get? (splitFragment i).1 <;> rfl

end Stages

/-! ## Graphs -/

theorem Graph.mapTerms_mapTerms (f h : Term → Term) (g : Graph) :
    (g.mapTerms f).mapTerms h = g.mapTerms fun t => h (f t) :=
  Graph.ext fun t => by
    simp only [mapTerms, mem_map]
    constructor
    · rintro ⟨_, ⟨u, hu, rfl⟩, rfl⟩
      exact ⟨u, hu, rfl⟩
    · rintro ⟨u, hu, rfl⟩
      exact ⟨_, ⟨u, hu, rfl⟩, rfl⟩

theorem Graph.mapTerms_union (f : Term → Term) (g h : Graph) :
    (g.union h).mapTerms f = (g.mapTerms f).union (h.mapTerms f) :=
  Graph.ext fun t => by
    simp only [mapTerms, mem_map, mem_union, or_and_right, exists_or]

theorem Graph.union_union_self (g h : Graph) : (g.union h).union h = g.union h :=
  Graph.ext fun t => by simp only [mem_union]; grind

theorem Graph.union_empty (g : Graph) : g.union Graph.empty = g :=
  Graph.ext fun t => by simp only [mem_union, not_mem_empty, or_false]

theorem Graph.nodup_toList (g : Graph) : g.toList.Nodup := g.ascending.imp fun {a b} lt same => by
  rw [same, Std.compare_self] at lt
  cases lt

/-- A graph keeps its size where no two triples become one. -/
theorem Graph.size_map {f : Triple → Triple} {g : Graph}
    (inj : ∀ t ∈ g, ∀ u ∈ g, f t = f u → t = u) : (g.map f).size = g.size := by
  have distinct : (g.toList.map f).Nodup :=
    List.pairwise_map.mpr (g.nodup_toList.imp_of_mem fun ht hu different same =>
      different (inj _ ht _ hu same))
  have perm : (g.map f).toList.Perm (g.toList.map f) := by
    refine (List.perm_ext_iff_of_nodup (nodup_toList _) distinct).mpr fun t => ?_
    rw [List.mem_map]
    exact mem_map
  rw [size, perm.length_eq, List.length_map]
  rfl

/-- **What is stored at a new URI becomes the rewritten graph of its node.** -/
theorem Graph.remap_ingest {uris : UriMap} {id uri : String} (plain : '#' ∉ uri.toList)
    (nonempty : uri ≠ "") (own : uris.get? id = some uri) (foreign : uris.get? uri = none)
    (g : Graph) : (Transaction.ingest id uri g).remap uris = g.rewrite uris uri := by
  unfold Transaction.ingest Graph.remap Graph.resolve Graph.skolemize Graph.rewrite
  simp only [mapTerms_mapTerms, LinkedDeposit.remap_ingest plain nonempty own foreign]

/-- Remapping does not touch the statements about children that are no local ids. -/
theorem remap_containments {uris : UriMap} {uri : String} {children : List (String × String)}
    (parent : '#' ∉ uri.toList ∧ uris.get? uri = none)
    (new : ∀ child, (uri, child) ∈ children → '#' ∉ child.toList ∧ uris.get? child = none) :
    (Repository.containments uri children).remap uris =
      Repository.containments uri children := by
  have fixed {u : String} (h : '#' ∉ u.toList ∧ uris.get? u = none) :
      (Term.iri u).remap uris = .iri u := by
    simp only [Term.remap, Term.mapIri, UriMap.remapIri, splitFragment_plain h.1, h.2]
  have same {child : String} (hc : (uri, child) ∈ children) :
      (Repository.containment uri child).mapTerms (Term.remap uris) =
        Repository.containment uri child := by
    unfold Repository.containment Triple.mapTerms
    simp only [fixed parent, fixed (new child hc)]
  refine Graph.ext fun t => ?_
  simp only [Graph.remap, Graph.mapTerms, Graph.mem_map, Repository.mem_containments]
  constructor
  · rintro ⟨_, ⟨child, hc, rfl⟩, rfl⟩
    exact ⟨child, hc, same hc⟩
  · rintro ⟨child, hc, rfl⟩
    exact ⟨_, ⟨child, hc, rfl⟩, same hc⟩

end LinkedDeposit
