import LinkedDeposit.Proofs.Link.Renaming
import LinkedDeposit.Proofs.Repository.Operation
import Mathlib.Data.List.Nodup
import Mathlib.Data.List.Perm.Basic

/-!
# Renamed graphs and resources

A renaming moves the IRIs in subject and object position of a graph, one to one. So what a
repository and a deposit do with graphs commutes with it, and the size of a patch stays.

Results:
* `Patch.between_rename`, `Patch.applyTo_rename`: the same changes are found and made.
* `Graph.remap_rename`: links are remapped alike.
* `Resource.stored_rename`: a resource that names no renamed segment is stored alike at a renamed
  URI.
-/

namespace LinkedDeposit

variable (ρ : Renaming)

/-! ## Graphs -/

/-- Renames the IRIs of a graph. -/
def Graph.rename (g : Graph) : Graph := g.mapTerms (Term.mapIri ρ)

/-- Renames the IRIs of a patch. -/
def Patch.rename (p : Patch) : Patch := p.mapTerms (Term.mapIri ρ)

theorem Renaming.mapTerms_injective : Function.Injective (Triple.mapTerms (Term.mapIri ρ)) := by
  have terms {t u : Term} (same : t.mapIri ρ = u.mapIri ρ) : t = u :=
    Term.mapIri_injOn (fun _ _ _ _ h => ρ.injective h) same
  rintro ⟨s, p, o⟩ ⟨s', p', o'⟩ same
  obtain ⟨subject, predicate, object⟩ := Triple.mk.inj same
  obtain rfl : s = s' := terms subject
  obtain rfl : p = p' := predicate
  obtain rfl : o = o' := terms object
  rfl

namespace Graph

variable {ρ}

theorem rename_ext {g h : Graph} (hm : ∀ t, t ∈ g ↔ t.mapTerms (Term.mapIri ρ) ∈ h)
    (only : ∀ t ∈ h, ∃ u : Triple, u.mapTerms (Term.mapIri ρ) = t) : g.rename ρ = h := by
  refine ext fun t => ?_
  rw [rename, mapTerms, mem_map]
  constructor
  · rintro ⟨u, hu, rfl⟩
    exact (hm u).mp hu
  · intro ht
    obtain ⟨u, rfl⟩ := only t ht
    exact ⟨u, (hm u).mpr ht, rfl⟩

theorem mem_rename {g : Graph} {t : Triple} : t.mapTerms (Term.mapIri ρ) ∈ g.rename ρ ↔ t ∈ g := by
  rw [rename, mapTerms, mem_map]
  constructor
  · rintro ⟨u, hu, same⟩
    exact ρ.mapTerms_injective same ▸ hu
  · intro h
    exact ⟨t, h, rfl⟩

/-- What is in a renamed graph was renamed. -/
theorem exists_of_mem_rename {g : Graph} {t : Triple} (h : t ∈ g.rename ρ) :
    ∃ u : Triple, u.mapTerms (Term.mapIri ρ) = t := by
  obtain ⟨u, -, same⟩ := mem_map.mp h
  exact ⟨u, same⟩

theorem rename_diff (g h : Graph) : (g.diff h).rename ρ = (g.rename ρ).diff (h.rename ρ) :=
  rename_ext (fun t => by simp only [mem_diff, mem_rename]) fun t ht =>
    exists_of_mem_rename (mem_diff.mp ht).1

theorem rename_union (g h : Graph) : (g.union h).rename ρ = (g.rename ρ).union (h.rename ρ) :=
  mapTerms_union _ g h

theorem rename_empty : (Graph.empty).rename ρ = Graph.empty :=
  rename_ext (fun t => by simp) fun t ht => absurd ht (not_mem_empty t)

theorem rename_injective : Function.Injective (Graph.rename ρ) := by
  intro g h same
  refine ext fun t => ?_
  have moved : t.mapTerms (Term.mapIri ρ) ∈ g.rename ρ ↔ t ∈ g := mem_rename
  rw [← moved, same, mem_rename]

theorem size_rename (g : Graph) : (g.rename ρ).size = g.size :=
  size_map fun _ _ _ _ same => ρ.mapTerms_injective same

theorem isEmpty_rename (g : Graph) : (g.rename ρ).isEmpty = g.isEmpty := by
  refine Bool.eq_iff_iff.mpr ?_
  rw [isEmpty_iff, isEmpty_iff, ← rename_injective.eq_iff (a := g), rename_empty]

/-- **Links are remapped alike.** -/
theorem remap_rename {uris uris' : UriMap} (h : ρ.Moves ρ uris uris') (g : Graph) :
    (g.rename ρ).remap uris' = (g.remap uris).rename ρ := by
  unfold rename remap
  rw [mapTerms_mapTerms, mapTerms_mapTerms]
  congr 1
  funext t
  cases t with
  | iri i => exact congrArg Term.iri (ρ.remapIri_apply h i)
  | blank label => rfl
  | literal text datatype language => rfl

theorem resolve_rename (base : String) (g : Graph) :
    (g.rename ρ).resolve (ρ base) = (g.resolve base).rename ρ := by
  unfold rename resolve
  rw [mapTerms_mapTerms, mapTerms_mapTerms]
  congr 1
  funext t
  cases t with
  | iri i => exact congrArg Term.iri (ρ.resolveIri_apply base i)
  | blank label => rfl
  | literal text datatype language => rfl

end Graph

namespace Patch

variable {ρ}

theorem between_rename (g h : Graph) :
    between (g.rename ρ) (h.rename ρ) = (between g h).rename ρ := by
  unfold between
  rw [← Graph.rename_diff, ← Graph.rename_diff]
  rfl

theorem applyTo_rename (p : Patch) (g : Graph) :
    (p.rename ρ).applyTo (g.rename ρ) = (p.applyTo g).rename ρ :=
  (Patch.mapTerms_applyTo fun _ _ _ _ same => ρ.mapTerms_injective same).symm

theorem isEmpty_rename (p : Patch) : (p.rename ρ).isEmpty = p.isEmpty := by
  change ((p.added.rename ρ).isEmpty && (p.removed.rename ρ).isEmpty) = _
  rw [Graph.isEmpty_rename, Graph.isEmpty_rename]
  rfl

end Patch

/-! ## Containment -/

/-- Renames parents and children. -/
def renameChildren (children : List (String × String)) : List (String × String) :=
  children.map fun c => (ρ c.1, ρ c.2)

theorem containments_rename (uri : String) (children : List (String × String)) :
    Repository.containments (ρ uri) (renameChildren ρ children) =
      (Repository.containments uri children).rename ρ := by
  refine (Graph.rename_ext (fun t => ?_) fun t ht => ?_).symm
  · rw [Repository.mem_containments, Repository.mem_containments]
    constructor
    · rintro ⟨child, mem, rfl⟩
      exact ⟨ρ child, List.mem_map.mpr ⟨_, mem, rfl⟩, rfl⟩
    · rintro ⟨_, mem, same⟩
      obtain ⟨⟨parent, child⟩, listed, pair⟩ := List.mem_map.mp mem
      obtain ⟨hp, rfl⟩ := Prod.mk.inj pair
      obtain rfl := ρ.injective hp
      exact ⟨child, listed, ρ.mapTerms_injective same⟩
  · obtain ⟨_, mem, rfl⟩ := Repository.mem_containments.mp ht
    obtain ⟨⟨_, child⟩, -, pair⟩ := List.mem_map.mp mem
    obtain ⟨-, rfl⟩ := Prod.mk.inj pair
    exact ⟨Repository.containment uri child, rfl⟩

/-! ## Stored resources -/

namespace Stored

/-- Renames the graph of a stored resource. -/
def rename (s : Stored) : Stored := { s with graph := s.graph.rename ρ }

theorem contain_rename (s : Stored) (t : Triple) :
    (s.rename ρ).contain (t.mapTerms (Term.mapIri ρ)) = (s.contain t).rename ρ := by
  unfold contain
  have mem : t.mapTerms (Term.mapIri ρ) ∈ (s.rename ρ).graph ↔ t ∈ s.graph := Graph.mem_rename
  by_cases h : t ∈ s.graph
  · rw [if_pos (mem.mpr h), if_pos h]
  · rw [if_neg fun h' => h (mem.mp h'), if_neg h]
    have inserted : (s.graph.rename ρ).insert (t.mapTerms (Term.mapIri ρ)) =
        (s.graph.insert t).rename ρ := by
      refine (Graph.rename_ext (fun u => ?_) fun u hu => ?_).symm
      · rw [Graph.mem_insert, Graph.mem_insert, Graph.mem_rename, ρ.mapTerms_injective.eq_iff]
      · rcases Graph.mem_insert.mp hu with rfl | hu
        · exact ⟨t, rfl⟩
        · exact Graph.exists_of_mem_rename hu
    change Stored.mk _ ((s.graph.rename ρ).insert _) _ _ =
      Stored.mk _ ((s.graph.insert t).rename ρ) _ _
    rw [inserted]
    rfl

theorem containAll_rename (uri : String) (children : List (String × String)) (s : Stored) :
    (s.rename ρ).containAll (ρ uri) (renameChildren ρ children) =
      (s.containAll uri children).rename ρ := by
  induction children generalizing s with
  | nil => rfl
  | cons c children ih =>
    rw [renameChildren, List.map_cons, containAll_cons, containAll_cons]
    by_cases h : c.1 = uri
    · rw [if_pos (congrArg ρ h), if_pos h, ← ih, ← contain_rename]
      rfl
    · rw [if_neg fun same => h (ρ.injective same), if_neg h, ← ih]
      rfl

end Stored

/-! ## What a package names -/

namespace Resource

mutual

/-- The ids and the links of a resource and of what is below it, with the fragments that blank nodes
become. -/
def mentions : Resource → List String
  | .container id g children => id :: g.skolemize.iris ++ allMentions children
  | .rdfSource id g => id :: g.skolemize.iris
  | .binary id _ description =>
    id :: description.toList.flatMap fun d => d.id :: d.graph.skolemize.iris

def allMentions : List Resource → List String
  | [] => []
  | r :: rest => r.mentions ++ allMentions rest

end

end Resource

variable {ρ}

theorem Graph.rename_eq_self {g : Graph} (kept : ∀ i ∈ g.iris, ρ i = i) : g.rename ρ = g := by
  have term {t : Triple} (ht : t ∈ g) (u : Term) (hu : ∀ i, u = .iri i → t.Names i) :
      u.mapIri ρ = u := by
    cases u with
    | iri i => exact congrArg Term.iri (kept i (Graph.mem_iris.mpr ⟨t, ht, hu i rfl⟩))
    | blank label => rfl
    | literal text datatype language => rfl
  refine Graph.mapTerms_eq_self fun t ht => ?_
  unfold Triple.mapTerms
  rw [term ht t.subject fun i => .inl, term ht t.object fun i => .inr]

/-- What is stored at a new URI is renamed with it. -/
theorem ingest_rename {id : String} {g : Graph} (kept : ρ id = id)
    (links : ∀ i ∈ g.skolemize.iris, ρ i = i) (uri : String) :
    Transaction.ingest id (ρ uri) g = (Transaction.ingest id uri g).rename ρ := by
  have own : ρ.Moves ρ (Table.empty.insert id uri) (Table.empty.insert id (ρ uri)) := by
    have moved : ρ.Moves ρ (Table.empty.insert id uri) (Table.empty.insert (ρ id) (ρ uri)) :=
      Renaming.Moves.empty.insert id uri
    rwa [kept] at moved
  unfold Transaction.ingest
  rw [← Graph.resolve_rename, ← Graph.remap_rename own, Graph.rename_eq_self links]

/-! ## What is stored for a package -/

variable (ρ) in
/-- Renames the URIs that a repository has answered. -/
def Deposited.rename (d : Deposited) : Deposited := ⟨ρ d.uri, d.description.map ρ⟩

theorem childUri_rename {name : String} (bare : IsBareName name) (parent : String) :
    Transaction.childUri (ρ parent) (ρ.names name) = ρ (Transaction.childUri parent name) := by
  unfold Transaction.childUri
  rw [ρ.apply_slash, ρ.trimSlashes_apply, ρ.apply_bare bare.bare]

section Described

variable (reserved : ρ.names Vocabulary.descriptionSegment = Vocabulary.descriptionSegment)
include reserved

theorem descriptionUri_rename (uri : String) :
    Transaction.descriptionUri (ρ uri) = ρ (Transaction.descriptionUri uri) := by
  have segment : ρ Vocabulary.descriptionSegment = Vocabulary.descriptionSegment :=
    (ρ.apply_bare (by decide)).trans reserved
  unfold Transaction.descriptionUri
  rw [ρ.apply_slash, segment]

theorem placed_rename (r : Resource) (uri : String) :
    r.placed (ρ uri) = (r.placed uri).rename ρ := by
  unfold Resource.placed Deposited.rename
  rw [descriptionUri_rename reserved]
  cases r.description? <;> rfl

/-- **A resource is stored alike at a renamed URI**, if none of its ids and links is renamed. -/
theorem stored_rename {files : Files} {r : Resource} (kept : ∀ s ∈ r.mentions, ρ s = s)
    {uri : String} {new : Table String Stored} (stored : r.stored files uri = .ok new) :
    ∃ new', r.stored files (ρ uri) = .ok new' ∧ ρ.Moves (Stored.rename ρ) new new' := by
  have graph (kind : ResourceKind) {id : String} {g : Graph}
      (named : ∀ s ∈ id :: g.skolemize.iris, ρ s = s) (place : String) :
      Stored.ofGraph kind (Transaction.ingest id (ρ place) g) =
        (Stored.ofGraph kind (Transaction.ingest id place g)).rename ρ := by
    obtain ⟨own, links⟩ := List.forall_mem_cons.mp named
    rw [ingest_rename own links]
    rfl
  cases r with
  | container id g children =>
    cases stored
    have named : ∀ s ∈ id :: g.skolemize.iris, ρ s = s := fun s hs =>
      kept s (List.mem_append_left _ hs)
    refine ⟨_, rfl, ?_⟩
    rw [graph .container named]
    exact Renaming.Moves.empty.insert _ _
  | rdfSource id g =>
    cases stored
    refine ⟨_, rfl, ?_⟩
    rw [graph .rdfSource kept]
    exact Renaming.Moves.empty.insert _ _
  | binary id b description =>
    simp only [Resource.stored] at stored ⊢
    cases read : b.content.read files with
    | error e =>
      rw [read] at stored
      cases stored
    | ok bytes =>
      rw [read] at stored
      have content : ρ.Moves (Stored.rename ρ)
          (Table.empty.insert uri (.ofBinary b.mediaType bytes))
          (Table.empty.insert (ρ uri) (.ofBinary b.mediaType bytes)) := by
        have same : Stored.ofBinary b.mediaType bytes =
            (Stored.ofBinary b.mediaType bytes).rename ρ := by
          unfold Stored.rename Stored.ofBinary
          rw [Graph.rename_empty]
        rw [same]
        exact Renaming.Moves.empty.insert uri (Stored.ofBinary b.mediaType bytes)
      cases description with
      | none =>
        cases stored
        exact ⟨_, rfl, content⟩
      | some d =>
        cases stored
        have named : ∀ s ∈ d.id :: d.graph.skolemize.iris, ρ s = s := by
          intro s hs
          refine kept s (List.mem_cons_of_mem _ ?_)
          rwa [Option.toList_some, List.flatMap_singleton]
        refine ⟨_, rfl, ?_⟩
        rw [descriptionUri_rename reserved, graph .rdfSource named]
        exact content.insert _ _

end Described

/-- A package cannot be deposited as it is: it breaks a rule, or a file of it cannot be read. Such a
failure names no URI. -/
inductive DepositError.IsPackageFault : DepositError → Prop where
  | invalid (reason : String) : IsPackageFault (.invalidPackage reason)
  | unreadable (reason : String) : IsPackageFault (.io reason)

theorem Content.isPackageFault_of_read {files : Files} {c : Content} {e : DepositError}
    (read : c.read files = .error e) : e.IsPackageFault := by
  unfold Content.read at read
  cases opened : c.open? files with
  | error e' =>
    rw [opened] at read
    cases read
    unfold Content.open? at opened
    split at opened
    · cases opened
      exact .invalid _
    · cases opened
  | ok view =>
    rw [opened] at read
    cases found : view.read with
    | ok bytes =>
      simp only [bind, Except.bind, found] at read
      cases read
    | error reason =>
      simp only [bind, Except.bind, found] at read
      cases read
      exact .unreadable _

/-- Whether a resource can be stored does not depend on where. -/
theorem Resource.stored_error {files : Files} {r : Resource} {uri : String} {e : DepositError}
    (stored : r.stored files uri = .error e) (uri' : String) :
    r.stored files uri' = .error e ∧ e.IsPackageFault := by
  cases r with
  | container id g children => cases stored
  | rdfSource id g => cases stored
  | binary id b description =>
    simp only [Resource.stored] at stored ⊢
    cases read : b.content.read files with
    | ok bytes =>
      rw [read] at stored
      cases description <;> cases stored
    | error e' =>
      rw [read] at stored
      cases stored
      exact ⟨rfl, Content.isPackageFault_of_read read⟩

end LinkedDeposit
