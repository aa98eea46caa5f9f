import LinkedDeposit.Deposit.Walk
import LinkedDeposit.Proofs.Session.Transcript

/-!
# Placements: what a walk did

A walk keeps a list of pending resources, each with the URI of the container it goes below. It takes
the first one, deposits it, and puts its children in front of the others (`Walks`). What was done so
far is a list of placements: resource, parent, and what the session answered.

Results:
* `walks_append`, `Walks.frame`: walks follow each other, and a walk does not touch what stands
  behind it.
* `allSubjects_of_walks`: a walk visits the nodes of a package in the order of `allSubjects`, each
  once.
* `recordAll_eq_ok_iff`: what it takes for the ids of a walk to be recorded, and the map that comes
  out; `get?_recordAll`: what the map then holds.
-/

namespace LinkedDeposit

/-- A resource that was deposited, with its parent and what the session answered. -/
structure Placement where
  resource : Resource
  parent : String
  answer : Deposited

namespace Placement

/-- The nodes that were given a URI: the resource and its description. -/
def visited (p : Placement) : List Visited :=
  ⟨p.resource.subject, p.answer.uri⟩ ::
    match p.resource.description?, p.answer.description with
    | some description, some uri => [⟨description.subject, uri⟩]
    | _, _ => []

/-- A description was given a URI. -/
def IsComplete (p : Placement) : Prop :=
  p.resource.description?.isSome = true → p.answer.description.isSome = true

/-- What a transcript says of it: the call, and an event for each node. -/
def lines (p : Placement) : Transcript :=
  .call (.deposit p.resource p.parent) (.ok (.deposited p.answer)) ::
    p.visited.map fun v => .event (.deposit v.uri v.subject)

/-- The children with the URI that they go below. -/
def below (p : Placement) : List (Resource × String) :=
  p.resource.children.map (·, p.answer.uri)

theorem calls_lines (p : Placement) :
    Transcript.calls p.lines =
      [(.deposit p.resource p.parent, .ok (.deposited p.answer))] := by
  simp [lines]

theorem visited_map_subject {p : Placement} (hp : p.IsComplete) :
    p.visited.map (·.subject) =
      p.resource.subject :: p.resource.description?.toList.map Description.subject := by
  unfold visited
  cases hd : p.resource.description? with
  | none => rfl
  | some description =>
    obtain ⟨uri, hu⟩ := Option.isSome_iff_exists.mp (hp (by rw [hd]; rfl))
    rw [hu]
    rfl

end Placement

/-! ## Pending resources -/

/-- From `pending`, the placements are made in order and leave `left` pending. -/
def Walks : List (Resource × String) → List Placement → List (Resource × String) → Prop
  | pending, [], left => pending = left
  | [], _ :: _, _ => False
  | (r, parent) :: rest, p :: ps, left =>
    p.resource = r ∧ p.parent = parent ∧ Walks (p.below ++ rest) ps left

theorem walks_append {pending left : List (Resource × String)} {ps qs : List Placement} :
    Walks pending (ps ++ qs) left ↔ ∃ middle, Walks pending ps middle ∧ Walks middle qs left := by
  induction ps generalizing pending with
  | nil => simp [Walks]
  | cons p ps ih =>
    cases pending with
    | nil => simp [Walks]
    | cons first rest => simp only [List.cons_append, Walks, ih, and_assoc, exists_and_left]

/-- A walk does not touch what stands behind it. -/
theorem Walks.frame {pending left : List (Resource × String)} {ps : List Placement}
    (h : Walks pending ps left) (behind : List (Resource × String)) :
    Walks (pending ++ behind) ps (left ++ behind) := by
  induction ps generalizing pending with
  | nil =>
    simp only [Walks] at h ⊢
    rw [h]
  | cons p ps ih =>
    cases pending with
    | nil => exact absurd h (by simp [Walks])
    | cons first rest =>
      obtain ⟨hr, hp, hrest⟩ := h
      refine ⟨hr, hp, ?_⟩
      change Walks (p.below ++ (rest ++ behind)) ps (left ++ behind)
      rw [← List.append_assoc]
      exact ih hrest

/-- A resource lists itself, its description, and then what is below it. -/
theorem subjects_eq (r : Resource) :
    r.subjects = r.subject :: r.description?.toList.map Description.subject ++
      Resource.allSubjects r.children := by
  cases r with
  | container id g children => rfl
  | rdfSource id g => rfl
  | binary id b d => simp [Resource.subjects, Resource.children, Resource.allSubjects,
      Resource.subject, Resource.description?, Resource.id, Resource.kind]

theorem allSubjects_append (l k : List Resource) :
    Resource.allSubjects (l ++ k) = Resource.allSubjects l ++ Resource.allSubjects k := by
  induction l with
  | nil => rfl
  | cons r l ih => simp only [List.cons_append, Resource.allSubjects, ih, List.append_assoc]

/-- **A walk visits nodes in the order of `allSubjects`**, and leaves what it has not visited. -/
theorem allSubjects_of_walks {pending left : List (Resource × String)} {ps : List Placement}
    (h : Walks pending ps left) (hc : ∀ p ∈ ps, p.IsComplete) :
    Resource.allSubjects (pending.map (·.1)) =
      (ps.flatMap Placement.visited).map (·.subject) ++
        Resource.allSubjects (left.map (·.1)) := by
  induction ps generalizing pending with
  | nil =>
    simp only [Walks] at h
    simp [h]
  | cons p ps ih =>
    cases pending with
    | nil => exact absurd h (by simp [Walks])
    | cons first rest =>
      obtain ⟨hr, -, hrest⟩ := h
      have below : (p.below ++ rest).map (·.1) = p.resource.children ++ rest.map (·.1) := by
        simp [Placement.below, Function.comp_def]
      have hrest := ih hrest fun q hq => hc q (List.mem_cons_of_mem p hq)
      rw [below, allSubjects_append] at hrest
      rw [List.map_cons, Resource.allSubjects, subjects_eq, ← hr, List.append_assoc, hrest,
        List.flatMap_cons, List.map_append,
        Placement.visited_map_subject (hc p List.mem_cons_self), List.append_assoc]

theorem map_fst_roots (tree : List Resource) (target : String) :
    (tree.map (·, target)).map (·.1) = tree := by
  rw [List.map_map]
  exact List.map_id tree

/-- A walk through a package has visited the first nodes of it. -/
theorem Walks.subjects {tree : List Resource} {target : String}
    {left : List (Resource × String)} {ps : List Placement}
    (h : Walks (tree.map (·, target)) ps left) (hc : ∀ p ∈ ps, p.IsComplete) :
    Resource.allSubjects tree = (ps.flatMap Placement.visited).map (·.subject) ++
      Resource.allSubjects (left.map (·.1)) := by
  rw [← allSubjects_of_walks h hc, map_fst_roots]

/-- A whole walk has visited every node. -/
theorem Walks.subjects_of_whole {tree : List Resource} {target : String} {ps : List Placement}
    (h : Walks (tree.map (·, target)) ps []) (hc : ∀ p ∈ ps, p.IsComplete) :
    (ps.flatMap Placement.visited).map (·.subject) = Resource.allSubjects tree := by
  rw [h.subjects hc]
  exact (List.append_nil _).symm

/-! ## Recording ids -/

/-- Records the URIs of some nodes, in order. -/
def UriMap.recordAll (m : UriMap) (vs : List Visited) : Except DepositError UriMap :=
  vs.foldlM (fun m v => m.record v.subject.id v.uri) m

theorem recordAll_append_eq_ok_iff {m n : UriMap} {vs us : List Visited} :
    m.recordAll (vs ++ us) = .ok n ↔ ∃ k, m.recordAll vs = .ok k ∧ k.recordAll us = .ok n := by
  unfold UriMap.recordAll
  rw [List.foldlM_append]
  cases h : vs.foldlM (fun (m : UriMap) v => m.record v.subject.id v.uri) m with
  | error e => simp [bind, Except.bind]
  | ok k => simp [bind, Except.bind]

theorem recordAll_cons_eq_ok_iff {m n : UriMap} {v : Visited} {vs : List Visited} :
    m.recordAll (v :: vs) = .ok n ↔
      m.get? v.subject.id = none ∧
        UriMap.recordAll (m.insert v.subject.id v.uri) vs = .ok n := by
  simp only [UriMap.recordAll, List.foldlM_cons]
  cases h : m.record v.subject.id v.uri with
  | error e =>
    have : m.get? v.subject.id ≠ none := fun hn =>
      absurd (UriMap.record_eq_ok_iff.mpr ⟨hn, rfl⟩) (by rw [h]; simp)
    simp [this, bind, Except.bind]
  | ok n' =>
    obtain ⟨hn, rfl⟩ := UriMap.record_eq_ok_iff.mp h
    simp [hn, bind, Except.bind]

/-- Ids are recorded when they are new and differ from each other. -/
theorem recordAll_eq_ok_iff {m n : UriMap} {vs : List Visited} :
    m.recordAll vs = .ok n ↔
      (vs.map (·.subject.id)).Nodup ∧ (∀ v ∈ vs, m.get? v.subject.id = none) ∧
        n = vs.foldl (fun m v => m.insert v.subject.id v.uri) m := by
  induction vs generalizing m with
  | nil =>
    change Except.ok m = Except.ok n ↔ _
    simp [eq_comm]
  | cons v vs ih =>
    rw [recordAll_cons_eq_ok_iff, ih]
    simp only [List.map_cons, List.nodup_cons, List.mem_cons, forall_eq_or_imp, List.foldl_cons,
      Table.get?_insert, List.mem_map, not_exists, not_and]
    constructor
    · rintro ⟨hv, hnd, hnone, rfl⟩
      refine ⟨⟨fun u hu he => ?_, hnd⟩, ⟨hv, fun u hu => ?_⟩, rfl⟩
      · have := hnone u hu
        simp [he] at this
      · have := hnone u hu
        split at this
        · exact absurd this (by simp)
        · exact this
    · rintro ⟨⟨hne, hnd⟩, ⟨hv, hnone⟩, rfl⟩
      refine ⟨hv, hnd, fun u hu => ?_, rfl⟩
      rw [if_neg (hne u hu)]
      exact hnone u hu

/-- The map after recording holds what was recorded and what it held before. -/
theorem get?_recordAll {m n : UriMap} {vs : List Visited} (h : m.recordAll vs = .ok n)
    (id uri : String) :
    n.get? id = some uri ↔ (∃ v ∈ vs, v.subject.id = id ∧ v.uri = uri) ∨ m.get? id = some uri := by
  induction vs generalizing m with
  | nil =>
    obtain rfl : m = n := by
      change Except.ok m = Except.ok n at h
      exact Except.ok.inj h
    simp
  | cons v vs ih =>
    obtain ⟨hv, h⟩ := recordAll_cons_eq_ok_iff.mp h
    rw [ih h, Table.get?_insert]
    by_cases hid : id = v.subject.id
    · subst hid
      simp [hv]
      grind
    · rw [if_neg hid]
      simp only [List.mem_cons, exists_eq_or_imp]
      grind

end LinkedDeposit
