import LinkedDeposit.Proofs.Deposit.WalkTranscript
import LinkedDeposit.Proofs.Repository.Operation

/-!
# The places of a package

A repository in memory names new resources after a counter, so the placements of a package are known
before it is deposited: `Resource.allPlacements` goes through the tree in the order of the walk, and
`Placement.uriMap` is where every local id ends up.

Results:
* `walks_allPlacements`, `Minted.unique`: they are the only placements that a walk can make with
  these names.
* `Minted.forall_uris`: what names preserve on the way down holds of every URI.
* `Walks.mem`, `Walks.exists_of_pending`: what is placed below a URI are the children that belong
  there, all of them (`containments_placements`).
-/

namespace LinkedDeposit

/-! ## Placements by name -/

mutual

/-- The placements of a resource and of what is below it, after `count` resources were created. -/
def Resource.placements (host : Host) (count : Nat) (parent : String) : Resource → List Placement
  | .container id g children =>
    let uri := Transaction.childUri parent (host.freshName (count + 1))
    ⟨.container id g children, parent, ⟨uri, none⟩⟩ ::
      Resource.allPlacements host (count + 1) uri children
  | .rdfSource id g =>
    [⟨.rdfSource id g, parent, ⟨Transaction.childUri parent (host.freshName (count + 1)), none⟩⟩]
  | .binary id b description =>
    let r : Resource := .binary id b description
    [⟨r, parent, r.placed (Transaction.childUri parent (host.freshName (count + 1)))⟩]

/-- The placements of resources below one container. -/
def Resource.allPlacements (host : Host) (count : Nat) (parent : String) :
    List Resource → List Placement
  | [] => []
  | r :: rest =>
    let first := r.placements host count parent
    first ++ Resource.allPlacements host (count + first.length) parent rest

end

/-- The placements were named one after the other, after `count` others. -/
def Minted (host : Host) : Nat → List Placement → Prop
  | _, [] => True
  | count, p :: ps =>
    p.answer = p.resource.placed
      (Transaction.childUri p.parent (host.freshName (count + 1))) ∧ Minted host (count + 1) ps

theorem minted_append {host : Host} {count : Nat} {ps qs : List Placement} :
    Minted host count (ps ++ qs) ↔ Minted host count ps ∧ Minted host (count + ps.length) qs := by
  induction ps generalizing count with
  | nil => simp [Minted]
  | cons p ps ih =>
    simp only [List.cons_append, Minted, ih, List.length_cons, and_assoc, Nat.add_assoc,
      Nat.add_comm 1]

/-- With the names of a host a walk has no choice: one that goes on for longer begins alike. -/
theorem Minted.isPrefix {host : Host} {count : Nat} {pending left : List (Resource × String)}
    {ps qs : List Placement} (hp : Walks pending ps left) (hq : Walks pending qs [])
    (mp : Minted host count ps) (mq : Minted host count qs) : ps <+: qs := by
  induction ps generalizing pending count qs with
  | nil => exact List.nil_prefix
  | cons p ps ih =>
    cases pending with
    | nil => exact absurd hp (by simp [Walks])
    | cons first rest =>
      cases qs with
      | nil => simp [Walks] at hq
      | cons q qs =>
        obtain ⟨hpr, hpp, hp⟩ := hp
        obtain ⟨hqr, hqp, hq⟩ := hq
        have same : p = q := by
          cases p
          cases q
          simp_all [Minted]
        subst same
        exact List.cons_prefix_cons.mpr ⟨rfl, ih hp hq mp.2 mq.2⟩

/-- A walk can make only one list of placements with the names of a host. -/
theorem Minted.unique {host : Host} {count : Nat} {pending : List (Resource × String)}
    {ps qs : List Placement} (hp : Walks pending ps []) (hq : Walks pending qs [])
    (mp : Minted host count ps) (mq : Minted host count qs) : ps = qs :=
  (Minted.isPrefix hp hq mp mq).eq_of_length_le (Minted.isPrefix hq hp mq mp).length_le

mutual

theorem walks_placements (host : Host) (count : Nat) (parent : String) (r : Resource)
    (rest : List (Resource × String)) :
    Walks ((r, parent) :: rest) (r.placements host count parent) rest := by
  cases r with
  | container id g children =>
    exact ⟨rfl, rfl, walks_allPlacements host (count + 1) _ children rest⟩
  | rdfSource id g => exact ⟨rfl, rfl, rfl⟩
  | binary id b description => exact ⟨rfl, rfl, rfl⟩

/-- **The placements of a tree are those of a walk.** -/
theorem walks_allPlacements (host : Host) (count : Nat) (parent : String) (tree : List Resource)
    (rest : List (Resource × String)) :
    Walks (tree.map (·, parent) ++ rest) (Resource.allPlacements host count parent tree) rest := by
  cases tree with
  | nil => rfl
  | cons r tree =>
    exact walks_append.mpr ⟨tree.map (·, parent) ++ rest,
      walks_placements host count parent r _, walks_allPlacements host _ parent tree rest⟩

end

mutual

theorem minted_placements (host : Host) (count : Nat) (parent : String) (r : Resource) :
    Minted host count (r.placements host count parent) := by
  cases r with
  | container id g children => exact ⟨rfl, minted_allPlacements host (count + 1) _ children⟩
  | rdfSource id g => exact ⟨rfl, trivial⟩
  | binary id b description => exact ⟨rfl, trivial⟩

theorem minted_allPlacements (host : Host) (count : Nat) (parent : String) (tree : List Resource) :
    Minted host count (Resource.allPlacements host count parent tree) := by
  cases tree with
  | nil => trivial
  | cons r tree =>
    exact minted_append.mpr ⟨minted_placements host count parent r,
      minted_allPlacements host _ parent tree⟩

end

/-! ## URIs of placements -/

namespace Placement

/-- The URI of the resource. -/
def uri (p : Placement) : String := p.answer.uri

/-- The URIs that were given out. -/
def uris (p : Placement) : List String := p.answer.uris

theorem uri_mem (p : Placement) : p.uri ∈ p.uris := List.mem_cons_self

/-- The answer is the one that a repository in memory gives. -/
def IsPlaced (p : Placement) : Prop := p.answer = p.resource.placed p.uri

theorem IsPlaced.isComplete {p : Placement} (h : p.IsPlaced) : p.IsComplete := by
  unfold IsComplete
  rw [h]
  cases hd : p.resource.description? <;> simp [Resource.placed, hd]

theorem isPlaced_of_answer {p : Placement} {uri : String}
    (named : p.answer = p.resource.placed uri) : p.IsPlaced := by
  rw [IsPlaced, Placement.uri, named]
  rfl

theorem IsPlaced.uris_eq {p : Placement} (h : p.IsPlaced) :
    p.uris = (p.resource.placed p.uri).uris :=
  congrArg Deposited.uris h

/-- The nodes that were given URIs. -/
theorem IsPlaced.visited_eq {p : Placement} (h : p.IsPlaced) :
    p.visited = ⟨p.resource.subject, p.uri⟩ ::
      p.resource.description?.toList.map fun d =>
        ⟨d.subject, Transaction.descriptionUri p.uri⟩ := by
  have hd : p.answer.description =
      p.resource.description?.map fun _ => Transaction.descriptionUri p.uri := by
    rw [h]
    rfl
  unfold visited uri at *
  rw [hd]
  cases p.resource.description? <;> rfl

theorem IsPlaced.map_uri_visited {p : Placement} (h : p.IsPlaced) :
    p.visited.map (·.uri) = p.uris := by
  rw [h.visited_eq, uris, Deposited.uris, h, Resource.placed]
  cases p.resource.description? <;> rfl

end Placement

theorem Minted.isPlaced {host : Host} {count : Nat} {ps : List Placement}
    (h : Minted host count ps) : ∀ p ∈ ps, p.IsPlaced := by
  induction ps generalizing count with
  | nil => simp
  | cons p ps ih =>
    rintro q (_ | ⟨_, hq⟩)
    · exact Placement.isPlaced_of_answer h.1
    · exact ih h.2 q hq

theorem map_uri_visited {ps : List Placement} (h : ∀ p ∈ ps, p.IsPlaced) :
    (ps.flatMap Placement.visited).map (·.uri) = ps.flatMap Placement.uris := by
  rw [List.map_flatMap]
  exact List.flatMap_congr fun p hp => (h p hp).map_uri_visited

/-- Where the local ids of some placements end up. -/
def Placement.uriMap (ps : List Placement) : UriMap :=
  Table.ofList ((ps.flatMap Placement.visited).map fun v => (v.subject.id, v.uri))

/-- A walk that went well has recorded just this. -/
theorem Gains.uris_eq {ps : List Placement} {w : Walked} (h : Gains Walked.nothing ps w) :
    w.uris = Placement.uriMap ps := by
  obtain ⟨-, -, hw⟩ := recordAll_eq_ok_iff.mp h.recorded
  rw [hw, Placement.uriMap, Table.ofList, List.foldl_map]
  rfl

/-- A resource gives out its own URI and perhaps that of its description. -/
theorem Resource.mem_uris_placed {r : Resource} {uri u : String} (h : u ∈ (r.placed uri).uris) :
    u = uri ∨ u = Transaction.descriptionUri uri := by
  rcases List.mem_cons.mp h with rfl | h
  · exact .inl rfl
  · cases hd : r.description? with
    | none => simp [placed, hd] at h
    | some d =>
      simp only [placed, hd, Option.map_some, Option.toList_some, List.mem_singleton] at h
      exact .inr h

theorem Resource.nodup_uris_placed (r : Resource) (uri : String) : (r.placed uri).uris.Nodup := by
  unfold Deposited.uris placed
  cases r.description? with
  | none => simp
  | some d => simpa using (Transaction.descriptionUri_ne uri).symm

/-- **Induction along names**: if pending parents are `Above`, and what is named below such a parent
is `Below` and a parent in its turn, then so is every URI that is given out. -/
theorem Minted.forall_uris {host : Host} {Above Below : String → Prop}
    (child : ∀ parent count, Above parent →
      Below (Transaction.childUri parent (host.freshName count)))
    (description : ∀ uri, Below uri → Below (Transaction.descriptionUri uri))
    (nested : ∀ uri, Below uri → Above uri)
    {count : Nat} {pending left : List (Resource × String)} {ps : List Placement}
    (minted : Minted host count ps) (walks : Walks pending ps left)
    (above : ∀ x ∈ pending, Above x.2) : ∀ p ∈ ps, ∀ uri ∈ p.uris, Below uri := by
  induction ps generalizing pending count with
  | nil => simp
  | cons p ps ih =>
    cases pending with
    | nil => exact absurd walks (by simp [Walks])
    | cons first rest =>
      obtain ⟨-, hp, walks⟩ := walks
      obtain ⟨named, minted⟩ := minted
      have own := child p.parent (count + 1) (hp ▸ above first List.mem_cons_self)
      rintro q (_ | ⟨_, hq⟩) uri hu
      · rw [Placement.uris, named] at hu
        rcases Resource.mem_uris_placed hu with rfl | rfl
        · exact own
        · exact description _ own
      · refine ih minted walks (fun x hx => ?_) q hq uri hu
        rcases List.mem_append.mp hx with hx | hx
        · obtain ⟨r, -, rfl⟩ := List.mem_map.mp hx
          rw [named]
          exact nested _ own
        · exact above x (List.mem_cons_of_mem _ hx)

/-! ## URIs without fragment -/

theorem plain_childUri {parent name : String} (hp : '#' ∉ parent.toList)
    (hn : '#' ∉ name.toList) : '#' ∉ (Transaction.childUri parent name).toList ∧
      Transaction.childUri parent name ≠ "" := by
  have trimmed : '#' ∉ (Text.trimSlashes parent).toList := fun h => by
    rw [Text.trimSlashes, String.toList_ofList, List.mem_reverse] at h
    exact hp (List.mem_reverse.mp ((List.dropWhile_sublist _).subset h))
  constructor
  · simp only [Transaction.childUri, String.toList_append, List.mem_append, not_or]
    exact ⟨⟨trimmed, by decide⟩, hn⟩
  · intro h
    have := congrArg String.toList h
    simp [Transaction.childUri] at this

theorem plain_descriptionUri {uri : String} (h : '#' ∉ uri.toList) :
    '#' ∉ (Transaction.descriptionUri uri).toList ∧ Transaction.descriptionUri uri ≠ "" := by
  constructor
  · simp only [Transaction.descriptionUri, String.toList_append, List.mem_append, not_or]
    exact ⟨⟨h, by decide⟩, by decide⟩
  · intro h
    have := congrArg String.toList h
    simp [Transaction.descriptionUri] at this

/-- Below a URI without fragment, names without fragment make such URIs. -/
theorem Minted.plain {host : Host} (names : ∀ count, '#' ∉ (host.freshName count).toList)
    {count : Nat} {pending left : List (Resource × String)} {ps : List Placement}
    (walks : Walks pending ps left) (minted : Minted host count ps)
    (below : ∀ x ∈ pending, '#' ∉ x.2.toList) :
    ∀ p ∈ ps, ∀ uri ∈ p.uris, '#' ∉ uri.toList ∧ uri ≠ "" :=
  minted.forall_uris (fun _ k h => plain_childUri h (names k)) (fun _ h => plain_descriptionUri h.1)
    (fun _ h => h.1) walks below

/-! ## Children -/

/-- What is placed was pending, or is below something that was placed. -/
theorem Walks.mem {pending left : List (Resource × String)} {ps : List Placement}
    (h : Walks pending ps left) {q : Placement} (hq : q ∈ ps) :
    (q.resource, q.parent) ∈ pending ∨ ∃ p ∈ ps, (q.resource, q.parent) ∈ p.below := by
  induction ps generalizing pending with
  | nil => cases hq
  | cons p ps ih =>
    cases pending with
    | nil => exact absurd h (by simp [Walks])
    | cons first rest =>
      obtain ⟨hr, hp, hrest⟩ := h
      rcases List.mem_cons.mp hq with rfl | hq
      · refine .inl ?_
        rw [hr, hp]
        exact List.mem_cons_self
      · rcases ih hrest hq with hm | ⟨p', hp', hm⟩
        · rcases List.mem_append.mp hm with hm | hm
          · exact .inr ⟨p, List.mem_cons_self, hm⟩
          · exact .inl (List.mem_cons_of_mem _ hm)
        · exact .inr ⟨p', List.mem_cons_of_mem _ hp', hm⟩

/-- What is left pending was pending, or is below something that was placed. -/
theorem Walks.mem_left {pending left : List (Resource × String)} {ps : List Placement}
    (h : Walks pending ps left) {x : Resource × String} (hx : x ∈ left) :
    x ∈ pending ∨ ∃ p ∈ ps, x ∈ p.below := by
  induction ps generalizing pending with
  | nil =>
    obtain rfl : pending = left := h
    exact .inl hx
  | cons p ps ih =>
    cases pending with
    | nil => exact absurd h (by simp [Walks])
    | cons first rest =>
      obtain ⟨-, -, hrest⟩ := h
      rcases ih hrest with hm | ⟨p', hp', hm⟩
      · rcases List.mem_append.mp hm with hm | hm
        · exact .inr ⟨p, List.mem_cons_self, hm⟩
        · exact .inl (List.mem_cons_of_mem _ hm)
      · exact .inr ⟨p', List.mem_cons_of_mem _ hp', hm⟩

/-- A whole walk places what was pending, and everything below what it has placed. -/
theorem Walks.exists_of_pending {pending : List (Resource × String)} {ps : List Placement}
    (h : Walks pending ps []) {r : Resource} {parent : String}
    (hr : (r, parent) ∈ pending ∨ ∃ p ∈ ps, (r, parent) ∈ p.below) :
    ∃ q ∈ ps, q.resource = r ∧ q.parent = parent := by
  induction ps generalizing pending with
  | nil =>
    simp only [Walks] at h
    subst h
    rcases hr with hr | ⟨p, hp, -⟩
    · cases hr
    · cases hp
  | cons p ps ih =>
    cases pending with
    | nil => exact absurd h (by simp [Walks])
    | cons first rest =>
      obtain ⟨hpr, hpp, hrest⟩ := h
      have later (hm : (r, parent) ∈ p.below ++ rest ∨ ∃ q ∈ ps, (r, parent) ∈ q.below) :
          ∃ q ∈ p :: ps, q.resource = r ∧ q.parent = parent := by
        obtain ⟨q, hq, he⟩ := ih hrest hm
        exact ⟨q, List.mem_cons_of_mem _ hq, he⟩
      rcases hr with hr | ⟨q, hq, hr⟩
      · rcases List.mem_cons.mp hr with he | hr
        · cases he
          exact ⟨p, List.mem_cons_self, hpr, hpp⟩
        · exact later (.inl (List.mem_append_right _ hr))
      · rcases List.mem_cons.mp hq with rfl | hq
        · exact later (.inl (List.mem_append_left _ hr))
        · exact later (.inr ⟨q, hq, hr⟩)

/-- The statements that a container holds some resources, wherever they ended up. -/
def childStatements (uris : UriMap) (uri : String) (children : List Resource) : Graph :=
  Graph.ofList (children.filterMap fun r => (uris.get? r.id).map (Repository.containment uri))

/-- If what was placed below a URI are just some resources, it holds just these. -/
theorem containments_placements {ps : List Placement} {uris : UriMap} {uri : String}
    {children : List Resource}
    (recorded : ∀ q ∈ ps, uris.get? q.resource.id = some q.uri)
    (only : ∀ q ∈ ps, q.parent = uri → q.resource ∈ children)
    (all : ∀ r ∈ children, ∃ q ∈ ps, q.resource = r ∧ q.parent = uri) :
    Repository.containments uri (ps.map fun q => (q.parent, q.uri)) =
      childStatements uris uri children := by
  refine Graph.ext fun t => ?_
  simp only [Repository.mem_containments, childStatements, Graph.mem_ofList, List.mem_filterMap,
    Option.map_eq_some_iff, List.mem_map, Prod.mk.injEq]
  constructor
  · rintro ⟨child, ⟨q, hq, hp, rfl⟩, rfl⟩
    exact ⟨q.resource, only q hq hp, q.uri, recorded q hq, rfl⟩
  · rintro ⟨r, hr, child, hchild, rfl⟩
    obtain ⟨q, hq, rfl, hp⟩ := all r hr
    obtain rfl := Option.some.inj ((recorded q hq).symm.trans hchild)
    exact ⟨q.uri, ⟨q, hq, hp, rfl⟩, rfl⟩

end LinkedDeposit
