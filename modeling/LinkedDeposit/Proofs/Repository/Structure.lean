import LinkedDeposit.Proofs.Repository.LostUpdate
import LinkedDeposit.Proofs.Repository.Serial

/-!
# The structure of a repository

Every committed resource but the root has its place (`HasPlace`): a committed session has deposited
it below a container that is committed and says so, or it describes a committed binary. This holds
whatever the order of deposits, patches and commits, as long as no patch takes a containment away.

A session's new children are not in the graphs that it stages, and a commit adds them to whatever
stands at their parents by then. So the invariant speaks of what is staged (`Transaction.Ready`):
there is a container for each new child, each created resource is a new child or describes one, and
a patched resource still has the containments that the committed one has, unless the commit would be
refused anyway.

Results:
* `Ready.place`, `Ready.amend`, `Ready.evolves`: what the calls of a session, and the commits of the
  others, leave of this.
* `Ready.within_merge`: a commit keeps all containments.
* `hasPlace_of_run`: every committed resource but the root has its place, and has the content of a
  binary exactly if it is one.
-/

namespace LinkedDeposit

/-! ## Containments that stay -/

/-- The second graph has all containments of the first. -/
def Graph.ContainmentsIn (g h : Graph) : Prop :=
  ∀ t ∈ g, t.predicate = Vocabulary.ldpContains → t ∈ h

namespace Graph.ContainmentsIn

theorem refl (g : Graph) : g.ContainmentsIn g := fun _ h _ => h

theorem trans {g h k : Graph} (first : g.ContainmentsIn h) (second : h.ContainmentsIn k) :
    g.ContainmentsIn k := fun t ht contains => second t (first t ht contains) contains

theorem union_left (g h : Graph) : g.ContainmentsIn (g.union h) :=
  fun _ ht _ => Graph.mem_union.mpr (.inl ht)

end Graph.ContainmentsIn

/-- The patch removes no containment, except to add it again. -/
def Patch.KeepsContainments (p : Patch) : Prop := p.removed.ContainmentsIn p.added

instance (p : Patch) : Decidable p.KeepsContainments :=
  inferInstanceAs (Decidable (∀ t ∈ p.removed.toList, t.predicate = _ → t ∈ p.added))

theorem Patch.KeepsContainments.applyTo {p : Patch} (keeps : p.KeepsContainments) (g : Graph) :
    g.ContainmentsIn (p.applyTo g) := by
  intro t ht contains
  rw [Patch.mem_applyTo]
  by_cases removed : t ∈ p.removed
  · exact .inr (keeps t removed contains)
  · exact .inl ⟨ht, removed⟩

/-- If the call is a patch that was accepted, it removes no containment. -/
def Performed.KeepsContainments (p : Performed) : Prop :=
  match p.call with
  | .patch _ patch _ => p.succeeded = true → patch.KeepsContainments
  | _ => True

instance : (p : Performed) → Decidable p.KeepsContainments
  | ⟨session, name, .patch uri patch token, answer⟩ =>
    inferInstanceAs (Decidable
      (Performed.succeeded ⟨session, name, .patch uri patch token, answer⟩ = true →
        patch.KeepsContainments))
  | ⟨_, _, .deposit .., _⟩ | ⟨_, _, .fetch _, _⟩ | ⟨_, _, .commit, _⟩ | ⟨_, _, .rollback, _⟩ =>
    isTrue trivial

/-! ## Resources in their places -/

/-- The resource has the content of a binary exactly if it is one. -/
def Stored.IsWhole (s : Stored) : Prop := s.binary.isSome = true ↔ s.kind = .nonRdfSource

theorem Stored.IsWhole.congr {s s' : Stored} (h : s.IsWhole) (kind : s'.kind = s.kind)
    (binary : s'.binary = s.binary) : s'.IsWhole := by
  unfold IsWhole
  rw [kind, binary]
  exact h

theorem Stored.isWhole_ofGraph {kind : ResourceKind} (rdf : kind ≠ .nonRdfSource) (g : Graph) :
    (ofGraph kind g).IsWhole := iff_of_false (fun h => nomatch h) rdf

theorem Stored.isWhole_ofBinary (mediaType : String) (bytes : Bytes) :
    (ofBinary mediaType bytes).IsWhole := iff_of_true rfl rfl

/-- How a committed resource came to its URI. -/
inductive HasPlace (trace : List Performed) (r : Repository) (uri : String) (s : Stored) :
    Prop where
  /-- A committed session has deposited it below a container that says so. -/
  | child {session parent : String} {container : Stored} (committed : session ∈ committers trace)
      (deposited : (parent, uri) ∈ childrenOf session trace)
      (found : r.get? parent = some container) (isContainer : container.kind = .container)
      (contains : Repository.containment parent uri ∈ container.graph)
  /-- It describes a binary. -/
  | description {content : String} {binary : Stored}
      (place : uri = Transaction.descriptionUri content) (isRdf : s.kind = .rdfSource)
      (found : r.get? content = some binary) (isBinary : binary.kind = .nonRdfSource)

/-- A place is kept while the repository evolves, if no containment is taken away. -/
theorem HasPlace.evolves {trace : List Performed} {r q : Repository} {uri : String} {s s' : Stored}
    (h : HasPlace trace r uri s) (p : Performed) (evolved : r.Evolves q)
    (contained : ∀ k a b, r.get? k = some a → q.get? k = some b → a.graph.ContainmentsIn b.graph)
    (kind : s'.kind = s.kind) : HasPlace (trace ++ [p]) q uri s' := by
  cases h with
  | @child session parent container committed deposited found isContainer contains =>
    obtain ⟨later, found', becomes⟩ := evolved parent container found
    have committed' : session ∈ committers (trace ++ [p]) := by
      rw [committers_concat]
      exact List.mem_append_left _ committed
    have deposited' : (parent, uri) ∈ childrenOf session (trace ++ [p]) := by
      rw [childrenOf_concat]
      exact List.mem_append_left _ deposited
    exact .child committed' deposited' found' (becomes.kind.trans isContainer)
      (contained parent container later found found' _ contains rfl)
  | description place isRdf found isBinary =>
    obtain ⟨later, found', becomes⟩ := evolved _ _ found
    exact .description place (kind.trans isRdf) found' (becomes.kind.trans isBinary)

section StoredAt

variable {files : Files} {uri : String} {r : Resource} {new : Table String Stored}

/-- What is stored beside a new resource describes it, and it is a binary then. -/
theorem Resource.description_of_stored (h : r.stored files uri = .ok new) {k : String} {s : Stored}
    (hs : new.get? k = some s) (beside : k ≠ uri) :
    k = Transaction.descriptionUri uri ∧ s.kind = .rdfSource ∧ s.IsWhole ∧
      ∃ binary, new.get? uri = some binary ∧ binary.kind = .nonRdfSource := by
  have given := (get?_stored_isSome h k).mp (by rw [hs]; rfl)
  have described : k ∈ (r.description?.map fun _ => Transaction.descriptionUri uri).toList :=
    (List.mem_cons.mp given).resolve_left beside
  obtain ⟨d, hd, rfl⟩ := Option.map_eq_some_iff.mp (Option.mem_toList.mp described)
  obtain rfl := Option.some.inj (hs.symm.trans (get?_stored_description h hd))
  refine ⟨rfl, rfl, Stored.isWhole_ofGraph (by intro h; cases h) _, ?_⟩
  cases r with
  | container id g children => cases hd
  | rdfSource id g => cases hd
  | binary id b description =>
    obtain ⟨bytes, -, found⟩ := get?_stored_binary h rfl
    exact ⟨_, found, rfl⟩

theorem Resource.isWhole_stored (h : r.stored files uri = .ok new) {k : String} {s : Stored}
    (hs : new.get? k = some s) : s.IsWhole := by
  by_cases at_uri : k = uri
  · subst at_uri
    cases r with
    | container id g children =>
      obtain rfl := Option.some.inj (hs.symm.trans (get?_stored_graph h rfl))
      exact Stored.isWhole_ofGraph (by intro h; cases h) _
    | rdfSource id g =>
      obtain rfl := Option.some.inj (hs.symm.trans (get?_stored_graph h rfl))
      exact Stored.isWhole_ofGraph (by intro h; cases h) _
    | binary id b description =>
      obtain ⟨bytes, -, found⟩ := get?_stored_binary h rfl
      obtain rfl := Option.some.inj (hs.symm.trans found)
      exact Stored.isWhole_ofBinary _ _
  · exact (description_of_stored h hs at_uri).2.2.1

end StoredAt

namespace Transaction

/-- A staged RDF source describes a staged binary. -/
def Describes (t : Transaction) (uri : String) : Prop :=
  ∃ content binary s, uri = descriptionUri content ∧
    t.staged.get? content = some binary ∧ binary.kind = .nonRdfSource ∧
    t.staged.get? uri = some s ∧ s.kind = .rdfSource

theorem Describes.mono {t u : Transaction} {uri : String} (h : t.Describes uri)
    (kept : ∀ k s, t.staged.get? k = some s →
      ∃ s', u.staged.get? k = some s' ∧ s'.kind = s.kind) : u.Describes uri := by
  obtain ⟨content, binary, s, place, hb, isBinary, hs, isRdf⟩ := h
  obtain ⟨binary', hb', kind⟩ := kept content binary hb
  obtain ⟨s', hs', kind'⟩ := kept uri s hs
  exact ⟨content, binary', s', place, hb', kind.trans isBinary, hs', kind'.trans isRdf⟩

/-- What a session has staged will be in its place when it is committed. -/
structure Ready (t : Transaction) (r : Repository) : Prop where
  whole : ∀ uri s, t.staged.get? uri = some s → s.IsWhole
  parents : ∀ parent child, (parent, child) ∈ t.contained →
    ∃ s, (t.staged.get? parent).or (r.get? parent) = some s ∧ s.kind = .container
  created : ∀ uri, t.Creates uri →
    (∃ parent, (parent, uri) ∈ t.contained) ∨ t.Describes uri
  /-- What it patched has the containments of the committed resource, unless that has changed. -/
  kept : ∀ uri staged committed, t.staged.get? uri = some staged → r.get? uri = some committed →
    t.baseVersions.get? uri = some committed.version →
      committed.graph.ContainmentsIn staged.graph

theorem Ready.congr {t u : Transaction} {r : Repository} (h : t.Ready r) (same : t.SameWork u) :
    u.Ready r := by
  obtain ⟨staged, contained, baseVersions⟩ := same
  refine ⟨?_, ?_, ?_, ?_⟩
  · rw [staged]
    exact h.whole
  · rw [staged, contained]
    exact h.parents
  · unfold Creates Describes
    rw [staged, contained, baseVersions]
    exact h.created
  · rw [staged, baseVersions]
    exact h.kept

/-- Nothing is ready always. -/
theorem ready_finish (t : Transaction) (isCommit : Bool) (r : Repository) :
    (t.finish isCommit).Ready r where
  whole _ _ h := nomatch h
  parents _ _ h := nomatch h
  created _ h := by cases h.1
  kept _ _ _ h := nomatch h

/-- What is ready stays so while other sessions commit. -/
theorem Ready.evolves {t : Transaction} {r q : Repository} (h : t.Ready r) (fits : t.Fits r)
    (evolved : r.Evolves q) : t.Ready q where
  whole := h.whole
  parents parent child hc := by
    obtain ⟨s, found, isContainer⟩ := h.parents parent child hc
    cases hs : t.staged.get? parent with
    | some staged =>
      rw [hs, Option.some_or] at found
      exact ⟨staged, rfl, Option.some.inj found ▸ isContainer⟩
    | none =>
      rw [hs, Option.none_or] at found
      obtain ⟨later, found', becomes⟩ := evolved parent s found
      exact ⟨later, found', becomes.kind.trans isContainer⟩
  created := h.created
  kept uri staged committed hs hc hv := by
    -- a resource that has the noted version again is the one that had it
    obtain ⟨-, before, -, hb, notOlder, -⟩ := fits.patched uri _ hv
    obtain ⟨after, hc', becomes⟩ := evolved uri before hb
    obtain rfl := Option.some.inj (hc.symm.trans hc')
    obtain rfl := becomes.same (Nat.le_antisymm becomes.version notOlder)
    exact h.kept uri staged before hs hb hv

section Place

variable {t : Transaction} {r : Repository} {files : Files} {resource : Resource}
  {parent uri : String} {new : Table String Stored}

/-- What was staged or committed before is found as it was. -/
theorem get?_staged_place_of_found
    (unused : ∀ k, (new.get? k).isSome = true → r.get? k = none ∧ t.staged.get? k = none)
    {k : String} {s : Stored} (found : (t.staged.get? k).or (r.get? k) = some s) :
    (t.place parent uri new).staged.get? k = t.staged.get? k := by
  rw [get?_staged_place]
  cases hn : new.get? k with
  | none => exact Option.none_or
  | some s' =>
    obtain ⟨committed, staged⟩ := unused k (by rw [hn]; rfl)
    rw [committed, staged] at found
    cases found

/-- What is stored for a new resource is its parent's new child, or describes that. -/
theorem created_place (stored : resource.stored files uri = .ok new) {k : String} {s : Stored}
    (hn : new.get? k = some s) : (parent, k) ∈ (t.place parent uri new).contained ∨
      (t.place parent uri new).Describes k := by
  by_cases at_uri : k = uri
  · subst at_uri
    exact .inl (List.mem_append_right _ (List.mem_singleton_self _))
  · obtain ⟨place, isRdf, -, binary, found, isBinary⟩ :=
      Resource.description_of_stored stored hn at_uri
    refine .inr ⟨uri, binary, s, place, ?_, isBinary, ?_, isRdf⟩
    · rw [get?_staged_place, found, Option.some_or]
    · rw [get?_staged_place, hn, Option.some_or]

/-- Creating a resource at unused URIs keeps it ready. -/
theorem Ready.place (h : t.Ready r) {container : Stored}
    (seen : t.lookup r parent = some container) (isContainer : container.kind = .container)
    (stored : resource.stored files uri = .ok new)
    (unused : ∀ k, (new.get? k).isSome = true → r.get? k = none ∧ t.staged.get? k = none) :
    (t.place parent uri new).Ready r := by
  refine ⟨fun k s hs => ?_, fun above child hc => ?_, fun k ⟨isStaged, noBase⟩ => ?_,
    fun k staged committed hs hr hv => ?_⟩
  · rw [get?_staged_place] at hs
    rcases Option.or_eq_some_iff.mp hs with hn | ⟨-, hs⟩
    · exact Resource.isWhole_stored stored hn
    · exact h.whole k s hs
  · have found : ∃ s, (t.staged.get? above).or (r.get? above) = some s ∧ s.kind = .container := by
      rcases List.mem_append.mp hc with hc | hc
      · exact h.parents above child hc
      · obtain ⟨rfl, rfl⟩ := Prod.mk.inj (List.mem_singleton.mp hc)
        obtain ⟨s, hs, rfl⟩ := found_of_lookup seen
        exact ⟨s, hs, isContainer⟩
    obtain ⟨s, hs, kind⟩ := found
    exact ⟨s, by rw [get?_staged_place_of_found unused hs, hs], kind⟩
  · obtain ⟨s, hs⟩ := Option.isSome_iff_exists.mp isStaged
    rw [get?_staged_place] at hs
    rcases Option.or_eq_some_iff.mp hs with hn | ⟨-, hs⟩
    · exact (created_place stored hn).imp_left fun child => ⟨parent, child⟩
    · rcases h.created k ⟨by rw [hs]; rfl, noBase⟩ with ⟨above, hc⟩ | described
      · exact .inl ⟨above, List.mem_append_left _ hc⟩
      · refine .inr (described.mono fun k s hs => ⟨s, ?_, rfl⟩)
        rw [get?_staged_place_of_found unused (by rw [hs, Option.some_or]), hs]
  · rw [get?_staged_place] at hs
    rcases Option.or_eq_some_iff.mp hs with hn | ⟨-, hs⟩
    · cases hr.symm.trans (unused k (by rw [hn]; rfl)).1
    · exact h.kept k staged committed hs hr hv

end Place

/-- A patch leaves a resource of its kind. -/
theorem kind_staged_amend {t : Transaction} {r : Repository} {uri : String} {p : Patch}
    {found : Stored} (hf : (t.staged.get? uri).or (r.get? uri) = some found) {k : String}
    {s : Stored} (hs : t.staged.get? k = some s) :
    ∃ s', (t.amend uri p (t.shown uri found)).staged.get? k = some s' ∧ s'.kind = s.kind := by
  rw [get?_staged_amend]
  split
  · case isTrue same =>
    subst same
    rw [hs, Option.some_or] at hf
    obtain rfl := Option.some.inj hf
    exact ⟨_, rfl, rfl⟩
  · exact ⟨s, hs, rfl⟩

/-- A patch that removes no containment keeps those of the committed resource. -/
theorem Ready.kept_amend {t : Transaction} {r : Repository} (h : t.Ready r) {uri : String}
    {p : Patch} (keeps : p.KeepsContainments) {seen : Stored} (hl : t.lookup r uri = some seen)
    {k : String} {staged committed : Stored}
    (hs : (t.amend uri p seen).staged.get? k = some staged) (hr : r.get? k = some committed)
    (hv : (t.amend uri p seen).baseVersions.get? k = some committed.version) :
    committed.graph.ContainmentsIn staged.graph := by
  rw [get?_staged_amend] at hs
  rw [get?_baseVersions_amend] at hv
  split at hs
  · case isTrue same =>
    subst same
    obtain rfl := Option.some.inj hs
    obtain ⟨found, hf, rfl⟩ := found_of_lookup hl
    have grows : found.graph.ContainmentsIn (p.applyTo (t.shown k found).graph) :=
      .trans (.union_left _ _) (keeps.applyTo _)
    refine .trans ?_ grows
    rcases Option.or_eq_some_iff.mp hf with hs | ⟨-, hc⟩
    · rw [hs, if_neg (by simp)] at hv
      exact h.kept k found committed hs hr hv
    · obtain rfl := Option.some.inj (hr.symm.trans hc)
      exact .refl _
  · case isFalse other =>
    rw [if_neg fun both => other both.1] at hv
    exact h.kept k staged committed hs hr hv

/-- A patch that removes no containment keeps it ready. -/
theorem Ready.amend {t : Transaction} {r : Repository} (h : t.Ready r) {uri : String} {p : Patch}
    (keeps : p.KeepsContainments) {seen : Stored} (hl : t.lookup r uri = some seen)
    (whole : ∀ s, r.get? uri = some s → s.IsWhole) : (t.amend uri p seen).Ready r := by
  refine ⟨fun k s hs => ?_, fun above child hc => ?_, fun k hk => ?_,
    fun _ _ _ hs hr hv => h.kept_amend keeps hl hs hr hv⟩
  all_goals obtain ⟨found, hf, rfl⟩ := found_of_lookup hl
  · rw [get?_staged_amend] at hs
    split at hs
    · obtain rfl := Option.some.inj hs
      have foundWhole : found.IsWhole := by
        rcases Option.or_eq_some_iff.mp hf with hs | ⟨-, hc⟩
        · exact h.whole uri found hs
        · exact whole found hc
      exact foundWhole.congr rfl rfl
    · exact h.whole k s hs
  · obtain ⟨s, hs, isContainer⟩ := h.parents above child hc
    rw [get?_staged_amend]
    split
    · case isTrue same =>
      subst same
      obtain rfl := Option.some.inj (hs.symm.trans hf)
      exact ⟨_, rfl, isContainer⟩
    · exact ⟨s, hs, isContainer⟩
  · exact (h.created k (creates_amend.mp hk)).imp_right
      fun described => described.mono fun _ _ => kind_staged_amend hf

/-! ## Commits -/

/-- **A commit keeps all containments.** -/
theorem Ready.within_merge {t : Transaction} {r : Repository} (h : t.Ready r) (fits : t.Fits r)
    (agreed : t.conflict? r = none) {uri : String} {a b : Stored} (ha : r.get? uri = some a)
    (hb : (t.merge r).get? uri = some b) : a.graph.ContainmentsIn b.graph := by
  rw [t.get?_merge r uri, ha] at hb
  obtain ⟨found, hf, rfl⟩ := Option.map_eq_some_iff.mp hb
  rw [Stored.graph_containAll]
  refine .trans ?_ (.union_left _ _)
  cases hs : t.staged.get? uri with
  | none =>
    rw [hs, Option.none_or] at hf
    obtain rfl := Option.some.inj hf
    exact .refl _
  | some staged =>
    rw [hs, Option.some_or] at hf
    obtain rfl := Option.some.inj hf
    obtain ⟨version, hv⟩ := fits.noted hs ha
    obtain ⟨a', ha', rfl⟩ := conflict?_eq_none_iff.mp agreed uri version hv
    obtain rfl := Option.some.inj (ha.symm.trans ha')
    exact h.kept uri staged a hs ha hv

/-- What is staged or committed is committed after a commit, and of its kind. -/
theorem get?_merge_kind {t : Transaction} {r : Repository} {uri : String} {s : Stored}
    (hs : (t.staged.get? uri).or (r.get? uri) = some s) :
    ∃ s', (t.merge r).get? uri = some s' ∧ s'.kind = s.kind := by
  rw [t.get?_merge r uri, hs]
  exact ⟨_, rfl, (s.becomes_containAll uri t.contained).kind⟩

/-- What a commit brings is in its place. -/
theorem Ready.hasPlace_merge {t : Transaction} {r : Repository} (h : t.Ready r) (fits : t.Fits r)
    {trace : List Performed} {session : String} (committed : session ∈ committers trace)
    (deposited : ∀ c ∈ t.contained, c ∈ childrenOf session trace) {uri : String} {s : Stored}
    (hs : (t.merge r).get? uri = some s) (new : r.get? uri = none) :
    HasPlace trace (t.merge r) uri s := by
  rw [t.get?_merge r uri, new, Option.or_none] at hs
  obtain ⟨staged, hstaged, rfl⟩ := Option.map_eq_some_iff.mp hs
  have created : t.Creates uri := by
    refine ⟨by rw [hstaged]; rfl, Option.eq_none_iff_forall_ne_some.mpr fun version hv => ?_⟩
    obtain ⟨-, committed, -, hc, -⟩ := fits.patched uri version hv
    cases new.symm.trans hc
  rcases h.created uri created with ⟨parent, hc⟩ | described
  · obtain ⟨container, found, isContainer⟩ := h.parents parent uri hc
    have merged := t.get?_merge r parent
    rw [found, Option.map_some] at merged
    refine .child committed (deposited _ hc) merged
      ((container.becomes_containAll parent t.contained).kind.trans isContainer) ?_
    rw [Stored.graph_containAll, Graph.mem_union, Repository.mem_containments]
    exact .inr ⟨uri, hc, rfl⟩
  · obtain ⟨content, binary, s', place, hb, isBinary, hs', isRdf⟩ := described
    obtain rfl := Option.some.inj (hstaged.symm.trans hs')
    obtain ⟨binary', hb', kind⟩ := get?_merge_kind (r := r) (by rw [hb, Option.some_or])
    exact .description place ((staged.becomes_containAll uri t.contained).kind.trans isRdf) hb'
      (kind.trans isBinary)

theorem Ready.isWhole_merge {t : Transaction} {r : Repository} (h : t.Ready r)
    (whole : ∀ uri s, r.get? uri = some s → s.IsWhole) {uri : String} {s : Stored}
    (hs : (t.merge r).get? uri = some s) : s.IsWhole := by
  rw [t.get?_merge r uri] at hs
  obtain ⟨found, hf, rfl⟩ := Option.map_eq_some_iff.mp hs
  have becomes := found.becomes_containAll uri t.contained
  refine Stored.IsWhole.congr ?_ becomes.kind becomes.binary
  rcases Option.or_eq_some_iff.mp hf with hstaged | ⟨-, hc⟩
  · exact h.whole uri found hstaged
  · exact whole uri found hc

end Transaction

/-! ## Schedules -/

namespace Workspace

/-- What a trace and the workspace after it have to do with each other. -/
structure Structured (rootUri : String) (trace : List Performed) (w : Workspace) : Prop where
  coherent : w.Coherent
  remembers : Remembers trace w
  ready : ∀ name, (w.transaction name).Ready w.repository
  whole : ∀ uri s, w.repository.get? uri = some s → s.IsWhole
  places : ∀ uri s, w.repository.get? uri = some s → uri ≠ rootUri →
    HasPlace trace w.repository uri s

variable {host : Host} {rootUri : String} {trace : List Performed} {w : Workspace}

theorem structured_new (rootUri : String) : Structured rootUri [] (new rootUri) := by
  have root (uri : String) (s : Stored) (hs : (new rootUri).repository.get? uri = some s) :
      uri = rootUri ∧ s = .ofGraph .container Graph.empty := by
    change ((Table.empty : Repository).insert rootUri _).get? uri = some s at hs
    rw [Table.get?_insert] at hs
    split at hs
    · case isTrue same => exact ⟨same, (Option.some.inj hs).symm⟩
    · cases hs
  refine ⟨coherent_idle _ _, remembers_start _ _, fun name => ?_, fun uri s hs => ?_,
    fun uri s hs other => ?_⟩
  · exact ⟨fun _ _ h => (nomatch h), fun _ _ h => (nomatch h), fun _ h => (by cases h.1),
      fun _ _ _ h => nomatch h⟩
  · rw [(root uri s hs).2]
    exact Stored.isWhole_ofGraph (by intro h; cases h) _
  · exact absurd (root uri s hs).1 other

/-- A call that commits nothing leaves every resource in its place. -/
theorem Structured.unchanged {w' : Workspace} {p : Performed} (h : Structured rootUri trace w)
    (coherent : w'.Coherent) (remembers : Remembers (trace ++ [p]) w')
    (same : w'.repository = w.repository)
    (ready : ∀ name, (w'.transaction name).Ready w.repository) :
    Structured rootUri (trace ++ [p]) w' := by
  refine ⟨coherent, remembers, ?_, ?_, ?_⟩
  · rw [same]
    exact ready
  · rw [same]
    exact h.whole
  · intro uri s hs other
    rw [same] at hs ⊢
    refine (h.places uri s hs other).evolves p (.refl _) (fun k a b ha hb => ?_) rfl
    obtain rfl := Option.some.inj (ha.symm.trans hb)
    exact .refl _

/-- A commit puts what it brings into its place and leaves the rest there. -/
theorem Structured.committed {w' : Workspace} {name : String} {p : Performed}
    (h : Structured rootUri trace w) (coherent : w'.Coherent)
    (remembers : Remembers (trace ++ [p]) w')
    (unfinished : (w.transaction name).lifecycle.isFinished = false)
    (agreed : (w.transaction name).conflict? w.repository = none)
    (same : w'.repository = (w.transaction name).merge w.repository)
    (finished : ∀ other, w'.transaction other =
      if other = name then (w.transaction name).finish true else w.transaction other)
    (isCommit : p.session = name ∧ p.isCommit = true) :
    Structured rootUri (trace ++ [p]) w' := by
  have fits := h.coherent.fits name
  have evolved := fits.evolves_merge agreed
  refine ⟨coherent, remembers, fun other => ?_, fun uri s hs => ?_, fun uri s hs other => ?_⟩
  · rw [finished, same]
    split
    · exact Transaction.ready_finish _ _ _
    · exact (h.ready other).evolves (h.coherent.fits other) evolved
  · rw [same] at hs
    exact (h.ready name).isWhole_merge h.whole hs
  · rw [same] at hs ⊢
    cases hr : w.repository.get? uri with
    | some before =>
      obtain ⟨after, hs', becomes⟩ := evolved uri before hr
      obtain rfl := Option.some.inj (hs.symm.trans hs')
      exact (h.places uri before hr other).evolves p evolved
        (fun _ _ _ => (h.ready name).within_merge fits agreed) becomes.kind
    | none =>
      have committed : name ∈ committers (trace ++ [p]) := by
        rw [committers_concat, if_pos isCommit.2, isCommit.1]
        exact List.mem_append_right _ (List.mem_singleton_self _)
      refine (h.ready name).hasPlace_merge fits committed (fun c hc => ?_) hs hr
      rw [childrenOf_concat, ← h.remembers.children name unfinished]
      exact List.mem_append_left _ hc

/-- **A step keeps the structure**, if it is no patch that takes a containment away. -/
theorem structured_step (h : Structured rootUri trace w) {name : String} {c : SessionCall}
    (fresh : w.CreatesFresh host name c)
    (keeps : (w.performed host name c).KeepsContainments) :
    Structured rootUri (trace ++ [w.performed host name c]) (w.step host name c).2 := by
  have coherent := (coherent_step h.coherent fresh).1
  have remembers : Remembers (trace ++ [w.performed host name c]) (w.step host name c).2 :=
    remembers_step h.remembers
  obtain ⟨answer, r, t, hstep, performed⟩ := step_performs host name c w
  unfold CreatesFresh at fresh
  unfold Workspace.performed at keeps remembers ⊢
  rw [hstep] at fresh keeps coherent remembers ⊢
  have ready (now : t.Ready w.repository) (other : String) :
      ((w.after name c (answer, r, t)).transaction other).Ready w.repository := by
    rw [transaction_after]
    split
    · exact now
    · exact h.ready other
  cases performed with
  | refused | conflicting =>
    exact h.unchanged coherent remembers rfl (ready (h.ready name))
  | failed | fetched | unasked =>
    exact h.unchanged coherent remembers rfl (ready ((h.ready name).congr ⟨rfl, rfl, rfl⟩))
  | placed resource parent container new unfinished seen isContainer stored =>
    refine h.unchanged coherent remembers rfl (ready ((h.ready name).place seen isContainer stored
      fun k hk => ?_))
    have unused := fresh k ((Resource.get?_stored_isSome stored k).mp hk)
    exact ⟨unused.1, unused.2 name⟩
  | patched uri p stored unfinished proper seen =>
    exact h.unchanged coherent remembers rfl
      (ready ((h.ready name).amend (keeps rfl) seen (h.whole uri)))
  | rolledBack =>
    exact h.unchanged coherent remembers rfl (ready (Transaction.ready_finish _ _ _))
  | committed unfinished agreed =>
    exact h.committed coherent remembers unfinished agreed rfl
      (fun other => transaction_after w name other _ _) ⟨rfl, rfl⟩

/-- **Every resource has its place.** After any schedule of sessions on a repository that began with
a root, in which no patch takes a containment away, every committed resource but the root has been
deposited by a committed session below a committed container that says so, or describes a committed
binary; and it has the content of a binary exactly if it is one. -/
theorem hasPlace_of_run (host : Host) (rootUri : String) (schedule : List (String × SessionCall))
    (fresh : MintsFresh host schedule (new rootUri))
    (keeps : ∀ p ∈ (run host schedule (new rootUri)).1, p.KeepsContainments) :
    let (trace, w) := run host schedule (new rootUri)
    ∀ uri s, w.repository.get? uri = some s →
      (uri ≠ rootUri → HasPlace trace w.repository uri s) ∧
        (s.binary.isSome = true ↔ s.kind = .nonRdfSource) := by
  have structured := run_induction
    (P := fun trace w => (∀ p ∈ trace, p.KeepsContainments) → Structured rootUri trace w)
    (fun _ => structured_new rootUri)
    (fun trace w name c ih fresh keeps =>
      have keeps := List.forall_mem_append.mp keeps
      structured_step (ih keeps.1) fresh (keeps.2 _ List.mem_cons_self))
    fresh keeps
  exact fun uri s hs => ⟨structured.places uri s hs, structured.whole uri s hs⟩

/-- A patch that states a containment anew and adds a title. -/
def restated : Patch :=
  let containment := Repository.containment "r/1" "r/1/3"
  ⟨Graph.ofList [containment, ⟨.iri "r/1", "title", .plain "x"⟩], Graph.ofList [containment]⟩

/-- A session deposits a described binary below its own new container, which it patches, while
another one deposits beside it. -/
def nested : List (String × SessionCall) :=
  [("a", .deposit (.container "x" Graph.empty []) "r"),
    ("b", .deposit (.rdfSource "y" Graph.empty) "r"),
    ("a", .deposit (.binary "z" ⟨"text/plain", .bytes [1]⟩ (some ⟨"d", Graph.empty⟩)) "r/1"),
    ("a", .patch "r/1" restated "1"), ("b", .commit), ("a", .commit)]

theorem hasPlace_of_run_nested :
    let (trace, w) := run .numbering nested (new "r")
    MintsFresh .numbering nested (new "r") ∧ (∀ p ∈ trace, p.KeepsContainments) ∧
      w.repository.keys = ["r", "r/1", "r/1/3", "r/1/3/fcr:metadata", "r/2"] ∧
      ∀ uri s, w.repository.get? uri = some s →
        (uri ≠ "r" → HasPlace trace w.repository uri s) ∧
          (s.binary.isSome = true ↔ s.kind = .nonRdfSource) :=
  have fresh : MintsFresh .numbering nested (new "r") := by decide +kernel
  have keeps : ∀ p ∈ (run .numbering nested (new "r")).1, p.KeepsContainments := by decide +kernel
  ⟨fresh, keeps, by decide +kernel, hasPlace_of_run .numbering "r" nested fresh keeps⟩

end Workspace

end LinkedDeposit
