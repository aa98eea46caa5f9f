import LinkedDeposit.Proofs.Package.Distinct
import LinkedDeposit.Proofs.Package.WellFormed

/-!
# The manifests that load

A manifest loads exactly if it is well formed and the package provides what its nodes ask for, and
its tree has its shape.

`LoadsAs` is a program logic like `Loads`, for the runs that succeed and for when they do. What it
says of a node is `ManifestNode.Becomes`.

Results:
* `loadsAs_toResource`, `loadsAs_toResources`: the rule of each node, by recursion on it.
* `toTree_loads_iff`: the manifests that load, and the trees that they become.
-/

namespace LinkedDeposit

/-! ## Loads that succeed -/

section Logic

variable {σ α β : Type}

/-- A sequence succeeds exactly if its parts do. -/
theorem run_bind_eq_ok_iff {x : ExceptT DepositError (StateM σ) α}
    {f : α → ExceptT DepositError (StateM σ) β} {z z'' : σ} {b : β} :
    (x >>= f).run.run z = (.ok b, z'') ↔
      ∃ a z', x.run.run z = (.ok a, z') ∧ (f a).run.run z' = (.ok b, z'') := by
  refine ⟨ok_of_bind, ?_⟩
  rintro ⟨a, z', first, second⟩
  rw [ExceptT.run_bind, StateT.run_bind, first]
  exact second

theorem run_pure_eq_ok_iff {a b : α} {z z' : σ} :
    (pure a : ExceptT DepositError (StateM σ) α).run.run z = (.ok b, z') ↔ b = a ∧ z' = z := by
  constructor
  · intro done
    cases done
    exact ⟨rfl, rfl⟩
  · rintro ⟨rfl, rfl⟩
    rfl

theorem run_throw_eq_ok_iff {e : DepositError} {b : α} {z z' : σ} :
    (throw e : ExceptT DepositError (StateM σ) α).run.run z = (.ok b, z') ↔ False := by
  refine ⟨fun done => ?_, False.elim⟩
  cases done

/-- A check, and what comes after it. -/
theorem run_guard_eq_ok_iff {c : Prop} [Decidable c] {e : DepositError}
    {next : PUnit → ExceptT DepositError (StateM σ) α} {a : α} {z z' : σ} :
    (if c then MonadExcept.throw e >>= next else next ⟨⟩).run.run z = (.ok a, z') ↔
      ¬ c ∧ (next ⟨⟩).run.run z = (.ok a, z') := by
  by_cases h : c
  · rw [if_pos h, run_bind_eq_ok_iff]
    refine ⟨?_, fun passed => absurd h passed.1⟩
    rintro ⟨_, _, done, -⟩
    cases done
  · rw [if_neg h, and_iff_right h]

theorem run_liftM_eq_ok_iff {e : Except DepositError α} {a : α} {z z' : σ} :
    (liftM e : ExceptT DepositError (StateM σ) α).run.run z = (.ok a, z') ↔
      e = .ok a ∧ z' = z := by
  cases e with
  | error e => exact ⟨fun done => (by cases done), fun h => (nomatch h.1)⟩
  | ok b => exact run_pure_eq_ok_iff.trans (by rw [Except.ok.injEq, eq_comm])

/-- Ids that are distinct and were not met yet. -/
structure AreNew (ids : List String) (seen : SeenIds) : Prop where
  distinct : ids.Nodup
  unseen : ∀ id ∈ ids, id ∉ seen

theorem areNew_nil (seen : SeenIds) : AreNew [] seen := ⟨List.nodup_nil, fun _ h => nomatch h⟩

theorem areNew_append {ids ids' : List String} {seen : SeenIds} :
    AreNew (ids ++ ids') seen ↔ AreNew ids seen ∧ AreNew ids' (ids.reverse ++ seen) := by
  constructor
  · rintro ⟨distinct, unseen⟩
    obtain ⟨first, second, apart⟩ := List.nodup_append.mp distinct
    refine ⟨⟨first, fun id h => unseen id (List.mem_append_left _ h)⟩, second, fun id h seen => ?_⟩
    rcases List.mem_append.mp seen with before | before
    · exact apart id (List.mem_reverse.mp before) id h rfl
    · exact unseen id (List.mem_append_right _ h) before
  · rintro ⟨⟨first, unseen⟩, second, unseen'⟩
    refine ⟨List.nodup_append.mpr ⟨first, second, ?_⟩, fun id h => ?_⟩
    · rintro id h _ h' rfl
      exact unseen' id h' (List.mem_append_left _ (List.mem_reverse.mpr h))
    · rcases List.mem_append.mp h with h | h
      · exact unseen id h
      · exact fun before => unseen' id h (List.mem_append_right _ before)

/-- A load succeeds exactly as the rule says, and if the ids that the rule names are new. It notes
these ids. -/
def LoadsAs (load : StateT SeenIds (ExceptT DepositError (StateM σ)) α)
    (rule : List String → σ → α → σ → Prop) : Prop :=
  ∀ seen z a seen' z', (load.run seen).run.run z = (.ok (a, seen'), z') ↔
    ∃ ids, rule ids z a z' ∧ AreNew ids seen ∧ seen' = ids.reverse ++ seen

namespace LoadsAs

theorem congr {load : StateT SeenIds (ExceptT DepositError (StateM σ)) α}
    {rule rule' : List String → σ → α → σ → Prop} (h : LoadsAs load rule)
    (same : ∀ ids z a z', rule ids z a z' ↔ rule' ids z a z') : LoadsAs load rule' := by
  intro seen z a seen' z'
  rw [h seen z a seen' z']
  simp only [same]

/-- What does not ask for the ids notes none. -/
theorem lift (load : ExceptT DepositError (StateM σ) α) :
    LoadsAs (liftM load) fun ids z a z' => load.run.run z = (.ok a, z') ∧ ids = [] := by
  intro seen z a seen' z'
  change (load >>= fun a => Pure.pure (a, seen)).run.run z = _ ↔ _
  rw [run_bind_eq_ok_iff]
  constructor
  · rintro ⟨_, _, done, ended⟩
    obtain ⟨same, rfl⟩ := run_pure_eq_ok_iff.mp ended
    cases same
    exact ⟨[], ⟨done, rfl⟩, areNew_nil seen, rfl⟩
  · rintro ⟨_, ⟨done, rfl⟩, -, rfl⟩
    exact ⟨a, z', done, rfl⟩

theorem pure (a : α) :
    LoadsAs (σ := σ) (Pure.pure a) fun ids z b z' => b = a ∧ z' = z ∧ ids = [] :=
  (lift (Pure.pure a)).congr fun ids z b z' => by rw [run_pure_eq_ok_iff, and_assoc]

theorem bind {load : StateT SeenIds (ExceptT DepositError (StateM σ)) α}
    {next : α → StateT SeenIds (ExceptT DepositError (StateM σ)) β}
    {rule : List String → σ → α → σ → Prop} {rule' : α → List String → σ → β → σ → Prop}
    (first : LoadsAs load rule) (second : ∀ a, LoadsAs (next a) (rule' a)) :
    LoadsAs (load >>= next) fun ids z b z'' => ∃ a z' before after, rule before z a z' ∧
      rule' a after z' b z'' ∧ ids = before ++ after := by
  intro seen z b seen'' z''
  rw [StateT.run_bind, run_bind_eq_ok_iff]
  constructor
  · rintro ⟨⟨a, seen'⟩, z', done, ended⟩
    obtain ⟨before, applies, new, rfl⟩ := (first seen z a seen' z').mp done
    obtain ⟨after, applies', new', rfl⟩ := (second a _ z' b seen'' z'').mp ended
    refine ⟨before ++ after, ⟨a, z', before, after, applies, applies', rfl⟩,
      areNew_append.mpr ⟨new, new'⟩, ?_⟩
    rw [List.reverse_append, List.append_assoc]
  · rintro ⟨_, ⟨a, z', before, after, applies, applies', rfl⟩, new, rfl⟩
    obtain ⟨new, new'⟩ := areNew_append.mp new
    refine ⟨(a, before.reverse ++ seen), z', (first ..).mpr ⟨before, applies, new, rfl⟩,
      (second ..).mpr ⟨after, applies', new', ?_⟩⟩
    rw [List.reverse_append, List.append_assoc]

/-- What is made of the outcome of a load in the end. -/
theorem map {load : StateT SeenIds (ExceptT DepositError (StateM σ)) α}
    {rule : List String → σ → α → σ → Prop} (h : LoadsAs load rule) (f : α → β) :
    LoadsAs (load >>= fun a => Pure.pure (f a)) fun ids z b z' =>
      ∃ a, rule ids z a z' ∧ b = f a := by
  refine (h.bind fun a => pure (f a)).congr fun ids z b z' => ⟨?_, ?_⟩
  · rintro ⟨a, _, _, _, applies, ⟨rfl, rfl, rfl⟩, rfl⟩
    exact ⟨a, by rwa [List.append_nil], rfl⟩
  · rintro ⟨a, applies, rfl⟩
    exact ⟨a, z', ids, [], applies, ⟨rfl, rfl, rfl⟩, (List.append_nil ids).symm⟩

/-- What does not ask for the ids comes first. -/
theorem lift_bind {load : ExceptT DepositError (StateM σ) α}
    {next : α → StateT SeenIds (ExceptT DepositError (StateM σ)) β}
    {rule : α → List String → σ → β → σ → Prop} (second : ∀ a, LoadsAs (next a) (rule a)) :
    LoadsAs (liftM load >>= next) fun ids z b z'' =>
      ∃ a z', load.run.run z = (.ok a, z') ∧ rule a ids z' b z'' := by
  refine ((lift load).bind second).congr fun ids z b z'' => ⟨?_, ?_⟩
  · rintro ⟨a, z', _, _, ⟨done, rfl⟩, applies, rfl⟩
    exact ⟨a, z', done, applies⟩
  · rintro ⟨a, z', done, applies⟩
    exact ⟨a, z', [], ids, ⟨done, rfl⟩, applies, rfl⟩

theorem noteId (id : String) :
    LoadsAs (σ := σ) (LinkedDeposit.noteId id) fun ids z _ z' => z' = z ∧ ids = [id] := by
  intro seen z a seen' z'
  change ((if id ∈ seen then MonadExcept.throw (.duplicateId id) else modify (id :: ·) :
    StateT SeenIds (ExceptT DepositError (StateM σ)) Unit).run seen).run.run z = _ ↔ _
  by_cases known : id ∈ seen
  · rw [if_pos known]
    refine ⟨fun done => (by cases done), ?_⟩
    rintro ⟨_, ⟨-, rfl⟩, new, -⟩
    exact absurd known (new.unseen id List.mem_cons_self)
  · rw [if_neg known]
    constructor
    · intro done
      cases done
      refine ⟨[id], ⟨rfl, rfl⟩, ⟨List.nodup_singleton id, fun _ h => ?_⟩, rfl⟩
      rwa [List.mem_singleton.mp h]
    · rintro ⟨_, ⟨rfl, rfl⟩, -, rfl⟩
      rfl

/-- An id is noted first. -/
theorem noteId_bind (id : String) {next : StateT SeenIds (ExceptT DepositError (StateM σ)) β}
    {rule : List String → σ → β → σ → Prop} (second : LoadsAs next rule) :
    LoadsAs (LinkedDeposit.noteId id >>= fun _ => next) fun ids z b z' =>
      ∃ rest, ids = id :: rest ∧ rule rest z b z' := by
  refine ((noteId id).bind fun _ => second).congr fun ids z b z' => ⟨?_, ?_⟩
  · rintro ⟨_, _, _, rest, ⟨rfl, rfl⟩, applies, rfl⟩
    exact ⟨rest, rfl, applies⟩
  · rintro ⟨rest, rfl, applies⟩
    exact ⟨(), z, [id], rest, ⟨rfl, rfl⟩, applies, rfl⟩

end LoadsAs

end Logic

/-! ## Rules for the parts of a node -/

section Nodes

variable {σ : Type} {source : PackageSource (StateM σ)} {z z' : σ}

theorem run_loadGraph {graph : Option GraphSource} {g : Graph} :
    (loadGraph source graph).run.run z = (.ok g, z') ↔ GivesGraph source graph z g z' := by
  constructor
  · intro done
    match graph with
    | none =>
      obtain ⟨rfl, rfl⟩ := run_pure_eq_ok_iff.mp done
      exact .absent _
    | some (.inline doc) =>
      obtain ⟨accepted, rfl⟩ := run_liftM_eq_ok_iff.mp done
      exact .inline _ accepted
    | some (.file path) =>
      obtain ⟨bytes, _, read, done⟩ := run_bind_eq_ok_iff.mp done
      split at done
      · case h_1 doc parsed =>
        obtain ⟨accepted, rfl⟩ := run_liftM_eq_ok_iff.mp done
        exact .file read parsed accepted
      · cases done
  · intro given
    cases given with
    | absent => rfl
    | inline _ accepted => exact run_liftM_eq_ok_iff.mpr ⟨accepted, rfl⟩
    | file read parsed accepted =>
      refine run_bind_eq_ok_iff.mpr ⟨_, _, read, ?_⟩
      rw [parsed]
      exact run_liftM_eq_ok_iff.mpr ⟨accepted, rfl⟩

namespace ManifestNode

section Parts

variable {n : ManifestNode}

theorem run_rejectBinaryFields :
    (n.rejectBinaryFields : ExceptT DepositError (StateM σ) Unit).run.run z = (.ok (), z') ↔
      n.hasBinaryField = false ∧ z' = z := by
  unfold rejectBinaryFields
  split
  case isTrue h => rw [h, run_throw_eq_ok_iff]; simp
  case isFalse h => rw [Bool.eq_false_iff.mpr h, run_pure_eq_ok_iff]; simp

theorem run_loadRdfSource {g : Graph} : (n.loadRdfSource source).run.run z = (.ok g, z') ↔
    n.hasBinaryField = false ∧ n.children = [] ∧ GivesGraph source n.graph z g z' := by
  unfold loadRdfSource
  rw [run_bind_eq_ok_iff]
  constructor
  · rintro ⟨_, _, passed, done⟩
    obtain ⟨plain, rfl⟩ := run_rejectBinaryFields.mp passed
    obtain ⟨leaf, done⟩ := run_guard_eq_ok_iff.mp done
    exact ⟨plain, by simpa using leaf, run_loadGraph.mp done⟩
  · rintro ⟨plain, leaf, given⟩
    refine ⟨(), z, run_rejectBinaryFields.mpr ⟨plain, rfl⟩, run_guard_eq_ok_iff.mpr ⟨?_, ?_⟩⟩
    · simp [leaf]
    · exact run_loadGraph.mpr given

theorem run_loadBinary {b : Binary} : (n.loadBinary source).run.run z = (.ok b, z') ↔
    (n.graph = none ∧ n.children = []) ∧ (∀ d ∈ n.description, d.isPlainRdfSource = true) ∧
      ∃ path c, n.file = some path ∧ (source.binary path).run.run z = (.ok c, z') ∧
        b = ⟨n.mediaType.getD Vocabulary.octetStream, c⟩ := by
  unfold loadBinary
  rw [run_guard_eq_ok_iff]
  refine and_congr (by simp) ?_
  split
  case h_1 d bad =>
    obtain ⟨is, notPlain⟩ := Option.filter_eq_some_iff.mp bad
    rw [run_throw_eq_ok_iff, false_iff]
    rintro ⟨described, -⟩
    rw [described d is] at notPlain
    cases notPlain
  case h_2 good =>
    rw [and_iff_right (by simpa using good)]
    split
    case h_1 absent =>
      rw [run_throw_eq_ok_iff, false_iff]
      rintro ⟨_, _, named, -⟩
      cases absent.symm.trans named
    case h_2 path named =>
      rw [run_bind_eq_ok_iff]
      constructor
      · rintro ⟨c, _, found, done⟩
        obtain ⟨rfl, rfl⟩ := run_pure_eq_ok_iff.mp done
        exact ⟨path, c, named, found, rfl⟩
      · rintro ⟨_, c, named', found, rfl⟩
        obtain rfl := Option.some.inj (named.symm.trans named')
        exact ⟨c, z', found, rfl⟩

/-- A plain description is one node, and provided for as one. -/
theorem loadsAs_loadDescription (d : ManifestNode) :
    LoadsAs (loadDescription source (some d)) fun ids z description z' =>
      ids = [d.id] ∧ d.hasBinaryField = false ∧ d.children = [] ∧
        ∃ g, GivesGraph source d.graph z g z' ∧ description = some ⟨d.id, g⟩ := by
  refine (LoadsAs.noteId_bind d.id ((LoadsAs.lift _).map fun g =>
    some (Description.mk d.id g))).congr fun ids z description z' => ?_
  simp only [run_loadRdfSource]
  constructor
  · rintro ⟨_, rfl, g, ⟨⟨plain, leaf, given⟩, rfl⟩, rfl⟩
    exact ⟨rfl, plain, leaf, g, given, rfl⟩
  · rintro ⟨rfl, plain, leaf, g, given, rfl⟩
    exact ⟨[], rfl, g, ⟨⟨plain, leaf, given⟩, rfl⟩, rfl⟩

end Parts

/-! ## The rule of a node -/

section Becomes

variable (source)

/-- A node becomes a resource: all that belongs to it is sound and provided for, and the resource
has its shape and holds what is provided. -/
structure Becomes (n : ManifestNode) (ids : List String) (z : σ) (r : Resource) (z' : σ) :
    Prop where
  ids : ids = n.nodes.map (·.id)
  sound : ∀ m ∈ n.nodes, m.IsSound
  shape : Shapes n r
  provided : ProvidesAll source n.nodes z r.holdings z'

/-- Some nodes become resources, in their order. -/
structure BecomeAll (nodes : List ManifestNode) (ids : List String) (z : σ)
    (resources : List Resource) (z' : σ) : Prop where
  ids : ids = (allNodes nodes).map (·.id)
  sound : ∀ m ∈ allNodes nodes, m.IsSound
  shape : ShapesAll nodes resources
  provided : ProvidesAll source (allNodes nodes) z (Resource.allHoldings resources) z'

end Becomes

/-- What a node becomes, if it is known what belongs to it. -/
theorem becomes_iff {n : ManifestNode} {nodes : List ManifestNode} (belong : n.nodes = nodes)
    {ids : List String} {r : Resource} : Becomes source n ids z r z' ↔
      ids = nodes.map (·.id) ∧ (∀ m ∈ nodes, m.IsSound) ∧ Shapes n r ∧
        ProvidesAll source nodes z r.holdings z' := by
  subst belong
  constructor
  · rintro ⟨ids, sound, shape, provided⟩
    exact ⟨ids, sound, shape, provided⟩
  · rintro ⟨ids, sound, shape, provided⟩
    exact ⟨ids, sound, shape, provided⟩

variable {id : String} {graph : Option GraphSource} {file mediaType : Option String}
  {children : List ManifestNode}

theorem loadsAs_container {description : Option ManifestNode}
    (below : LoadsAs (toResources source children) (BecomeAll source children)) :
    LoadsAs (toResource source (mk id .container graph file mediaType description children))
      (Becomes source (mk id .container graph file mediaType description children)) := by
  unfold toResource
  refine (LoadsAs.noteId_bind id (.lift_bind fun _ => .lift_bind fun g =>
    below.map (Resource.container id g))).congr fun ids z r z' => ?_
  simp only [run_loadGraph]
  constructor
  · rintro ⟨_, rfl, _, _, passed, g, z₁, given, resources, becomes, rfl⟩
    obtain ⟨plain, rfl⟩ := run_rejectBinaryFields.mp passed
    have self := (isSound_container_iff rfl).mpr plain
    refine (becomes_iff (nodes_container plain)).mpr ⟨?_, ?_, .container g becomes.shape, ?_⟩
    · rw [List.map_cons, becomes.ids]
      rfl
    · exact List.forall_mem_cons.mpr ⟨self, becomes.sound⟩
    · exact .cons (.graph (by rintro ⟨⟩) given) becomes.provided
  · intro becomes
    have plain := (isSound_container_iff rfl).mp (becomes.sound _ mem_nodes_self)
    obtain ⟨rfl, sound, shape, provided⟩ := (becomes_iff (nodes_container plain)).mp becomes
    obtain ⟨_, _, z₁, same, first, others⟩ := providesAll_cons_iff.mp provided
    obtain ⟨g, rfl, given⟩ := first.of_rdf (by rintro ⟨⟩)
    cases shape with
    | container _ below =>
      obtain ⟨⟨rfl⟩, rfl⟩ := List.cons.inj same
      exact ⟨_, rfl, (), z, run_rejectBinaryFields.mpr ⟨plain, rfl⟩, g, z₁, given, _,
        ⟨rfl, (List.forall_mem_cons.mp sound).2, below, others⟩, rfl⟩

theorem loadsAs_rdfSource {description : Option ManifestNode} :
    LoadsAs (toResource source (mk id .rdfSource graph file mediaType description children))
      (Becomes source (mk id .rdfSource graph file mediaType description children)) := by
  unfold toResource
  refine (LoadsAs.noteId_bind id ((LoadsAs.lift _).map (Resource.rdfSource id))).congr
    fun ids z r z' => ?_
  simp only [run_loadRdfSource]
  constructor
  · rintro ⟨_, rfl, g, ⟨⟨plain, leaf, given⟩, rfl⟩, rfl⟩
    have self := (isSound_rdfSource_iff rfl).mpr ⟨plain, leaf⟩
    exact (becomes_iff (nodes_rdfSource plain leaf)).mpr ⟨rfl,
      List.forall_mem_singleton.mpr self, .rdfSource g,
      .cons (.graph (by rintro ⟨⟩) given) (.nil z')⟩
  · intro becomes
    obtain ⟨plain, leaf⟩ := (isSound_rdfSource_iff rfl).mp (becomes.sound _ mem_nodes_self)
    obtain ⟨rfl, -, shape, provided⟩ := (becomes_iff (nodes_rdfSource plain leaf)).mp becomes
    obtain ⟨_, same, only⟩ := providesAll_singleton_iff.mp provided
    obtain ⟨g, rfl, given⟩ := only.of_rdf (by rintro ⟨⟩)
    cases shape
    obtain ⟨⟨rfl⟩, -⟩ := List.cons.inj same
    exact ⟨_, rfl, g, ⟨⟨plain, leaf, given⟩, rfl⟩, rfl⟩

/-- A binary without a description. -/
theorem loadsAs_binary :
    LoadsAs (toResource source (mk id .nonRdfSource graph file mediaType none children))
      (Becomes source (mk id .nonRdfSource graph file mediaType none children)) := by
  unfold toResource
  refine (LoadsAs.noteId_bind id (.lift_bind fun binary =>
    (LoadsAs.pure none).map (Resource.binary id binary))).congr fun ids z r z' => ?_
  simp only [run_loadBinary]
  constructor
  · rintro ⟨_, rfl, _, _, ⟨bare, described, path, c, named, found, rfl⟩, _, ⟨rfl, rfl, rfl⟩, rfl⟩
    have self := (isSound_nonRdfSource_iff rfl).mpr
      ⟨Option.isSome_of_eq_some named, bare, described⟩
    exact (becomes_iff (nodes_binary bare.2)).mpr ⟨rfl, List.forall_mem_singleton.mpr self,
      .binary c, .cons (.content rfl named found) (.nil _)⟩
  · intro becomes
    obtain ⟨-, bare, described⟩ :=
      (isSound_nonRdfSource_iff rfl).mp (becomes.sound _ mem_nodes_self)
    obtain ⟨rfl, -, shape, provided⟩ := (becomes_iff (nodes_binary bare.2)).mp becomes
    obtain ⟨_, same, only⟩ := providesAll_singleton_iff.mp provided
    obtain ⟨path, _, rfl, named, found⟩ := only.of_binary rfl
    cases shape with
    | binary c =>
      obtain ⟨⟨rfl⟩, -⟩ := List.cons.inj same
      exact ⟨[], rfl, _, z', ⟨bare, described, path, c, named, found, rfl⟩, none,
        ⟨rfl, rfl, rfl⟩, rfl⟩

/-- A binary with its description. -/
theorem loadsAs_described {d : ManifestNode} :
    LoadsAs (toResource source (mk id .nonRdfSource graph file mediaType (some d) children))
      (Becomes source (mk id .nonRdfSource graph file mediaType (some d) children)) := by
  unfold toResource
  refine (LoadsAs.noteId_bind id (.lift_bind fun binary =>
    (loadsAs_loadDescription d).map (Resource.binary id binary))).congr fun ids z r z' => ?_
  simp only [run_loadBinary]
  constructor
  · rintro ⟨_, rfl, _, _, ⟨bare, described, path, c, named, found, rfl⟩, _,
      ⟨rfl, plain, leaf, g, given, rfl⟩, rfl⟩
    have self := (isSound_nonRdfSource_iff rfl).mpr
      ⟨Option.isSome_of_eq_some named, bare, described⟩
    obtain ⟨kind, -, -⟩ := isPlainRdfSource_iff.mp (described d rfl)
    have alone := (isSound_rdfSource_iff kind).mpr ⟨plain, leaf⟩
    refine (becomes_iff (nodes_described bare.2 rfl ⟨plain, leaf⟩)).mpr
      ⟨rfl, ?_, .described c g, ?_⟩
    · exact List.forall_mem_cons.mpr ⟨self, List.forall_mem_singleton.mpr alone⟩
    · exact .cons (.content rfl named found) (.cons (.graph (by simp [kind]) given) (.nil z'))
  · intro becomes
    obtain ⟨-, bare, described⟩ :=
      (isSound_nonRdfSource_iff rfl).mp (becomes.sound _ mem_nodes_self)
    obtain ⟨kind, alone⟩ := described_alone becomes.sound rfl
    obtain ⟨rfl, -, shape, provided⟩ :=
      (becomes_iff (nodes_described bare.2 rfl alone)).mp becomes
    obtain ⟨_, _, z₁, same, first, others⟩ := providesAll_cons_iff.mp provided
    obtain ⟨_, rfl, second⟩ := providesAll_singleton_iff.mp others
    obtain ⟨path, _, rfl, named, found⟩ := first.of_binary rfl
    obtain ⟨_, rfl, given⟩ := second.of_rdf (by simp [kind])
    cases shape with
    | described c g =>
      obtain ⟨⟨rfl⟩, ⟨rfl⟩⟩ := List.cons.inj same
      exact ⟨[d.id], rfl, _, z₁, ⟨bare, described, path, c, named, found, rfl⟩, _,
        ⟨rfl, alone.1, alone.2, g, given, rfl⟩, rfl⟩

theorem loadsAs_nil : LoadsAs (toResources source []) (BecomeAll source []) := by
  unfold toResources
  refine (LoadsAs.pure []).congr fun ids z resources z' => ?_
  constructor
  · rintro ⟨rfl, rfl, rfl⟩
    exact ⟨rfl, fun _ h => (nomatch h), .nil, .nil _⟩
  · rintro ⟨rfl, -, ⟨⟩, provided⟩
    exact ⟨rfl, (providesAll_nil_iff.mp provided).2, rfl⟩

theorem loadsAs_cons {n : ManifestNode} {rest : List ManifestNode}
    (first : LoadsAs (n.toResource source) (Becomes source n))
    (others : LoadsAs (toResources source rest) (BecomeAll source rest)) :
    LoadsAs (toResources source (n :: rest)) (BecomeAll source (n :: rest)) := by
  unfold toResources
  refine (first.bind fun r => others.map (r :: ·)).congr fun ids z resources z' => ?_
  constructor
  · rintro ⟨r, _, _, _, becomes, ⟨resources, become, rfl⟩, rfl⟩
    refine ⟨?_, ?_, .cons becomes.shape become.shape, ?_⟩
    · rw [becomes.ids, become.ids, allNodes, List.map_append]
    · rw [allNodes]
      exact List.forall_mem_append.mpr ⟨becomes.sound, become.sound⟩
    · rw [allNodes]
      exact providesAll_append_iff.mpr ⟨_, _, _, rfl, becomes.provided, become.provided⟩
  · rintro ⟨rfl, sound, shape, provided⟩
    rw [allNodes] at sound provided ⊢
    obtain ⟨soundFirst, soundRest⟩ := List.forall_mem_append.mp sound
    cases shape with
    | cons shape shapes =>
      obtain ⟨z₁, before, after⟩ := provided.split (shape.length_holdings soundFirst)
      exact ⟨_, z₁, _, _, ⟨rfl, soundFirst, shape, before⟩,
        ⟨_, ⟨rfl, soundRest, shapes, after⟩, rfl⟩, List.map_append⟩

mutual

/-- **A node loads** exactly if all that belongs to it is sound and provided for. -/
theorem loadsAs_toResource (source : PackageSource (StateM σ)) (n : ManifestNode) :
    LoadsAs (n.toResource source) (Becomes source n) := by
  obtain ⟨id, kind, graph, file, mediaType, description, children⟩ := n
  cases kind with
  | container => exact loadsAs_container (loadsAs_toResources source children)
  | rdfSource => exact loadsAs_rdfSource
  | nonRdfSource =>
    cases description with
    | none => exact loadsAs_binary
    | some d => exact loadsAs_described

theorem loadsAs_toResources (source : PackageSource (StateM σ)) (nodes : List ManifestNode) :
    LoadsAs (toResources source nodes) (BecomeAll source nodes) := by
  cases nodes with
  | nil => exact loadsAs_nil
  | cons n rest =>
    exact loadsAs_cons (loadsAs_toResource source n) (loadsAs_toResources source rest)

end

end ManifestNode

/-! ## Manifests -/

/-- A manifest loads as its nodes do, with no id noted before. -/
theorem run_toTree {manifest : Manifest} {tree : List Resource} :
    (manifest.toTree source).run.run z = (.ok tree, z') ↔
      manifest.IsWellFormed ∧ ManifestNode.ShapesAll manifest.resources tree ∧
        ManifestNode.ProvidesAll source (ManifestNode.allNodes manifest.resources) z
          (Resource.allHoldings tree) z' := by
  have loads := ManifestNode.loadsAs_toResources source manifest.resources
  change ((ManifestNode.toResources source manifest.resources).run [] >>=
    fun x => Pure.pure x.1).run.run z = _ ↔ _
  rw [run_bind_eq_ok_iff]
  constructor
  · rintro ⟨⟨_, seen⟩, _, loaded, done⟩
    obtain ⟨rfl, rfl⟩ := run_pure_eq_ok_iff.mp done
    obtain ⟨_, ⟨rfl, sound, shape, provided⟩, new, -⟩ := (loads ..).mp loaded
    exact ⟨⟨new.distinct, sound⟩, shape, provided⟩
  · rintro ⟨wellFormed, shape, provided⟩
    have becomes : ManifestNode.BecomeAll source manifest.resources _ z tree z' :=
      ⟨rfl, wellFormed.sound, shape, provided⟩
    have new : AreNew _ [] := ⟨wellFormed.distinct, fun _ _ h => nomatch h⟩
    exact ⟨_, z', (loads ..).mpr ⟨_, becomes, new, rfl⟩, rfl⟩

/-- The ids of a tree are those of the manifest's nodes, in their order. -/
theorem localIds_of_toTree {manifest : Manifest} {tree : List Resource}
    (h : (manifest.toTree source).run.run z = (.ok tree, z')) :
    Resource.localIds tree = (ManifestNode.allNodes manifest.resources).map (·.id) := by
  change ((ManifestNode.toResources source manifest.resources).run [] >>=
    fun x => Pure.pure x.1).run.run z = _ at h
  obtain ⟨⟨_, seen⟩, _, loaded, done⟩ := ok_of_bind h
  obtain ⟨rfl, rfl⟩ := run_pure_eq_ok_iff.mp done
  obtain ⟨_, becomes, -, noted⟩ :=
    (ManifestNode.loadsAs_toResources source manifest.resources ..).mp loaded
  have noted' := (loads_toResources source manifest.resources [] z _ seen _ loaded).noted
  rw [← becomes.ids]
  exact List.reverse_injective (List.append_cancel_right (noted'.symm.trans noted))

/-- **A manifest loads** exactly if it is well formed and the package provides for its nodes, one
after the other. Its tree has its shape, node by node, and holds what was provided for each; the ids
of the tree are those of the nodes, a description's right after its binary's. -/
theorem toTree_loads_iff (manifest : Manifest) (source : PackageSource (StateM σ)) (z : σ) :
    ((∃ tree z', (manifest.toTree source).run.run z = (.ok tree, z')) ↔
      manifest.IsWellFormed ∧ ∃ found z',
        ManifestNode.ProvidesAll source (ManifestNode.allNodes manifest.resources) z found z') ∧
    ∀ tree z', (manifest.toTree source).run.run z = (.ok tree, z') →
      ManifestNode.ShapesAll manifest.resources tree ∧
      ManifestNode.ProvidesAll source (ManifestNode.allNodes manifest.resources) z
        (Resource.allHoldings tree) z' ∧
      Resource.localIds tree = (ManifestNode.allNodes manifest.resources).map (·.id) := by
  refine ⟨⟨?_, ?_⟩, fun tree z' loaded => ?_⟩
  · rintro ⟨tree, z', loaded⟩
    obtain ⟨wellFormed, -, provided⟩ := run_toTree.mp loaded
    exact ⟨wellFormed, _, z', provided⟩
  · rintro ⟨wellFormed, found, z', provided⟩
    obtain ⟨tree, shape, rfl⟩ := ManifestNode.exists_shapesAll _ wellFormed.sound provided
    exact ⟨tree, z', run_toTree.mpr ⟨wellFormed, shape, provided⟩⟩
  · obtain ⟨-, shape, provided⟩ := run_toTree.mp loaded
    exact ⟨shape, provided, localIds_of_toTree loaded⟩

end Nodes

/-- A package that lists the files which it was asked for, and where each graph is `[]`. -/
def PackageSource.listing : PackageSource (StateM (List String)) where
  read path := do
    modify (path :: ·)
    return [91, 93]
  binary path := do
    modify (path :: ·)
    return .file path

/-- A container with an RDF source and a described picture below it. -/
theorem toTree_loads_iff_listing :
    let d := ManifestNode.mk "d" .rdfSource (some (.inline (.array []))) none none none []
    let c := ManifestNode.mk "c" .nonRdfSource none (some "c.png") none (some d) []
    let b := ManifestNode.mk "b" .rdfSource (some (.file "b.json")) none none none []
    let a := ManifestNode.mk "a" .container none none none none [b, c]
    let provided := fun tree z => ManifestNode.ProvidesAll PackageSource.listing [a, b, c, d] []
      (Resource.allHoldings tree) z
    ∃ tree z, ((Manifest.mk [a]).toTree PackageSource.listing).run.run [] = (.ok tree, z) ∧
      ManifestNode.ShapesAll [a] tree ∧ provided tree z ∧
      Resource.localIds tree = ["a", "b", "c", "d"] := by
  intro d c b a provided
  have loads := toTree_loads_iff ⟨[a]⟩ PackageSource.listing []
  have wellFormed : Manifest.IsWellFormed ⟨[a]⟩ := by
    refine ⟨by decide, List.forall_mem_cons.mpr ⟨?_, List.forall_mem_cons.mpr ⟨?_,
      List.forall_mem_cons.mpr ⟨?_, List.forall_mem_singleton.mpr ?_⟩⟩⟩⟩
    · exact (ManifestNode.isSound_container_iff rfl).mpr rfl
    · exact (ManifestNode.isSound_rdfSource_iff rfl).mpr ⟨rfl, rfl⟩
    · refine (ManifestNode.isSound_nonRdfSource_iff rfl).mpr ⟨rfl, ⟨rfl, rfl⟩, ?_⟩
      rintro _ ⟨⟩
      rfl
    · exact (ManifestNode.isSound_rdfSource_iff rfl).mpr ⟨rfl, rfl⟩
  have parsed : Json.ofBytes? [91, 93] = some (.array []) := rfl
  have accepted : JsonLd.toGraph (.array []) = .ok Graph.empty := by decide +kernel
  have found : ManifestNode.ProvidesAll PackageSource.listing [a, b, c, d] []
      [.graph Graph.empty, .graph Graph.empty, .content (.file "c.png"), .graph Graph.empty]
      ["c.png", "b.json"] :=
    .cons (.graph (by decide) (.absent [])) <|
      .cons (.graph (by decide) (.file rfl parsed accepted)) <|
      .cons (.content rfl rfl rfl) <|
      .cons (.graph (by decide) (.inline _ accepted)) (.nil _)
  obtain ⟨tree, z, loaded⟩ := loads.1.mpr ⟨wellFormed, _, _, found⟩
  exact ⟨tree, z, loaded, loads.2 tree z loaded⟩

end LinkedDeposit
