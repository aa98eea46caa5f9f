import LinkedDeposit.Package.Tree

/-!
# Well-formed manifests

A manifest is well formed if its nodes, which are listed each before its description and its
children (`ManifestNode.nodes`), have distinct ids and keep the rules of their kinds
(`ManifestNode.IsSound`). What the package's files are asked for is the graph or the content of each
node, in the same order (`ManifestNode.Provides`). They may answer differently as they are asked, so
their state goes along.

The tree of a manifest has its shape (`ManifestNode.Shapes`) and holds what was provided, node by
node (`Resource.holdings`).

Results:
* `nodes_container`, `nodes_rdfSource`, `nodes_binary`, `nodes_described`: the nodes of a sound one.
* `length_holdings`, `exists_shapes`: whatever is provided for sound nodes fits in one tree of their
  shape.
-/

namespace LinkedDeposit

namespace ManifestNode

/-! ## What belongs to a node -/

mutual

/-- A node with what belongs to it: its description, then its children. -/
def nodes : ManifestNode → List ManifestNode
  | mk id kind graph file mediaType description children =>
    mk id kind graph file mediaType description children ::
      (descriptionNodes description ++ allNodes children)

def descriptionNodes : Option ManifestNode → List ManifestNode
  | none => []
  | some d => d.nodes

def allNodes : List ManifestNode → List ManifestNode
  | [] => []
  | n :: rest => n.nodes ++ allNodes rest

end

/-- The rules that a node is held to. -/
structure IsSound (n : ManifestNode) : Prop where
  /-- Only a binary is given by a file, and only a binary is described. -/
  plain : n.kind ≠ .nonRdfSource → n.file = none ∧ n.mediaType = none ∧ n.description = none
  /-- An RDF source has nothing below it. -/
  leaf : n.kind = .rdfSource → n.children = []
  /-- A binary has a file, but no graph, and nothing below it. -/
  bytes : n.kind = .nonRdfSource → n.file.isSome = true ∧ n.graph = none ∧ n.children = []
  /-- A description is an RDF source that stands alone. -/
  described : ∀ d ∈ n.description, d.kind = .rdfSource ∧ d.description = none ∧ d.children = []

end ManifestNode

/-- The rules that a manifest is held to. -/
structure Manifest.IsWellFormed (manifest : Manifest) : Prop where
  distinct : ((ManifestNode.allNodes manifest.resources).map (·.id)).Nodup
  sound : ∀ n ∈ ManifestNode.allNodes manifest.resources, n.IsSound

/-! ## What a package provides -/

/-- What a package provides for a node. -/
inductive Provision where
  | graph (g : Graph)
  | content (c : Content)

section Providing

variable {σ : Type} (source : PackageSource (StateM σ))

/-- The graph that a node names is found: it can be read, and it is accepted. -/
inductive GivesGraph : Option GraphSource → σ → Graph → σ → Prop where
  | absent (z : σ) : GivesGraph none z Graph.empty z
  | inline {doc : Json} {g : Graph} (z : σ) (accepted : JsonLd.toGraph doc = .ok g) :
      GivesGraph (some (.inline doc)) z g z
  | file {path : String} {bytes : Bytes} {doc : Json} {g : Graph} {z z' : σ}
      (read : (source.read path).run.run z = (.ok bytes, z'))
      (parsed : Json.ofBytes? bytes = some doc) (accepted : JsonLd.toGraph doc = .ok g) :
      GivesGraph (some (.file path)) z g z'

namespace ManifestNode

/-- The package provides for a node: the graph of a node that has one, the content of a binary. -/
inductive Provides : ManifestNode → σ → Provision → σ → Prop where
  | graph {n : ManifestNode} {g : Graph} {z z' : σ} (rdf : n.kind ≠ .nonRdfSource)
      (given : GivesGraph source n.graph z g z') : Provides n z (.graph g) z'
  | content {n : ManifestNode} {path : String} {c : Content} {z z' : σ}
      (binary : n.kind = .nonRdfSource) (file : n.file = some path)
      (found : (source.binary path).run.run z = (.ok c, z')) : Provides n z (.content c) z'

/-- The package provides for one node after the other. -/
inductive ProvidesAll : List ManifestNode → σ → List Provision → σ → Prop where
  | nil (z : σ) : ProvidesAll [] z [] z
  | cons {n : ManifestNode} {rest : List ManifestNode} {p : Provision} {ps : List Provision}
      {z z' z'' : σ} (first : Provides source n z p z') (others : ProvidesAll rest z' ps z'') :
      ProvidesAll (n :: rest) z (p :: ps) z''

end ManifestNode

end Providing

/-! ## The tree of a manifest -/

namespace Resource

mutual

/-- What the nodes of a tree hold, in the order of a deposit. -/
def holdings : Resource → List Provision
  | .container _ g children => .graph g :: allHoldings children
  | .rdfSource _ g => [.graph g]
  | .binary _ b description => .content b.content :: description.toList.map (.graph ·.graph)

def allHoldings : List Resource → List Provision
  | [] => []
  | r :: rest => r.holdings ++ allHoldings rest

end

end Resource

namespace ManifestNode

mutual

/-- A resource has the shape of a node: its id, its kind and its media type, and what belongs to it
in the same order. -/
inductive Shapes : ManifestNode → Resource → Prop where
  | container {id : String} {graph : Option GraphSource} {file mediaType : Option String}
      {description : Option ManifestNode} {children : List ManifestNode} {resources : List Resource}
      (g : Graph) (below : ShapesAll children resources) :
      Shapes (mk id .container graph file mediaType description children)
        (.container id g resources)
  | rdfSource {id : String} {graph : Option GraphSource} {file mediaType : Option String}
      {description : Option ManifestNode} {children : List ManifestNode} (g : Graph) :
      Shapes (mk id .rdfSource graph file mediaType description children) (.rdfSource id g)
  | binary {id : String} {graph : Option GraphSource} {file mediaType : Option String}
      {children : List ManifestNode} (c : Content) :
      Shapes (mk id .nonRdfSource graph file mediaType none children)
        (.binary id ⟨mediaType.getD Vocabulary.octetStream, c⟩ none)
  | described {id : String} {graph : Option GraphSource} {file mediaType : Option String}
      {d : ManifestNode} {children : List ManifestNode} (c : Content) (g : Graph) :
      Shapes (mk id .nonRdfSource graph file mediaType (some d) children)
        (.binary id ⟨mediaType.getD Vocabulary.octetStream, c⟩ (some ⟨d.id, g⟩))

inductive ShapesAll : List ManifestNode → List Resource → Prop where
  | nil : ShapesAll [] []
  | cons {n : ManifestNode} {rest : List ManifestNode} {r : Resource} {resources : List Resource}
      (first : Shapes n r) (others : ShapesAll rest resources) :
      ShapesAll (n :: rest) (r :: resources)

end

end ManifestNode

namespace ManifestNode

variable {n : ManifestNode}

/-! ## Sound nodes -/

theorem hasBinaryField_eq_false_iff : n.hasBinaryField = false ↔
    n.file = none ∧ n.mediaType = none ∧ n.description = none := by
  simp [hasBinaryField, and_assoc]

theorem isPlainRdfSource_iff : n.isPlainRdfSource = true ↔
    n.kind = .rdfSource ∧ n.description = none ∧ n.children = [] := by
  simp [isPlainRdfSource, and_assoc]

theorem isSound_container_iff (kind : n.kind = .container) :
    n.IsSound ↔ n.hasBinaryField = false := by
  rw [hasBinaryField_eq_false_iff]
  refine ⟨fun sound => sound.plain (by simp [kind]), fun plain => ⟨fun _ => plain, ?_, ?_, ?_⟩⟩
  · simp [kind]
  · simp [kind]
  · simp [plain]

theorem isSound_rdfSource_iff (kind : n.kind = .rdfSource) :
    n.IsSound ↔ n.hasBinaryField = false ∧ n.children = [] := by
  rw [hasBinaryField_eq_false_iff]
  constructor
  · exact fun sound => ⟨sound.plain (by simp [kind]), sound.leaf kind⟩
  · rintro ⟨plain, leaf⟩
    refine ⟨fun _ => plain, fun _ => leaf, ?_, ?_⟩
    · simp [kind]
    · simp [plain]

theorem isSound_nonRdfSource_iff (kind : n.kind = .nonRdfSource) :
    n.IsSound ↔ n.file.isSome = true ∧ (n.graph = none ∧ n.children = []) ∧
      ∀ d ∈ n.description, d.isPlainRdfSource = true := by
  simp only [isPlainRdfSource_iff]
  constructor
  · exact fun sound => ⟨(sound.bytes kind).1, (sound.bytes kind).2, sound.described⟩
  · rintro ⟨file, bare, described⟩
    refine ⟨?_, ?_, fun _ => ⟨file, bare⟩, described⟩
    · simp [kind]
    · simp [kind]

theorem mem_nodes_self : n ∈ n.nodes := by
  cases n
  rw [nodes]
  exact List.mem_cons_self

theorem mem_nodes_description {d : ManifestNode} (is : n.description = some d) : d ∈ n.nodes := by
  obtain ⟨id, kind, graph, file, mediaType, description, children⟩ := n
  obtain rfl : description = some d := is
  rw [nodes, descriptionNodes]
  exact List.mem_cons_of_mem _ (List.mem_append_left _ mem_nodes_self)

/-- A container has no description. -/
theorem nodes_container {id : String} {graph : Option GraphSource} {file mediaType : Option String}
    {description : Option ManifestNode} {children : List ManifestNode}
    (plain : (mk id .container graph file mediaType description children).hasBinaryField = false) :
    (mk id .container graph file mediaType description children).nodes =
      mk id .container graph file mediaType description children :: allNodes children := by
  obtain ⟨-, -, rfl⟩ : file = none ∧ mediaType = none ∧ description = none :=
    hasBinaryField_eq_false_iff.mp plain
  rw [nodes, descriptionNodes, List.nil_append]

/-- An RDF source stands alone. -/
theorem nodes_rdfSource (plain : n.hasBinaryField = false) (leaf : n.children = []) :
    n.nodes = [n] := by
  obtain ⟨id, kind, graph, file, mediaType, description, children⟩ := n
  obtain ⟨-, -, rfl⟩ : file = none ∧ mediaType = none ∧ description = none :=
    hasBinaryField_eq_false_iff.mp plain
  obtain rfl : children = [] := leaf
  rw [nodes, descriptionNodes, allNodes, List.nil_append]

/-- A binary has nothing below it. -/
theorem nodes_binary (leaf : n.children = []) : n.nodes = n :: descriptionNodes n.description := by
  obtain ⟨id, kind, graph, file, mediaType, description, children⟩ := n
  obtain rfl : children = [] := leaf
  rw [nodes, allNodes, List.append_nil]
  rfl

/-- Only its description belongs to a binary, and nothing to that. -/
theorem nodes_described {d : ManifestNode} (leaf : n.children = []) (is : n.description = some d)
    (alone : d.hasBinaryField = false ∧ d.children = []) : n.nodes = [n, d] := by
  rw [nodes_binary leaf, is, descriptionNodes, nodes_rdfSource alone.1 alone.2]

/-- The description of a sound binary is sound too, so it stands alone. -/
theorem described_alone (sound : ∀ m ∈ n.nodes, m.IsSound) {d : ManifestNode}
    (is : n.description = some d) :
    d.kind = .rdfSource ∧ d.hasBinaryField = false ∧ d.children = [] := by
  have kind := ((sound n mem_nodes_self).described d is).1
  exact ⟨kind, (isSound_rdfSource_iff kind).mp (sound d (mem_nodes_description is))⟩

/-! ## What is provided, part by part -/

section Parts

variable {σ : Type} {source : PackageSource (StateM σ)} {z z' z'' : σ} {p : Provision}
  {ps qs : List Provision}

theorem Provides.of_rdf (h : Provides source n z p z') (rdf : n.kind ≠ .nonRdfSource) :
    ∃ g, p = .graph g ∧ GivesGraph source n.graph z g z' := by
  cases h with
  | graph _ given => exact ⟨_, rfl, given⟩
  | content binary _ _ => exact absurd binary rdf

theorem Provides.of_binary (h : Provides source n z p z') (binary : n.kind = .nonRdfSource) :
    ∃ path c, p = .content c ∧ n.file = some path ∧
      (source.binary path).run.run z = (.ok c, z') := by
  cases h with
  | graph rdf _ => exact absurd binary rdf
  | content _ file found => exact ⟨_, _, rfl, file, found⟩

theorem providesAll_nil_iff : ProvidesAll source [] z ps z' ↔ ps = [] ∧ z' = z := by
  constructor
  · rintro ⟨⟩
    exact ⟨rfl, rfl⟩
  · rintro ⟨rfl, rfl⟩
    exact .nil _

theorem providesAll_cons_iff {rest : List ManifestNode} :
    ProvidesAll source (n :: rest) z ps z'' ↔ ∃ p qs z', ps = p :: qs ∧
      Provides source n z p z' ∧ ProvidesAll source rest z' qs z'' := by
  constructor
  · rintro ⟨⟩
    exact ⟨_, _, _, rfl, ‹_›, ‹_›⟩
  · rintro ⟨_, _, _, rfl, first, others⟩
    exact .cons first others

/-- What is provided for one node. -/
theorem providesAll_singleton_iff :
    ProvidesAll source [n] z ps z' ↔ ∃ p, ps = [p] ∧ Provides source n z p z' := by
  simp only [providesAll_cons_iff, providesAll_nil_iff]
  constructor
  · rintro ⟨p, _, _, rfl, first, rfl, rfl⟩
    exact ⟨p, rfl, first⟩
  · rintro ⟨p, rfl, first⟩
    exact ⟨p, [], z', rfl, first, rfl, rfl⟩

theorem providesAll_append_iff {before after : List ManifestNode} :
    ProvidesAll source (before ++ after) z ps z'' ↔ ∃ qs rs z', ps = qs ++ rs ∧
      ProvidesAll source before z qs z' ∧ ProvidesAll source after z' rs z'' := by
  induction before generalizing z ps with
  | nil =>
    simp only [List.nil_append, providesAll_nil_iff]
    constructor
    · exact fun h => ⟨[], ps, z, rfl, ⟨rfl, rfl⟩, h⟩
    · rintro ⟨_, _, _, rfl, ⟨rfl, rfl⟩, h⟩
      exact h
  | cons n before ih =>
    simp only [List.cons_append, providesAll_cons_iff, ih]
    constructor
    · rintro ⟨p, _, z₁, rfl, first, qs, rs, z', rfl, others, rest⟩
      exact ⟨p :: qs, rs, z', rfl, ⟨p, qs, z₁, rfl, first, others⟩, rest⟩
    · rintro ⟨_, rs, z', rfl, ⟨p, qs, z₁, rfl, first, others⟩, rest⟩
      exact ⟨p, qs ++ rs, z₁, rfl, first, qs, rs, z', rfl, others, rest⟩

theorem ProvidesAll.length {nodes : List ManifestNode} (h : ProvidesAll source nodes z ps z') :
    ps.length = nodes.length := by
  induction h with
  | nil => rfl
  | cons _ _ ih => rw [List.length_cons, List.length_cons, ih]

/-- What is provided for two lists of nodes, if it is known how much for the first. -/
theorem ProvidesAll.split {before after : List ManifestNode}
    (h : ProvidesAll source (before ++ after) z (ps ++ qs) z'')
    (length : ps.length = before.length) :
    ∃ z', ProvidesAll source before z ps z' ∧ ProvidesAll source after z' qs z'' := by
  obtain ⟨_, _, z', same, first, others⟩ := providesAll_append_iff.mp h
  obtain ⟨rfl, rfl⟩ := List.append_inj same (length.trans first.length.symm)
  exact ⟨z', first, others⟩

end Parts

/-! ## Trees of a shape -/

mutual

/-- A tree of the shape of sound nodes holds as much as there are nodes. -/
theorem Shapes.length_holdings {n : ManifestNode} {r : Resource} (h : Shapes n r)
    (sound : ∀ m ∈ n.nodes, m.IsSound) : r.holdings.length = n.nodes.length := by
  have self := sound n mem_nodes_self
  cases h with
  | container g below =>
    rw [nodes_container ((isSound_container_iff rfl).mp self)] at sound ⊢
    rw [Resource.holdings, List.length_cons, List.length_cons,
      below.length_allHoldings (List.forall_mem_cons.mp sound).2]
  | rdfSource g =>
    obtain ⟨plain, leaf⟩ := (isSound_rdfSource_iff rfl).mp self
    rw [nodes_rdfSource plain leaf]
    rfl
  | binary c =>
    rw [nodes_binary (self.bytes rfl).2.2]
    rfl
  | described c g =>
    rw [nodes_described (self.bytes rfl).2.2 rfl (described_alone sound rfl).2]
    rfl

theorem ShapesAll.length_allHoldings {nodes : List ManifestNode} {resources : List Resource}
    (h : ShapesAll nodes resources) (sound : ∀ m ∈ allNodes nodes, m.IsSound) :
    (Resource.allHoldings resources).length = (allNodes nodes).length := by
  cases h with
  | nil => rfl
  | cons first others =>
    rw [allNodes, List.forall_mem_append] at sound
    rw [allNodes, Resource.allHoldings, List.length_append, List.length_append,
      first.length_holdings sound.1, others.length_allHoldings sound.2]

end

mutual

/-- Whatever is provided for sound nodes is held by a tree of their shape. -/
theorem exists_shapes (n : ManifestNode) {σ : Type} {source : PackageSource (StateM σ)} {z z' : σ}
    {ps : List Provision} (sound : ∀ m ∈ n.nodes, m.IsSound)
    (provided : ProvidesAll source n.nodes z ps z') : ∃ r, Shapes n r ∧ r.holdings = ps := by
  obtain ⟨id, kind, graph, file, mediaType, description, children⟩ := n
  have self := sound _ mem_nodes_self
  cases kind with
  | container =>
    rw [nodes_container ((isSound_container_iff rfl).mp self)] at sound provided
    obtain ⟨_, _, _, rfl, first, others⟩ := providesAll_cons_iff.mp provided
    obtain ⟨g, rfl, -⟩ := first.of_rdf (by rintro ⟨⟩)
    obtain ⟨resources, below, rfl⟩ :=
      exists_shapesAll children (List.forall_mem_cons.mp sound).2 others
    exact ⟨.container id g resources, .container g below, rfl⟩
  | rdfSource =>
    obtain ⟨plain, leaf⟩ := (isSound_rdfSource_iff rfl).mp self
    rw [nodes_rdfSource plain leaf] at provided
    obtain ⟨_, rfl, only⟩ := providesAll_singleton_iff.mp provided
    obtain ⟨g, rfl, -⟩ := only.of_rdf (by rintro ⟨⟩)
    exact ⟨.rdfSource id g, .rdfSource g, rfl⟩
  | nonRdfSource =>
    have leaf := (self.bytes rfl).2.2
    cases description with
    | none =>
      rw [nodes_binary leaf] at provided
      obtain ⟨_, rfl, only⟩ := providesAll_singleton_iff.mp provided
      obtain ⟨_, c, rfl, -, -⟩ := only.of_binary rfl
      exact ⟨_, .binary c, rfl⟩
    | some d =>
      obtain ⟨kind, alone⟩ := described_alone sound rfl
      rw [nodes_described leaf rfl alone] at provided
      obtain ⟨_, _, _, rfl, first, others⟩ := providesAll_cons_iff.mp provided
      obtain ⟨_, c, rfl, -, -⟩ := first.of_binary rfl
      obtain ⟨_, rfl, only⟩ := providesAll_singleton_iff.mp others
      obtain ⟨g, rfl, -⟩ := only.of_rdf (by simp [kind])
      exact ⟨_, .described c g, rfl⟩

theorem exists_shapesAll (nodes : List ManifestNode) {σ : Type}
    {source : PackageSource (StateM σ)} {z z' : σ} {ps : List Provision}
    (sound : ∀ m ∈ allNodes nodes, m.IsSound)
    (provided : ProvidesAll source (allNodes nodes) z ps z') :
    ∃ resources, ShapesAll nodes resources ∧ Resource.allHoldings resources = ps := by
  cases nodes with
  | nil =>
    obtain ⟨rfl, -⟩ := providesAll_nil_iff.mp provided
    exact ⟨[], .nil, rfl⟩
  | cons n rest =>
    rw [allNodes] at sound provided
    obtain ⟨soundFirst, soundRest⟩ := List.forall_mem_append.mp sound
    obtain ⟨_, _, _, rfl, first, others⟩ := providesAll_append_iff.mp provided
    obtain ⟨r, shaped, rfl⟩ := exists_shapes n soundFirst first
    obtain ⟨resources, shapedAll, rfl⟩ := exists_shapesAll rest soundRest others
    exact ⟨r :: resources, .cons shaped shapedAll, rfl⟩

end

end ManifestNode

end LinkedDeposit
