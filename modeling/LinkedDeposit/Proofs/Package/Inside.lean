import LinkedDeposit.Proofs.Package.Forms
import LinkedDeposit.Proofs.Package.WellFormed
import LinkedDeposit.Proofs.Rdf.Refusal

/-!
# A package reads below its directory

The paths of a manifest come from outside, so a load must not follow them out of the package's
directory. A path stays below (`StaysBelow`) if it is relative and never climbs further than it has
come down, which is what keeps it below when it is followed (`FileTree.below_of_resolve`).

The disk is one that may answer as it likes, by what it was asked before (`Disk.answering`), so its
files may change while the package loads. What it was asked is on record.

`Reads` is a program logic for loads: it says of a part of a load what it asks for, which nodes of
the manifest it takes, and how it may end. If a node names a path that climbs, the load does not get
past that node: it ends there with a refusal, or before.

Results:
* `reads_toResource`, `reads_toResources`: the rule of each node, by recursion on it.
* `load_stays_inside`: what a load from a directory asks for and leaves to be opened, and how it
  ends when a node names a path that does not stay below.
* `unread_graph_first`: a graph file that holds no JSON is reported if it comes first.
-/

namespace LinkedDeposit

open FileTree (segments)

/-! ## Paths that stay below -/

/-- Whether a segment goes down to something. -/
def goesDown (s : String) : Bool := s ≠ "" && s ≠ "." && s ≠ ".."

/-- A path is relative, and no front part of it goes up more often than down. -/
structure StaysBelow (path : String) : Prop where
  relative : path.toList.head? ≠ some '/'
  covered : ∀ front, front <+: segments path → front.count ".." ≤ front.countP goesDown

/-- A path is found below a directory. -/
def IsBelow (directory path : String) : Prop :=
  ∃ way, path = joinPath directory way ∧ StaysBelow way

theorem staysBelow_of_staysInside {path : String} (h : staysInside path = true) :
    StaysBelow path := by
  simp only [staysInside, Bool.and_eq_true, decide_eq_true_eq, Bool.not_eq_true',
    List.contains_eq_mem, decide_eq_false_iff_not] at h
  obtain ⟨⟨-, relative⟩, noUp⟩ := h
  refine ⟨relative, fun front cut => ?_⟩
  have none : front.count ".." = 0 := List.count_eq_zero.mpr fun mem => noUp (cut.subset mem)
  omega

theorem isBelow_of_staysInside {directory path : String} (h : staysInside path = true) :
    IsBelow directory (joinPath directory path) := ⟨path, rfl, staysBelow_of_staysInside h⟩

namespace FileTree

variable {t : FileTree} {base : List String} {found : List String × FileNode}

/-- Segments that are covered by how far one has come down from a node lead to a node below it. -/
theorem isPrefix_of_resolve {down segs : List String}
    (covered : ∀ front, front <+: segs → front.count ".." ≤ down.length + front.countP goesDown)
    (h : t.resolve (base ++ down) segs = .ok found) : base <+: found.1 := by
  induction segs generalizing down with
  | nil =>
    obtain ⟨same, -⟩ := resolve_nil h
    exact same ▸ List.prefix_append base down
  | cons s rest ih =>
    have step : ∀ front, front <+: rest → (s :: front).count ".." ≤
        down.length + (s :: front).countP goesDown :=
      fun front cut => covered _ (List.cons_prefix_cons.mpr ⟨rfl, cut⟩)
    rw [resolve_cons (isDirectory_of_resolve h)] at h
    by_cases stays : (decide (s = "") || decide (s = ".")) = true
    · rw [if_pos stays] at h
      refine ih (fun front cut => ?_) h
      have := step front cut
      rcases (by simpa using stays : s = "" ∨ s = ".") with rfl | rfl <;>
        simpa [goesDown] using this
    rw [if_neg stays] at h
    by_cases up : s = ".."
    · rw [if_pos up] at h
      subst up
      -- Going up is covered only from below the node.
      have room : 1 ≤ down.length := by simpa [goesDown] using step [] List.nil_prefix
      have nonempty : down ≠ [] := List.ne_nil_of_length_pos room
      rw [List.dropLast_append_of_ne_nil nonempty] at h
      refine ih (fun front cut => ?_) h
      have := step front cut
      rw [List.count_cons_self, List.countP_cons_of_neg (by decide)] at this
      rw [List.length_dropLast]
      omega
    · rw [if_neg up] at h
      split at h
      · cases h
      · rw [List.append_assoc] at h
        refine ih (fun front cut => ?_) h
        have := step front cut
        have goes : goesDown s = true := by simpa [goesDown, up] using stays
        rw [List.count_cons_of_ne up, List.countP_cons_of_pos goes] at this
        rw [List.length_append, List.length_singleton]
        omega

/-- **A path that stays below leads to nothing outside.** -/
theorem below_of_resolve {directory path : String} (below : IsBelow directory path)
    (there : t.resolve [] (segments directory) = .ok (base, .directory))
    (h : t.resolve [] (segments path) = .ok found) : base <+: found.1 := by
  obtain ⟨way, rfl, stays⟩ := below
  rw [resolve_joinPath there] at h
  have covered : ∀ front, front <+: segments way →
      front.count ".." ≤ ([] : List String).length + front.countP goesDown := by
    simpa using stays.covered
  exact isPrefix_of_resolve covered (by rwa [List.append_nil])

end FileTree

/-! ## Loads from a disk that answers as it likes -/

/-- What a disk was asked for, with its answer. -/
abbrev Asked := String × FileView

/-- A monad of questions, all of which are on record. -/
abbrev Asking := StateM (List Asked)

/-- What a disk answers, by what it was asked before. -/
abbrev Answering := List Asked → String → FileView

/-- A disk that answers as it likes. -/
def Disk.answering (answer : Answering) : Disk Asking :=
  fun path => modifyGet fun log => (answer log path, log ++ [(path, answer log path)])

namespace ManifestNode

/-- A node names a path, for its graph or for its content. -/
def Names (n : ManifestNode) (path : String) : Prop :=
  n.graph = some (.file path) ∨ n.file = some path

/-- What a node names stays inside the package. -/
def NamesInside (n : ManifestNode) : Prop := ∀ path, n.Names path → staysInside path = true

theorem namesInside_iff {n : ManifestNode} : n.NamesInside ↔
    (∀ path, n.graph = some (.file path) → staysInside path = true) ∧
      ∀ path, n.file = some path → staysInside path = true := by
  simp only [NamesInside, Names, or_imp, forall_and]

/-- The graph of a node was asked for, and the file holds no JSON. -/
def HoldsNoJson (root : String) (asked : List Asked) (n : ManifestNode) : Prop :=
  ∃ path bytes, n.graph = some (.file path) ∧ (joinPath root path, .file bytes) ∈ asked ∧
    Json.ofBytes? bytes = none

end ManifestNode

section Reading

variable {answer : Answering} {root : String} {α β : Type}
variable {nodes more : List ManifestNode} {n : ManifestNode} {Q : α → Prop} {R : β → Prop}

theorem run_bind_of_ok {load : ExceptT DepositError Asking α} {log log' : List Asked} {a : α}
    (h : load.run.run log = (.ok a, log')) (next : α → ExceptT DepositError Asking β) :
    (load >>= next).run.run log = (next a).run.run log' := by
  rw [ExceptT.run_bind, StateT.run_bind, h]
  rfl

theorem run_bind_of_error {load : ExceptT DepositError Asking α} {log log' : List Asked}
    {e : DepositError} (h : load.run.run log = (.error e, log'))
    (next : α → ExceptT DepositError Asking β) :
    (load >>= next).run.run log = (.error e, log') := by
  rw [ExceptT.run_bind, StateT.run_bind, h]
  rfl

/-- A question is put on record, and one goes on with its answer. -/
theorem run_ask (path : String) (next : FileView → ExceptT DepositError Asking α)
    (log : List Asked) :
    (liftM (Disk.answering answer path) >>= next).run.run log =
      (next (answer log path)).run.run (log ++ [(path, answer log path)]) := rfl

/-! ## Parts of a load -/

/-- How a part of a load ends that takes some nodes: with something good when all they name stays
inside, with a refusal, or at a graph that holds no JSON, up to which all stays inside. -/
inductive Ends (root : String) (nodes : List ManifestNode) (Q : α → Prop) (asked : List Asked) :
    Except DepositError α → Prop where
  | loaded {a : α} (inside : ∀ n ∈ nodes, n.NamesInside) (good : Q a) :
      Ends root nodes Q asked (.ok a)
  | refused {e : DepositError} (refusal : JsonLd.IsRefusal e) : Ends root nodes Q asked (.error e)
  | unread {front back : List ManifestNode} {n : ManifestNode} (cut : nodes = front ++ n :: back)
      (inside : ∀ m ∈ front ++ [n], m.NamesInside) (bad : n.HoldsNoJson root asked) :
      Ends root nodes Q asked (.error .json)

/-- The nodes that come later are not reached by a load that has ended. -/
theorem Ends.error {asked : List Asked} {e : DepositError}
    (h : Ends root nodes Q asked (.error e)) : Ends root (nodes ++ more) R asked (.error e) := by
  cases h with
  | refused refusal => exact .refused refusal
  | unread cut inside bad =>
    exact .unread (by rw [cut, List.append_assoc, List.cons_append]) inside bad

/-- The nodes that came before were taken. -/
theorem Ends.after {asked asked' : List Asked} {result : Except DepositError α}
    (before : ∀ n ∈ nodes, n.NamesInside) (h : Ends root more Q asked' result) :
    Ends root (nodes ++ more) Q (asked ++ asked') result := by
  cases h with
  | loaded inside good => exact .loaded (List.forall_mem_append.mpr ⟨before, inside⟩) good
  | refused refusal => exact .refused refusal
  | unread cut inside bad =>
    obtain ⟨path, bytes, graph, mem, bad⟩ := bad
    refine .unread (by rw [cut, List.append_assoc]) ?_
      ⟨path, bytes, graph, List.mem_append_right _ mem, bad⟩
    rw [List.append_assoc]
    exact List.forall_mem_append.mpr ⟨before, inside⟩

/-- What a part of a load asks for is below the root, and it ends as `Ends` says. -/
def Reads (root : String) (nodes : List ManifestNode) (Q : α → Prop)
    (load : ExceptT DepositError Asking α) : Prop :=
  ∀ log, ∃ asked result, load.run.run log = (result, log ++ asked) ∧
    (∀ q ∈ asked, IsBelow root q.1) ∧ Ends root nodes Q asked result

namespace Reads

/-- A part that asks for nothing. -/
theorem silent {load : ExceptT DepositError Asking α} {result : Except DepositError α}
    (run : ∀ log, load.run.run log = (result, log)) (ends : Ends root nodes Q [] result) :
    Reads root nodes Q load :=
  fun log => ⟨[], result, by rw [run, List.append_nil], nofun, ends⟩

theorem pure {a : α} (inside : ∀ n ∈ nodes, n.NamesInside) (good : Q a) :
    Reads root nodes Q (Pure.pure a) := silent (fun _ => rfl) (.loaded inside good)

theorem refuse {e : DepositError} (refusal : JsonLd.IsRefusal e) :
    Reads root nodes Q (throw e) := silent (fun _ => rfl) (.refused refusal)

/-- What is computed beside the disk may refuse the package. -/
theorem lift {e : Except DepositError α} (inside : ∀ n ∈ nodes, n.NamesInside)
    (refuses : ∀ reason, e = .error reason → JsonLd.IsRefusal reason) :
    Reads root nodes (fun _ => True) (liftM e) := by
  cases e with
  | error reason => exact refuse (refuses reason rfl)
  | ok a => exact pure inside trivial

theorem bind {load : ExceptT DepositError Asking α} {next : α → ExceptT DepositError Asking β}
    (first : Reads root nodes Q load) (rest : ∀ a, Q a → Reads root more R (next a)) :
    Reads root (nodes ++ more) R (load >>= next) := by
  intro log
  obtain ⟨asked, result, run, below, ends⟩ := first log
  cases result with
  | error e => exact ⟨asked, .error e, run_bind_of_error run next, below, ends.error⟩
  | ok a =>
    cases ends with
    | loaded inside good =>
      obtain ⟨asked', result', run', below', ends'⟩ := rest a good (log ++ asked)
      rw [← run_bind_of_ok run next, List.append_assoc] at run'
      exact ⟨asked ++ asked', result', run', List.forall_mem_append.mpr ⟨below, below'⟩,
        ends'.after inside⟩

/-- What is checked before the nodes are taken. -/
theorem check {load : ExceptT DepositError Asking α} {next : α → ExceptT DepositError Asking β}
    (first : Reads root [] Q load) (rest : ∀ a, Q a → Reads root nodes R (next a)) :
    Reads root nodes R (load >>= next) := first.bind rest

/-- What is done with the outcome at the end. -/
theorem map {load : ExceptT DepositError Asking α} {f : α → β} (first : Reads root nodes Q load)
    (good : ∀ a, Q a → R (f a)) : Reads root nodes R (load >>= fun a => Pure.pure (f a)) := by
  have rest : ∀ a, Q a → Reads root [] R (Pure.pure (f a)) := fun a h => pure nofun (good a h)
  simpa only [List.append_nil] using first.bind rest

/-- A check that refuses the package. -/
theorem guard {c : Prop} [Decidable c] {reason : String}
    {next : PUnit → ExceptT DepositError Asking α} (h : ¬ c → Reads root nodes Q (next ⟨⟩)) :
    Reads root nodes Q (if c then MonadExcept.throw (.invalidPackage reason) >>= next
      else next ⟨⟩) := by
  by_cases broken : c
  · rw [if_pos broken]
    exact silent (fun _ => rfl) (.refused ⟨reason, rfl⟩)
  · rw [if_neg broken]
    exact h broken

end Reads

/-- The same for parts that note ids. -/
def ReadsNoting (root : String) (nodes : List ManifestNode) (Q : α → Prop)
    (load : StateT SeenIds (ExceptT DepositError Asking) α) : Prop :=
  ∀ seen, Reads root nodes (fun p => Q p.1) (load.run seen)

namespace ReadsNoting

theorem pure {a : α} (inside : ∀ n ∈ nodes, n.NamesInside) (good : Q a) :
    ReadsNoting root nodes Q (Pure.pure a) := fun _ => .pure inside good

theorem lift {load : ExceptT DepositError Asking α} (h : Reads root nodes Q load) :
    ReadsNoting root nodes Q (liftM load) :=
  fun seen => h.map (f := fun a => (a, seen)) fun _ good => good

theorem bind {load : StateT SeenIds (ExceptT DepositError Asking) α}
    {next : α → StateT SeenIds (ExceptT DepositError Asking) β}
    (first : ReadsNoting root nodes Q load) (rest : ∀ a, Q a → ReadsNoting root more R (next a)) :
    ReadsNoting root (nodes ++ more) R (load >>= next) := by
  intro seen
  rw [StateT.run_bind]
  exact (first seen).bind fun p good => rest p.1 good p.2

theorem check {load : StateT SeenIds (ExceptT DepositError Asking) α}
    {next : α → StateT SeenIds (ExceptT DepositError Asking) β}
    (first : ReadsNoting root [] Q load) (rest : ∀ a, Q a → ReadsNoting root nodes R (next a)) :
    ReadsNoting root nodes R (load >>= next) := first.bind rest

theorem map {load : StateT SeenIds (ExceptT DepositError Asking) α} {f : α → β}
    (first : ReadsNoting root nodes Q load) (good : ∀ a, Q a → R (f a)) :
    ReadsNoting root nodes R (load >>= fun a => Pure.pure (f a)) := by
  have rest : ∀ a, Q a → ReadsNoting root [] R (Pure.pure (f a)) :=
    fun a h => pure nofun (good a h)
  simpa only [List.append_nil] using first.bind rest

end ReadsNoting

/-! ## What the nodes of a manifest ask for -/

/-- The files below the root, as the disk answers. -/
abbrev filesBelow (answer : Answering) (root : String) : PackageSource Asking :=
  .ofDirectory (Disk.answering answer) root

/-- A path that leaves the package is refused without a question. -/
theorem run_checkInside (path : String) (next : PUnit → ExceptT DepositError Asking α)
    (log : List Asked) :
    (checkInside path >>= next).run.run log =
      if staysInside path then (next ⟨⟩).run.run log else (.error (.escapingPath path), log) := by
  rw [PackageSource.checkInside_bind]
  split
  · rfl
  · rfl

/-- A load asks for one path below the root, if it stays inside, and goes by the answer. -/
def AsksFor (answer : Answering) (root path : String) (outcome : FileView → Except DepositError α)
    (load : ExceptT DepositError Asking α) : Prop :=
  ∀ log, load.run.run log =
    if staysInside path then (outcome (answer log (joinPath root path)),
      log ++ [(joinPath root path, answer log (joinPath root path))])
    else (.error (.escapingPath path), log)

theorem Reads.of_asksFor {path : String} {outcome : FileView → Except DepositError α}
    {load : ExceptT DepositError Asking α} (asks : AsksFor answer root path outcome load)
    (ends : staysInside path = true → ∀ view,
      Ends root nodes Q [(joinPath root path, view)] (outcome view)) :
    Reads root nodes Q load := by
  intro log
  rw [asks log]
  by_cases inside : staysInside path = true
  · rw [if_pos inside]
    exact ⟨_, _, rfl, List.forall_mem_singleton.mpr (isBelow_of_staysInside inside),
      ends inside _⟩
  · rw [if_neg inside]
    exact ⟨[], .error (.escapingPath path), by rw [List.append_nil], nofun, .refused ⟨_, rfl⟩⟩

/-- The bytes of a file, as a view of it gives them. -/
def bytesOf (full : String) (view : FileView) : Except DepositError Bytes :=
  view.read.mapError fun reason => .invalidPackage ("cannot read " ++ full ++ ": " ++ reason)

theorem asksFor_read (path : String) :
    AsksFor answer root path (bytesOf (joinPath root path))
      ((filesBelow answer root).read path) := by
  intro log
  refine (run_checkInside path _ log).trans (if_congr Iff.rfl ?_ rfl)
  refine (run_ask _ _ log).trans ?_
  unfold bytesOf
  cases (answer log (joinPath root path)).read with
  | ok bytes => rfl
  | error reason => rfl

/-- The graph in the bytes of a file. -/
def graphIn (bytes : Bytes) : Except DepositError Graph :=
  match Json.ofBytes? bytes with
  | some doc => JsonLd.toGraph doc
  | none => .error .json

/-- The graph in a file, as a view of it gives it. -/
def graphOf (full : String) (view : FileView) : Except DepositError Graph :=
  bytesOf full view >>= graphIn

theorem asksFor_readGraphFile (path : String) :
    AsksFor answer root path (graphOf (joinPath root path))
      (readGraphFile (filesBelow answer root) path) := by
  intro log
  have read : ((filesBelow answer root).read path).run.run log = _ := asksFor_read path log
  by_cases inside : staysInside path = true
  · rw [if_pos inside] at read ⊢
    unfold graphOf
    cases bytes : bytesOf (joinPath root path) (answer log (joinPath root path)) with
    | error e =>
      rw [bytes] at read
      exact run_bind_of_error read _
    | ok found =>
      rw [bytes] at read
      refine (run_bind_of_ok read _).trans ?_
      change _ = (graphIn found, _)
      unfold graphIn
      cases Json.ofBytes? found with
      | none => rfl
      | some doc => cases JsonLd.toGraph doc <;> rfl
  · rw [if_neg inside] at read ⊢
    exact run_bind_of_error read _

/-- The content of a binary, which is left where it is. -/
def contentOf (full : String) (view : FileView) : Except DepositError Content :=
  if view.isFile then .ok (.file full)
  else .error (.invalidPackage ("binary " ++ full ++ " does not exist"))

theorem asksFor_binary (path : String) :
    AsksFor answer root path (contentOf (joinPath root path))
      ((filesBelow answer root).binary path) := by
  intro log
  refine (run_checkInside path _ log).trans (if_congr Iff.rfl ?_ rfl)
  refine (run_ask _ _ log).trans ?_
  unfold contentOf
  split
  · rfl
  · rfl

/-- A graph file belongs to the node that names it. -/
theorem reads_readGraphFile {path : String} (graph : n.graph = some (.file path))
    (alone : n.file = none) :
    Reads root [n] (fun _ => True) (readGraphFile (filesBelow answer root) path) := by
  refine .of_asksFor (asksFor_readGraphFile path) fun inside view => ?_
  have named : ∀ m ∈ [n], m.NamesInside := List.forall_mem_singleton.mpr <| by
    simpa [ManifestNode.namesInside_iff, graph, alone] using inside
  cases view with
  | directory => exact .refused ⟨_, rfl⟩
  | failure reason => exact .refused ⟨_, rfl⟩
  | file bytes =>
    change Ends root [n] _ _ (graphIn bytes)
    unfold graphIn
    cases parsed : Json.ofBytes? bytes with
    | none =>
      have bad : n.HoldsNoJson root [(joinPath root path, .file bytes)] :=
        ⟨path, bytes, graph, List.mem_singleton.mpr rfl, parsed⟩
      exact .unread (List.nil_append [n]).symm named bad
    | some doc =>
      change Ends root [n] _ _ (JsonLd.toGraph doc)
      cases read : JsonLd.toGraph doc with
      | error e => exact .refused (JsonLd.toGraph_refuses read)
      | ok g => exact .loaded named trivial

theorem reads_loadGraph {graph : Option GraphSource} (is : n.graph = graph)
    (alone : n.file = none) :
    Reads root [n] (fun _ => True) (loadGraph (filesBelow answer root) graph) := by
  have nothing (other : ∀ path, n.graph ≠ some (.file path)) : ∀ m ∈ [n], m.NamesInside :=
    List.forall_mem_singleton.mpr <| by simp [ManifestNode.namesInside_iff, other, alone]
  match graph with
  | none => exact .pure (nothing fun path => by rw [is]; nofun) trivial
  | some (.inline doc) =>
    exact .lift (nothing fun path => by rw [is]; nofun) fun _ => JsonLd.toGraph_refuses
  | some (.file path) => exact reads_readGraphFile is alone

theorem reads_rejectBinaryFields :
    Reads root [] (fun _ => n.hasBinaryField = false) n.rejectBinaryFields := by
  unfold ManifestNode.rejectBinaryFields
  split
  · exact .refuse ⟨_, rfl⟩
  · case isFalse plain => exact .pure nofun (Bool.not_eq_true _ ▸ plain)

theorem readsNoting_noteId (id : String) : ReadsNoting root [] (fun _ => True) (noteId id) := by
  intro seen
  change Reads root [] _ ((if id ∈ seen then MonadExcept.throw (.duplicateId id)
    else modify (id :: ·) : StateT SeenIds (ExceptT DepositError Asking) Unit).run seen)
  split
  · exact .silent (fun _ => rfl) (.refused ⟨_, rfl⟩)
  · exact .silent (fun _ => rfl) (.loaded nofun trivial)

theorem reads_loadRdfSource :
    Reads root n.nodes (fun _ => True) (n.loadRdfSource (filesBelow answer root)) := by
  unfold ManifestNode.loadRdfSource
  refine reads_rejectBinaryFields.check fun _ plain => Reads.guard fun leaf => ?_
  have leaf : n.children = [] := by simpa using leaf
  rw [ManifestNode.nodes_rdfSource plain leaf]
  exact reads_loadGraph rfl (ManifestNode.hasBinaryField_eq_false_iff.mp plain).1

/-- The content of a binary is bytes, or a file below the root. -/
def Content.IsInside (root : String) (c : Content) : Prop :=
  ∀ path, c = .file path → IsBelow root path

theorem readsNoting_loadDescription {d : Option ManifestNode} :
    ReadsNoting root (ManifestNode.descriptionNodes d) (fun _ => True)
      (ManifestNode.loadDescription (filesBelow answer root) d) := by
  cases d with
  | none => exact .pure nofun trivial
  | some d =>
    exact (readsNoting_noteId d.id).check fun _ _ =>
      (ReadsNoting.lift reads_loadRdfSource).map fun _ _ => trivial

/-- A binary names its content only, and nothing belongs to it but its description. -/
theorem reads_loadBinary :
    Reads root [n] (fun b => b.content.IsInside root ∧ n.children = [])
      (n.loadBinary (filesBelow answer root)) := by
  unfold ManifestNode.loadBinary
  refine Reads.guard fun bare => ?_
  have bare : n.graph = none ∧ n.children = [] := by simpa using bare
  split
  · exact .refuse ⟨_, rfl⟩
  · split
    · exact .refuse ⟨_, rfl⟩
    · case h_2 file named =>
      refine Reads.map (Q := fun c => c.IsInside root) ?_ fun c good => ⟨good, bare.2⟩
      refine .of_asksFor (asksFor_binary file) fun inside view => ?_
      unfold contentOf
      split
      · refine .loaded (List.forall_mem_singleton.mpr ?_) ?_
        · simpa [ManifestNode.namesInside_iff, bare.1, named] using inside
        · rintro _ ⟨⟩
          exact isBelow_of_staysInside inside
      · exact .refused ⟨_, rfl⟩

/-- The files that a tree leaves to be opened are below a directory. -/
def OpensBelow (root : String) (tree : List Resource) : Prop :=
  ∀ path ∈ Resource.allPaths tree, IsBelow root path

mutual

/-- **What a node asks for**, and how its load ends. -/
theorem reads_toResource (n : ManifestNode) :
    ReadsNoting root n.nodes (fun r => ∀ path ∈ r.paths, IsBelow root path)
      (n.toResource (filesBelow answer root)) := by
  obtain ⟨id, kind, graph, file, mediaType, description, children⟩ := n
  unfold ManifestNode.toResource
  refine (readsNoting_noteId id).check fun _ _ => ?_
  match kind with
  | .container =>
    refine (ReadsNoting.lift reads_rejectBinaryFields).check fun _ plain => ?_
    rw [ManifestNode.nodes_container plain]
    have alone := (ManifestNode.hasBinaryField_eq_false_iff.mp plain).1
    exact (ReadsNoting.lift (reads_loadGraph rfl alone)).bind fun g _ =>
      (reads_toResources children).map fun _ below => below
  | .rdfSource => exact (ReadsNoting.lift reads_loadRdfSource).map fun g _ => nofun
  | .nonRdfSource =>
    rw [ManifestNode.nodes, ← List.singleton_append]
    refine (ReadsNoting.lift reads_loadBinary).bind fun b => ?_
    rintro ⟨good, leaf⟩
    obtain rfl : children = [] := leaf
    rw [ManifestNode.allNodes, List.append_nil]
    refine readsNoting_loadDescription.map fun d _ => ?_
    simp only [Resource.paths]
    split
    · case h_1 path is => exact List.forall_mem_singleton.mpr (good path is)
    · exact nofun

theorem reads_toResources (nodes : List ManifestNode) :
    ReadsNoting root (ManifestNode.allNodes nodes) (OpensBelow root)
      (ManifestNode.toResources (filesBelow answer root) nodes) := by
  cases nodes with
  | nil =>
    unfold ManifestNode.toResources
    exact .pure nofun nofun
  | cons n rest =>
    unfold ManifestNode.toResources
    rw [ManifestNode.allNodes]
    refine (reads_toResource n).bind fun r first => ?_
    refine (reads_toResources rest).map fun tree others => ?_
    exact List.forall_mem_append.mpr ⟨first, others⟩

end

theorem reads_toTree (manifest : Manifest) :
    Reads root (ManifestNode.allNodes manifest.resources) (OpensBelow root)
      (manifest.toTree (filesBelow answer root)) :=
  (reads_toResources manifest.resources []).map fun _ below => below

/-! ## Loading a package -/

/-- What a load from a directory keeps to, whatever its disk answers. `asked` is what it asks after
it has found the directory. -/
structure LoadsInside (root : String) (asked : List Asked)
    (result : Except DepositError (List Resource)) : Prop where
  /-- The manifest is asked for first. -/
  first : asked.head?.map Prod.fst = some (joinPath root manifestName)
  /-- Nothing is asked for that is not below the root. -/
  below : ∀ q ∈ asked, IsBelow root q.1
  /-- Nor is any file left to be opened. -/
  opened : ∀ tree, result = .ok tree → OpensBelow root tree
  /-- A manifest with a node that names another path is refused, unless the graph of a node that
  comes first holds no JSON. -/
  refused : ∀ bytes manifest front n back path,
    asked.head? = some (joinPath root manifestName, .file bytes) →
    Manifest.ofBytes? bytes = some manifest →
    ManifestNode.allNodes manifest.resources = front ++ n :: back →
    n.Names path → ¬ StaysBelow path →
    ∃ e, result = .error e ∧
      (JsonLd.IsRefusal e ∨ e = .json ∧ ∃ m ∈ front, m.HoldsNoJson root asked)

/-- A load of some nodes does not get past one that names another path. -/
theorem Ends.refused_or_json {asked : List Asked} {result : Except DepositError α}
    {front back : List ManifestNode} {path : String}
    (h : Ends root (front ++ n :: back) Q asked result) (names : n.Names path)
    (escapes : ¬ StaysBelow path) : ∃ e, result = .error e ∧
      (JsonLd.IsRefusal e ∨ e = .json ∧ ∃ m ∈ front, m.HoldsNoJson root asked) := by
  have outside : ¬ n.NamesInside := fun inside =>
    escapes (staysBelow_of_staysInside (inside path names))
  cases h with
  | loaded inside _ => exact absurd (inside n (by simp)) outside
  | refused refusal => exact ⟨_, rfl, .inl refusal⟩
  | @unread front' back' m cut inside bad =>
    obtain ⟨taken, last⟩ := List.forall_mem_append.mp inside
    refine ⟨_, rfl, .inr ⟨rfl, m, ?_, bad⟩⟩
    rcases List.append_eq_append_iff.mp cut with ⟨between, rfl, rest⟩ | ⟨between, rfl, rest⟩
    · -- The node would be among those that were taken.
      refine absurd ?_ outside
      cases between with
      | nil =>
        obtain ⟨rfl, -⟩ := List.cons.inj rest
        exact last n List.mem_cons_self
      | cons first between =>
        obtain ⟨rfl, -⟩ := List.cons.inj rest
        exact taken n (List.mem_append_right _ List.mem_cons_self)
    · cases between with
      | nil =>
        obtain ⟨rfl, -⟩ := List.cons.inj rest
        exact absurd (last m List.mem_cons_self) outside
      | cons first between =>
        obtain ⟨rfl, -⟩ := List.cons.inj rest
        exact List.mem_append_right _ List.mem_cons_self

theorem run_ofPath (opens : answer [] root = .directory) :
    (PackageSource.ofPath (Disk.answering answer) root).run.run [] =
      (.ok (filesBelow answer root), [(root, .directory)]) := by
  refine (run_ask _ _ []).trans ?_
  rw [opens]
  rfl

/-- What is left to show once the manifest has been asked for. -/
theorem loadsInside_of_manifest {view : FileView} {asked : List Asked}
    {result : Except DepositError (List Resource)} (below : ∀ q ∈ asked, IsBelow root q.1)
    (opened : ∀ tree, result = .ok tree → OpensBelow root tree)
    (ends : ∀ bytes manifest, view = .file bytes → Manifest.ofBytes? bytes = some manifest →
      Ends root (ManifestNode.allNodes manifest.resources) (OpensBelow root) asked result) :
    LoadsInside root ((joinPath root manifestName, view) :: asked) result where
  first := rfl
  below := List.forall_mem_cons.mpr ⟨isBelow_of_staysInside (by decide), below⟩
  opened := opened
  refused bytes manifest front n back path found parsed nodes names escapes := by
    have file : view = .file bytes := by simpa using found
    have taken : ∀ m ∈ ([] : List ManifestNode), m.NamesInside := nofun
    have whole : Ends root (front ++ n :: back) (OpensBelow root)
        ([(joinPath root manifestName, view)] ++ asked) result :=
      nodes ▸ (ends bytes manifest file parsed).after taken
    exact whole.refused_or_json names escapes

/-- **A load from a directory stays inside it.** -/
theorem load_stays_inside {result : Except DepositError (List Resource)} {log : List Asked}
    (load : (loadPackage (Disk.answering answer) root).run.run [] = (result, log))
    (opens : answer [] root = .directory) :
    ∃ asked, log = (root, .directory) :: asked ∧ LoadsInside root asked result := by
  have inside : staysInside manifestName = true := by decide
  have read : ((filesBelow answer root).read manifestName).run.run [(root, .directory)] = _ :=
    asksFor_read manifestName _
  rw [if_pos inside] at read
  generalize answer [(root, .directory)] (joinPath root manifestName) = view at read
  rw [loadPackage, run_bind_of_ok (run_ofPath opens)] at load
  cases view with
  | directory =>
    cases (run_bind_of_error read _).symm.trans load
    exact ⟨_, rfl, loadsInside_of_manifest nofun nofun nofun⟩
  | failure reason =>
    cases (run_bind_of_error read _).symm.trans load
    exact ⟨_, rfl, loadsInside_of_manifest nofun nofun nofun⟩
  | file bytes =>
    rw [run_bind_of_ok read] at load
    cases parsed : Manifest.ofBytes? bytes with
    | none =>
      have parsed' : (Json.partOfBytes? bytes).bind Manifest.ofPart? = none := parsed
      rw [parsed'] at load
      cases load
      refine ⟨_, rfl, loadsInside_of_manifest nofun nofun ?_⟩
      rintro _ manifest ⟨⟩ parsed'
      cases parsed.symm.trans parsed'
    | some manifest =>
      have parsed' : (Json.partOfBytes? bytes).bind Manifest.ofPart? = some manifest := parsed
      rw [parsed'] at load
      obtain ⟨asked, result', run, below, ends⟩ := reads_toTree manifest
        ([(root, .directory)] ++ [(joinPath root manifestName, .file bytes)])
      obtain ⟨rfl, rfl⟩ := Prod.mk.inj (load.symm.trans run)
      refine ⟨_, rfl, loadsInside_of_manifest below ?_ ?_⟩
      · rintro tree rfl
        cases ends with
        | loaded _ good => exact good
      · rintro _ manifest' ⟨⟩ parsed'
        cases parsed.symm.trans parsed'
        exact ends

end Reading

/-! ## A manifest that climbs -/

/-- A graph in the file `a`, and a binary in a file beside the package. -/
def climbingManifest : Bytes := FileTree.shortManifest
  "\"x\",\"rdf-source\",\"a\"],[\"y\",\"non-rdf-source\",null,\"../b\""

/-- A package with that manifest, and with some bytes in the file. -/
def climbingFiles (a : Bytes) : Files := (FileTree.twoForms climbingManifest a).view

/-- What a load of it asks for, and how it ends. -/
def climbingLoad (a : Bytes) : Except DepositError (List Resource) × List Asked :=
  (loadPackage (Disk.answering fun _ => climbingFiles a) "pkg").run.run []

theorem load_stays_inside_climbing :
    climbingFiles (Text.toUtf8 "[]") "pkg" = .directory ∧
    ∃ asked, (climbingLoad (Text.toUtf8 "[]")).2 = ("pkg", .directory) :: asked ∧
      asked.map Prod.fst = ["pkg/manifest.json", "pkg/a"] ∧
      LoadsInside "pkg" asked (climbingLoad (Text.toUtf8 "[]")).1 ∧
      (climbingLoad (Text.toUtf8 "[]")).1.map (fun _ => ()) = .error (.escapingPath "../b") := by
  have opens : climbingFiles (Text.toUtf8 "[]") "pkg" = .directory := by decide +kernel
  have paths : (climbingLoad (Text.toUtf8 "[]")).2.map Prod.fst =
      ["pkg", "pkg/manifest.json", "pkg/a"] := by decide +kernel
  have load : climbingLoad (Text.toUtf8 "[]") =
      ((climbingLoad (Text.toUtf8 "[]")).1, (climbingLoad (Text.toUtf8 "[]")).2) := rfl
  obtain ⟨asked, log, inside⟩ := load_stays_inside load opens
  rw [log] at paths
  exact ⟨opens, asked, log, (List.cons.inj paths).2, inside, by decide +kernel⟩

/-- **A graph that holds no JSON is reported first**, though the manifest climbs further on. -/
theorem unread_graph_first :
    climbingFiles (Text.toUtf8 "nope") "pkg" = .directory ∧
    climbingFiles (Text.toUtf8 "nope") (joinPath "pkg" manifestName) = .file climbingManifest ∧
    (∃ manifest, Manifest.ofBytes? climbingManifest = some manifest ∧
      ∃ n ∈ ManifestNode.allNodes manifest.resources, n.Names "../b") ∧
    ¬ StaysBelow "../b" ∧
    (climbingLoad (Text.toUtf8 "nope")).1 = .error .json ∧ ¬ JsonLd.IsRefusal .json := by
  have climbs : ((Manifest.ofBytes? climbingManifest).any fun manifest =>
      (ManifestNode.allNodes manifest.resources).any fun n => n.file = some "../b") = true := by
    decide +kernel
  have ends : (climbingLoad (Text.toUtf8 "nope")).1.map (fun _ => ()) = .error .json := by
    decide +kernel
  refine ⟨by decide +kernel, by decide +kernel, ?_, ?_, ?_, nofun⟩
  · obtain ⟨manifest, parsed, some⟩ := Option.any_eq_true _ _ |>.mp climbs
    obtain ⟨n, mem, file⟩ := List.any_eq_true.mp some
    exact ⟨manifest, parsed, n, mem, .inr (of_decide_eq_true file)⟩
  · intro below
    exact absurd (below.covered [".."] (by decide)) (by decide)
  · cases done : (climbingLoad (Text.toUtf8 "nope")).1 with
    | error e =>
      rw [done] at ends
      cases ends
      rfl
    | ok tree =>
      rw [done] at ends
      cases ends

end LinkedDeposit
