import Mathlib.Data.List.Forall2
import LinkedDeposit.Proofs.Deposit.Announcement

/-!
# What a walk covers

The outline of a package lists its resources in preorder, each with the position of its parent in
the same list. Whatever the session answers, the deposits of a walk follow the outline: the call at
a position is for the resource there, below the URI that the call at its parent's position was
answered. A walk that succeeds has covered the whole outline; then every graph is fetched in the
same order, and patched exactly when it changes (`EditCalls`).

Results:
* `outline_of_walks`: pending resources are an outline that is yet to be followed.
* `editCalls_of_remap`: what remapping some nodes asks of the session.
* `walk_covers`: a walk covers a package in the order of its outline, and so does the remapping.
-/

namespace LinkedDeposit

namespace Resource

mutual

/-- A tree in preorder from position `n` on, each resource with the position of its parent. -/
def outline (n : Nat) (parent : Option Nat) : Resource → List (Resource × Option Nat)
  | .container id g children =>
    (.container id g children, parent) :: outlineAll (n + 1) (some n) children
  | .rdfSource id g => [(.rdfSource id g, parent)]
  | .binary id b description => [(.binary id b description, parent)]

/-- Some trees in preorder from position `n` on. -/
def outlineAll (n : Nat) (parent : Option Nat) : List Resource → List (Resource × Option Nat)
  | [] => []
  | r :: rest =>
    outline n parent r ++ outlineAll (n + (outline n parent r).length) parent rest

end

/-- Some trees with the positions of their parents, in preorder from position `n` on. -/
def outlinePending (n : Nat) : List (Resource × Option Nat) → List (Resource × Option Nat)
  | [] => []
  | (r, parent) :: rest =>
    outline n parent r ++ outlinePending (n + (outline n parent r).length) rest

theorem outline_eq (n : Nat) (parent : Option Nat) (r : Resource) :
    outline n parent r = (r, parent) :: outlineAll (n + 1) (some n) r.children := by
  cases r with
  | container id g children => rfl
  | rdfSource id g => rfl
  | binary id b description => rfl

theorem outlinePending_map (n : Nat) (parent : Option Nat) (tree : List Resource) :
    outlinePending n (tree.map (·, parent)) = outlineAll n parent tree := by
  induction tree generalizing n with
  | nil => rfl
  | cons r rest ih => rw [List.map_cons, outlinePending, outlineAll, ih]

theorem outlinePending_append (n : Nat) (l k : List (Resource × Option Nat)) :
    outlinePending n (l ++ k) =
      outlinePending n l ++ outlinePending (n + (outlinePending n l).length) k := by
  induction l generalizing n with
  | nil => rfl
  | cons e l ih =>
    rw [List.cons_append, outlinePending, outlinePending, ih, List.append_assoc,
      List.length_append, Nat.add_assoc]

/-- The first pending resource comes first, and then what is below it. -/
theorem outlinePending_cons (n : Nat) (r : Resource) (parent : Option Nat)
    (rest : List (Resource × Option Nat)) :
    outlinePending n ((r, parent) :: rest) =
      (r, parent) :: outlinePending (n + 1) (r.children.map (·, some n) ++ rest) := by
  rw [outlinePending, outlinePending_append, outlinePending_map, outline_eq, List.cons_append,
    List.length_cons]
  congr 3
  omega

mutual

theorem count_eq_outline (n : Nat) (parent : Option Nat) (r : Resource) :
    r.count = (outline n parent r).length +
      (outline n parent r).countP fun place => place.1.description?.isSome := by
  cases r with
  | container id g children =>
    rw [count, countAll_eq_outline (n + 1) (some n) children, outline, List.length_cons,
      List.countP_cons_of_neg (by simp [description?])]
    omega
  | rdfSource id g => rfl
  | binary id b description => cases description <;> rfl

/-- A package counts the resources of its outline and the descriptions that they have. -/
theorem countAll_eq_outline (n : Nat) (parent : Option Nat) (tree : List Resource) :
    countAll tree = (outlineAll n parent tree).length +
      (outlineAll n parent tree).countP fun place => place.1.description?.isSome := by
  cases tree with
  | nil => rfl
  | cons r rest =>
    have first := count_eq_outline n parent r
    have others := countAll_eq_outline (n + (outline n parent r).length) parent rest
    rw [countAll, outlineAll, List.length_append, List.countP_append]
    omega

end

end Resource

/-! ## Deposits along the outline -/

/-- The URI that a deposit was answered. -/
def returnedUri : Answered → Option String
  | (_, .ok (.deposited d)) => some d.uri
  | _ => none

/-- What is at a position: the target for no position, else the URI that the call there was
answered. -/
def parentUri (target : String) (calls : List Answered) : Option Nat → Option String
  | none => some target
  | some n => calls[n]?.bind returnedUri

/-- The call deposits a resource below what is at its parent's position. -/
def DepositsAt (target : String) (calls : List Answered) (place : Resource × Option Nat)
    (c : Answered) : Prop :=
  ∃ parent, parentUri target calls place.2 = some parent ∧ c.1 = .deposit place.1 parent

/-- A place stands for a resource that is to go below a URI. -/
def StandsFor (target : String) (calls : List Answered) (place : Resource × Option Nat)
    (pending : Resource × String) : Prop :=
  place.1 = pending.1 ∧ parentUri target calls place.2 = some pending.2

/-- The roots of a package go below its target. -/
theorem StandsFor.roots (target : String) (calls : List Answered) (tree : List Resource) :
    List.Forall₂ (StandsFor target calls) (tree.map (·, none)) (tree.map (·, target)) := by
  induction tree with
  | nil => exact .nil
  | cons r tree ih => exact .cons ⟨rfl, rfl⟩ ih

theorem StandsFor.children {target : String} {before after : List Answered} {p : Placement}
    (children : List Resource) :
    List.Forall₂ (StandsFor target (before ++ p.call :: after))
      (children.map (·, some before.length)) (children.map (·, p.answer.uri)) := by
  induction children with
  | nil => exact .nil
  | cons r children ih =>
    refine .cons ⟨rfl, ?_⟩ ih
    simp [parentUri, returnedUri, Placement.call]

/-- **A walk follows the outline of what is pending**, and leaves the rest of it. -/
theorem outline_of_walks {target : String} {calls : List Answered} (before after : List Answered)
    {ps : List Placement} {places : List (Resource × Option Nat)}
    {pending left : List (Resource × String)} (h : Walks pending ps left)
    (hcalls : calls = before ++ (ps.map Placement.call ++ after))
    (stand : List.Forall₂ (StandsFor target calls) places pending) :
    ∃ first rest, Resource.outlinePending before.length places =
        first ++ Resource.outlinePending (before.length + ps.length) rest ∧
      List.Forall₂ (DepositsAt target calls) first (ps.map Placement.call) ∧
      List.Forall₂ (StandsFor target calls) rest left := by
  induction ps generalizing before places pending with
  | nil =>
    obtain rfl : pending = left := h
    exact ⟨[], places, rfl, .nil, stand⟩
  | cons p ps ih =>
    cases stand with
    | nil => exact absurd h (by simp [Walks])
    | @cons place _ places pending hplace stand =>
      obtain ⟨r, position⟩ := place
      obtain ⟨rfl, hparent⟩ := hplace
      obtain ⟨hr, hp, hrest⟩ := h
      have hcalls' : calls = (before ++ [p.call]) ++ (ps.map Placement.call ++ after) := by
        rw [hcalls]
        simp
      have children : List.Forall₂ (StandsFor target calls)
          (p.resource.children.map (·, some before.length)) p.below := by
        rw [hcalls]
        exact StandsFor.children p.resource.children
      obtain ⟨first, rest, hfirst, deposits, left⟩ :=
        ih (before ++ [p.call]) hrest hcalls' (List.rel_append children stand)
      refine ⟨(p.resource, position) :: first, rest, ?_, ?_, left⟩
      · rw [List.length_append, List.length_singleton] at hfirst
        rw [← hr, Resource.outlinePending_cons, hfirst, List.cons_append, List.length_cons,
          Nat.add_right_comm, Nat.add_assoc]
      · refine .cons ⟨p.parent, ?_, rfl⟩ deposits
        rw [hp]
        exact hparent

/-- Where nothing is left pending the whole outline was followed. -/
theorem deposits_of_walks {tree : List Resource} {target : String} {ps : List Placement}
    (h : Walks (tree.map (·, target)) ps []) :
    List.Forall₂ (DepositsAt target (ps.map Placement.call)) (Resource.outlineAll 0 none tree)
      (ps.map Placement.call) := by
  obtain ⟨first, rest, hfirst, deposits, left⟩ :=
    outline_of_walks [] [] h (List.append_nil _).symm (StandsFor.roots target _ tree)
  cases left with
  | nil =>
    rw [← Resource.outlinePending_map]
    rw [Resource.outlinePending, List.append_nil] at hfirst
    exact hfirst ▸ deposits

/-- **The deposits of a walk follow the outline**, also when the last one goes wrong. -/
theorem deposits_of_walk {tree : List Resource} {target : String} {t : Transcript}
    {result : Except DepositError Walked}
    (h : WalkTranscript (tree.map (·, target)) Walked.nothing t result) :
    ∃ first, first <+: Resource.outlineAll 0 none tree ∧
      List.Forall₂ (DepositsAt target t.calls) first t.calls := by
  cases result with
  | ok w =>
    obtain ⟨ps, hw, rfl, -⟩ := h
    rw [calls_placements]
    exact ⟨_, List.prefix_rfl, deposits_of_walks hw⟩
  | error e =>
    obtain ⟨ps, r, parent, left, w, last, hw, rfl, hg, hs⟩ := h
    obtain ⟨answer, hlast, -⟩ := hs.fault hg.calls.2
    rw [Transcript.calls_append, calls_placements, hlast]
    obtain ⟨first, rest, hfirst, deposits, hleft⟩ :=
      outline_of_walks [] [(.deposit r parent, answer)] hw rfl (StandsFor.roots target _ tree)
    cases hleft with
    | @cons place _ rest _ hplace _ =>
      obtain ⟨r', position⟩ := place
      obtain ⟨rfl, hparent⟩ := hplace
      rw [Resource.outlinePending_cons, Resource.outlinePending_map] at hfirst
      have last : DepositsAt target
          (ps.map Placement.call ++ [(.deposit r' parent, answer)]) (r', position)
          (.deposit r' parent, answer) := ⟨parent, hparent, rfl⟩
      refine ⟨first ++ [(r', position)], ?_, List.rel_append deposits (.cons last .nil)⟩
      exact ⟨_, by rw [List.append_assoc]; exact hfirst.symm⟩

/-- What a walk has covered when it succeeds. -/
structure Covers (tree : List Resource) (calls : List Answered) (w : Walked) : Prop where
  /-- Every resource of the outline was deposited. -/
  whole : calls.length = (Resource.outlineAll 0 none tree).length
  distinct : (Resource.localIds tree).Nodup
  order : w.order = Resource.localIds tree
  /-- Every id has one entry, and nothing else has one. -/
  keys : w.uris.keys.Perm (Resource.localIds tree)
  subjects : (w.visited tree).map (·.subject) = Resource.allSubjects tree
  recorded : ∀ v ∈ w.visited tree, w.uris.get? v.subject.id = some v.uri
  named : w.visited tree = calls.flatMap namedNodes
  deposits : w.deposits = calls.length
  counted : w.deposits + w.descriptions = Resource.countAll tree

/-- The ids of a map that has recorded some nodes, and nothing before, are theirs. -/
theorem keys_recordAll {m : UriMap} {vs : List Visited}
    (h : UriMap.recordAll Table.empty vs = .ok m) : m.keys.Perm (vs.map (·.subject.id)) := by
  have distinct := (recordAll_eq_ok_iff.mp h).1
  refine (List.perm_ext_iff_of_nodup m.nodup_keys distinct).mpr fun id => ?_
  rw [Table.mem_keys, List.mem_map]
  have holds := holds_nothing.recordAll (n := m) h id
  rw [Table.contains, List.nil_append, List.mem_map] at holds
  exact holds

theorem covers_of_walk {tree : List Resource} {target : String} {t : Transcript} {w : Walked}
    (h : WalkTranscript (tree.map (·, target)) Walked.nothing t (.ok w)) :
    Covers tree t.calls w := by
  obtain ⟨ps, hw, rfl, hg⟩ := h
  have visited : w.visited tree = ps.flatMap Placement.visited := hg.visited_eq hw
  have subjects : (ps.flatMap Placement.visited).map (·.subject) = Resource.allSubjects tree :=
    hw.subjects_of_whole hg.complete
  have ids : (ps.flatMap Placement.visited).map (·.subject.id) = Resource.localIds tree := by
    rw [Resource.localIds, ← subjects, List.map_map]
    rfl
  rw [calls_placements]
  refine ⟨(deposits_of_walks hw).length_eq.symm, ?_, ?_, ?_, ?_, ?_, ?_, ?_, ?_⟩
  · rw [← ids]
    exact (recordAll_eq_ok_iff.mp hg.recorded).1
  · rw [hg.order, ids]
    rfl
  · rw [← ids]
    exact keys_recordAll hg.recorded
  · rw [visited, subjects]
  · rw [visited]
    intro v hv
    exact (get?_recordAll hg.recorded v.subject.id v.uri).mpr (.inl ⟨v, hv, rfl, rfl⟩)
  · rw [visited, flatMap_namedNodes_placements]
  · rw [hg.deposits, List.length_map]
    exact Nat.zero_add _
  · rw [hg.visited, ← Resource.length_allSubjects, ← subjects, List.length_map]
    exact Nat.zero_add _

/-! ## Fetches and patches -/

/-- What remapping asks of the session for some nodes, with the answers: a graph that the URIs
change is patched, any other is not, and a call that is refused is the last. -/
inductive EditCalls (uris : UriMap) : List Visited → List Answered → Prop where
  | nil : EditCalls uris [] []
  | unfetched (v : Visited) (rest : List Visited) (e : DepositError) :
    EditCalls uris (v :: rest) [(.fetch v.uri, .error e)]
  | kept (v : Visited) {rest : List Visited} {cs : List Answered} (g : Graph) (token : Token)
      (same : g.remap uris = g) (next : EditCalls uris rest cs) :
    EditCalls uris (v :: rest) ((.fetch v.uri, .ok (.fetched g token)) :: cs)
  | unpatched (v : Visited) (rest : List Visited) (g : Graph) (token : Token)
      (changed : g.remap uris ≠ g) (e : DepositError) :
    EditCalls uris (v :: rest) [(.fetch v.uri, .ok (.fetched g token)),
      (.patch v.uri (.between g (g.remap uris)) token, .error e)]
  | patched (v : Visited) {rest : List Visited} {cs : List Answered} (g : Graph) (token : Token)
      (changed : g.remap uris ≠ g) (next : EditCalls uris rest cs) :
    EditCalls uris (v :: rest) ((.fetch v.uri, .ok (.fetched g token)) ::
      (.patch v.uri (.between g (g.remap uris)) token, .ok .done) :: cs)

theorem Relink.isEmpty_patch {uris : UriMap} {l : Relink} :
    (l.patch uris).isEmpty = true ↔ l.graph.remap uris = l.graph := by
  rw [Relink.patch, Patch.isEmpty_between]
  exact eq_comm

/-- Nodes that are relinked before others. -/
theorem EditCalls.relinks {uris : UriMap} {rest : List Visited} {cs : List Answered}
    (h : EditCalls uris rest cs) (ls : List Relink) :
    EditCalls uris (ls.map (·.node) ++ rest)
      (Transcript.calls (ls.flatMap (Relink.lines uris)) ++ cs) := by
  induction ls with
  | nil => exact h
  | cons l ls ih =>
    rw [List.flatMap_cons, Transcript.calls_append, Relink.calls_lines]
    split
    case isTrue same => exact .kept l.node l.graph l.token (Relink.isEmpty_patch.mp same) ih
    case isFalse changed =>
      exact .patched l.node l.graph l.token (fun same => changed (Relink.isEmpty_patch.mpr same)) ih

/-- **Remapping fetches nodes in order and patches those that change.** -/
theorem editCalls_of_remap {uris : UriMap} {vs : List Visited} {report : Report} {t : Transcript}
    {result : Except DepositError Report} (h : RemapTranscript uris vs report t result) :
    EditCalls uris vs t.calls := by
  cases result with
  | ok report' =>
    obtain ⟨ls, rfl, rfl, -⟩ := h
    have none : EditCalls uris [] [] := .nil
    simpa using none.relinks ls
  | error e =>
    obtain ⟨ls, v, rest, last, rfl, rfl, hm⟩ := h
    rw [Transcript.calls_append]
    refine EditCalls.relinks ?_ ls
    cases hm with
    | unfetched => exact .unfetched v rest e
    | unpatched l hv changed =>
      refine .unpatched v rest l.graph l.token (fun same => ?_) e
      rw [Relink.isEmpty_patch.mpr same] at changed
      cases changed

/-- The graphs that are fetched are those of the first nodes. -/
theorem fetchedUris_of_remap {uris : UriMap} {vs : List Visited} {report : Report} {t : Transcript}
    {result : Except DepositError Report} (h : RemapTranscript uris vs report t result) :
    fetchedUris t.calls <+: vs.map (·.uri) := by
  obtain ⟨ls, rest, last, rfl, rfl, -, -, hf, -⟩ := RemapTranscript.relinks h
  rw [Transcript.calls_append, fetchedUris_append, (calls_relinks uris ls).2, List.map_append,
    List.map_map]
  exact (List.prefix_append_right_inj _).mpr hf

/-- When every node was remapped, every graph was fetched, and each counts as remapped or as
unchanged. -/
theorem report_of_remap {uris : UriMap} {vs : List Visited} {report report' : Report}
    {t : Transcript} (h : RemapTranscript uris vs report t (.ok report')) :
    fetchedUris t.calls = vs.map (·.uri) ∧
      report'.deposited = report.deposited ∧ report'.descriptions = report.descriptions ∧
      report'.remapped = report.remapped + (acceptedPatches t.calls).length ∧
      report'.remapped + report'.unchanged = report.remapped + report.unchanged + vs.length := by
  obtain ⟨ls, rfl, rfl, rfl⟩ := h
  have all : ls.length = (ls.countP fun l => (l.patch uris).isEmpty) +
      ls.countP fun l => !(l.patch uris).isEmpty := by
    simpa using ls.length_eq_countP_add_countP fun l => (l.patch uris).isEmpty
  refine ⟨?_, rfl, rfl, ?_, ?_⟩
  · rw [(calls_relinks uris ls).2, List.map_map]
    rfl
  · rw [acceptedPatches_relinks, List.length_map, changedNodes, List.length_map,
      ← List.countP_eq_length_filter]
    rfl
  · rw [List.length_map, all]
    simp only [Report.relinked]
    omega

/-- **A walk covers a package in the order of its outline**, whatever the session answers. Its calls
are deposits, each of the next resource below the URI of its parent. If it succeeds, no id occurs
twice, each has one URI and is visited once, and nothing was left out. Then the remapping fetches
every node that has a graph, in the same order, and patches those that the URIs change. -/
theorem walk_covers {σ : Type} (s : Session (StateM σ)) (notify : Event → StateM σ Unit)
    (tree : List Resource) (target : String) (x : σ) :
    let walked := ((walk s.noted (noteEvent notify) tree target).run.run []).run x
    let calls := Transcript.calls walked.1.2
    (walk s notify tree target).run.run x = (walked.1.1, walked.2) ∧
      (∃ first, first <+: Resource.outlineAll 0 none tree ∧
        List.Forall₂ (DepositsAt target calls) first calls) ∧
      ∀ w, walked.1.1 = .ok w →
        Covers tree calls w ∧
          let nodes := (w.visited tree).filter (·.subject.isRdf)
          let edited := ((remapNodes s.noted (noteEvent notify) w.uris nodes
            ⟨w.deposits, w.descriptions, 0, 0⟩).run.run []).run walked.2
          let edits := Transcript.calls edited.1.2
          (walkAndRemap s notify tree target).run.run x = (edited.1.1, edited.2) ∧
            EditCalls w.uris nodes edits ∧
            fetchedUris edits <+: nodes.map (·.uri) ∧
            ∀ report, edited.1.1 = .ok report →
              fetchedUris edits = nodes.map (·.uri) ∧
                report.deposited = w.deposits ∧ report.descriptions = w.descriptions ∧
                report.remapped = (acceptedPatches edits).length ∧
                report.remapped + report.unchanged = nodes.length := by
  have walking : Notes s notify (walk s.noted (noteEvent notify) tree target)
    (walk s notify tree target) (WalkTranscript (tree.map (·, target)) Walked.nothing) :=
    notes_walk tree target
  obtain ⟨t, result, y, hn, hp, -, walks⟩ := walking [] x
  have hn : ((walk s.noted (noteEvent notify) tree target).run.run []).run x =
    ((result, t), y) := hn
  simp only [hn]
  refine ⟨hp, deposits_of_walk walks, ?_⟩
  rintro w rfl
  refine ⟨covers_of_walk walks, ?_⟩
  have remapping (nodes : List Visited) (before : Report) :
      Notes s notify (remapNodes s.noted (noteEvent notify) w.uris nodes before)
        (remapNodes s notify w.uris nodes before) (RemapTranscript w.uris nodes before) :=
    notes_remapNodes w.uris nodes before
  obtain ⟨u, remapped, z, hn', hp', -, remaps⟩ := remapping
    ((w.visited tree).filter (·.subject.isRdf)) ⟨w.deposits, w.descriptions, 0, 0⟩ [] y
  have hn' : ((remapNodes s.noted (noteEvent notify) w.uris
      ((w.visited tree).filter (·.subject.isRdf))
      ⟨w.deposits, w.descriptions, 0, 0⟩).run.run []).run y = ((remapped, u), z) := hn'
  simp only [hn']
  refine ⟨?_, editCalls_of_remap remaps, fetchedUris_of_remap remaps, ?_⟩
  · unfold walkAndRemap
    rw [ExceptT.run_bind, StateT.run_bind, hp]
    exact hp'
  · rintro report rfl
    obtain ⟨fetched, deposits, descriptions, patched, all⟩ := report_of_remap remaps
    refine ⟨fetched, deposits, descriptions, ?_, ?_⟩
    · rw [patched]
      exact Nat.zero_add _
    · rw [all]
      exact Nat.zero_add _

end LinkedDeposit
