import Mathlib.Data.List.Nodup
import Mathlib.Data.List.Pairwise
import LinkedDeposit.Proofs.Deposit.InMemory
import LinkedDeposit.Proofs.Repository.Schedule

/-!
# What a deposit leaves in a repository

If a deposit succeeds on a repository in memory, the package stands below its target as it was meant
(`Stands`): at the URI of each node its own graph, with every link rewritten, and the statements
about its children; binaries with their bytes; and nothing else has changed but the target's
children.

Results:
* `prepared_of_run`: before the commit everything is staged (`Prepared`).
* `Prepared.stands`: then the commit leaves the package as it was meant.
* `deposit_stands`: so does a deposit that succeeds.
-/

namespace LinkedDeposit

open Resource (allPlacements localIds)

/-- What fresh names promise for some placements of a package: no URI is given out twice, nothing is
committed there, and none is a local id. -/
structure FreshPlacements (r : Repository) (tree : List Resource) (ps : List Placement) : Prop where
  distinct : (ps.flatMap Placement.uris).Nodup
  new : ∀ uri ∈ ps.flatMap Placement.uris, r.get? uri = none
  foreign : ∀ uri ∈ ps.flatMap Placement.uris, uri ∉ localIds tree

instance (r : Repository) (tree : List Resource) (ps : List Placement) :
    Decidable (FreshPlacements r tree ps) :=
  decidable_of_iff ((ps.flatMap Placement.uris).Nodup ∧
      (∀ uri ∈ ps.flatMap Placement.uris, r.get? uri = none) ∧
      ∀ uri ∈ ps.flatMap Placement.uris, uri ∉ localIds tree)
    ⟨fun h => ⟨h.1, h.2.1, h.2.2⟩, fun h => ⟨h.distinct, h.new, h.foreign⟩⟩

/-- A package stands below a target, at some placements, and nothing else has changed. -/
structure Stands (files : Files) (tree : List Resource) (target : String) (ps : List Placement)
    (before after : Repository) : Prop where
  /-- Every node has its place. -/
  complete : (ps.flatMap Placement.visited).map (·.subject) = Resource.allSubjects tree
  /-- The local ids are those of its nodes. -/
  known : ∀ id uri, (Placement.uriMap ps).get? id = some uri ↔
    ∃ v ∈ ps.flatMap Placement.visited, v.subject.id = id ∧ v.uri = uri
  kinds : ∀ p ∈ ps, after.kind? p.uri = some p.resource.kind
  /-- Graphs are rewritten, and containers hold their children. -/
  graphs : ∀ p ∈ ps, ∀ g, p.resource.graph? = some g → after.graph? p.uri =
    some ((g.rewrite (Placement.uriMap ps) p.uri).union
      (childStatements (Placement.uriMap ps) p.uri p.resource.children))
  descriptions : ∀ p ∈ ps, ∀ d, p.resource.description? = some d →
    after.graph? (Transaction.descriptionUri p.uri) =
      some (d.graph.rewrite (Placement.uriMap ps) (Transaction.descriptionUri p.uri))
  binaries : ∀ p ∈ ps, ∀ b, p.resource.binary? = some b → ∃ bytes,
    b.content.read files = .ok bytes ∧ after.binary? p.uri = some ⟨b.mediaType, bytes⟩
  /-- The target holds the roots. -/
  roots : ∀ old, before.get? target = some old → ∃ new, after.get? target = some new ∧
    old.Becomes new ∧
      new.graph = old.graph.union (childStatements (Placement.uriMap ps) target tree)
  elsewhere : ∀ uri, uri ≠ target → uri ∉ ps.flatMap Placement.uris →
    after.get? uri = before.get? uri

/-! ## Before the commit -/

/-- What a session has staged when the work of a deposit is done: `deposited` is what was staged
after the walk. -/
structure Prepared (files : Files) (tree : List Resource) (target : String) (ps : List Placement)
    (deposited : Table String Stored) (t : Transaction) : Prop where
  walks : Walks (tree.map (·, target)) ps []
  placed : ∀ p ∈ ps, p.IsPlaced
  known : ∀ id uri, (Placement.uriMap ps).get? id = some uri ↔
    ∃ v ∈ ps.flatMap Placement.visited, v.subject.id = id ∧ v.uri = uri
  contained : t.contained = ps.map fun p => (p.parent, p.uri)
  stored : ∀ p ∈ ps, ∃ new, p.resource.stored files p.uri = .ok new ∧
    ∀ uri ∈ p.uris, deposited.get? uri = new.get? uri
  remapped : ∀ v ∈ ps.flatMap Placement.visited, v.subject.isRdf = true →
    ∀ staged, deposited.get? v.uri = some staged →
      ∃ remapped, t.staged.get? v.uri = some remapped ∧ remapped.kind = staged.kind ∧
        (t.shown v.uri remapped).graph =
          ((t.shown v.uri staged).graph.remap (Placement.uriMap ps)).union
            (Repository.containments v.uri t.contained)
  untouched : ∀ uri, (∀ v ∈ ps.flatMap Placement.visited, v.subject.isRdf = true → v.uri ≠ uri) →
    t.staged.get? uri = deposited.get? uri
  outside : ∀ uri, uri ∉ ps.flatMap Placement.uris → deposited.get? uri = none

/-- The calls of a deposit that succeeds: every node is placed, every node with a graph relinked, and
the work committed. -/
theorem answers_of_run {τ : Type} {host : Host} {name : String} {observe : Event → τ → τ}
    {tree : List Resource} {target : String} {w : Workspace} {x : τ} {report : Report}
    {y : Workspace × τ}
    (done : (depositTree ((Workspace.session host name).beside τ) (watching observe) tree
      target).run (w, x) = (.ok report, y)) :
    ∃ (ps : List Placement) (ls : List Relink) (walked : Walked),
      Walks (tree.map (·, target)) ps [] ∧ Gains Walked.nothing ps walked ∧
      ls.map (·.node) = (ps.flatMap Placement.visited).filter (·.subject.isRdf) ∧
      Answers (Workspace.session host name) w (ps.map Placement.call ++
        Transcript.calls (ls.flatMap (Relink.lines walked.uris)) ++ [(.commit, .ok .done)]) y.1 := by
  have follows : Notes ((Workspace.session host name).beside τ) (watching observe)
      (ExceptT.mk (depositTree _ _ tree target)) (ExceptT.mk (depositTree _ _ tree target))
      (DepositTranscript tree target) := notes_depositTree tree target
  obtain ⟨t, result, y', -, hp, plays, work, worked, finish, rfl, hwork, hfinish⟩ :=
    follows [] (w, x)
  obtain ⟨rfl, rfl⟩ := Prod.mk.inj (hp.symm.trans done)
  have answers := answers_of_plays plays
  cases hfinish with
  | committed report =>
  rcases hwork with ⟨e, he, -⟩ | ⟨walked, _, _, rfl, ⟨ps, walks, rfl, gains⟩, ls, nodes, rfl, -⟩
  · cases he
  rw [gains.visited_eq walks] at nodes
  rw [Transcript.calls_append, Transcript.calls_append, calls_placements] at answers
  exact ⟨ps, ls, walked, walks, gains, nodes, answers⟩

/-- A deposit that succeeds found its target committed, if there was anything to deposit. -/
theorem committed_of_run {τ : Type} {host : Host} {name : String} {observe : Event → τ → τ}
    {tree : List Resource} {target : String} {w : Workspace} {x : τ} {report : Report}
    {y : Workspace × τ} (opened : w.transaction name = Transaction.idle) (proper : tree ≠ [])
    (done : (depositTree ((Workspace.session host name).beside τ) (watching observe) tree
      target).run (w, x) = (.ok report, y)) : (w.repository.get? target).isSome = true := by
  obtain ⟨ps, ls, walked, walks, -, -, answers⟩ := answers_of_run done
  cases tree with
  | nil => exact absurd rfl proper
  | cons root rest =>
    cases ps with
    | nil => exact absurd walks (by simp [Walks])
    | cons p ps =>
      obtain ⟨resource, parent, answer⟩ := p
      obtain ⟨-, rfl : parent = target, -⟩ := walks
      change Answers _ w ((.deposit resource parent, .ok (.deposited answer)) :: _) y.1 at answers
      obtain ⟨r, t, performed, -⟩ := Workspace.performs_of_answers answers
      cases performed with
      | placed _ _ container new unfinished seen isContainer stored =>
        obtain ⟨found, hf, -⟩ := Transaction.found_of_lookup seen
        rw [opened] at hf
        exact Option.isSome_iff_exists.mpr ⟨found, hf⟩

/-- **A deposit that succeeds has staged everything before it commits.** -/
theorem prepared_of_run {τ : Type} {host : Host} {name : String} {observe : Event → τ → τ}
    {tree : List Resource} {target : String} {w : Workspace} {x : τ} {report : Report}
    (opened : w.transaction name = Transaction.idle)
    (distinct : ((allPlacements host w.deposits target tree).flatMap Placement.uris).Nodup)
    {y : Workspace × τ}
    (done : (depositTree ((Workspace.session host name).beside τ) (watching observe) tree
      target).run (w, x) = (.ok report, y)) :
    ∃ deposited t, Prepared host.files tree target (allPlacements host w.deposits target tree)
      deposited t ∧ y.1.repository = t.merge w.repository := by
  obtain ⟨ps, ls, walked, walks, gains, nodes, answers⟩ := answers_of_run done
  obtain ⟨v₂, answers, commit⟩ := answers_append.mp answers
  obtain ⟨v₁, deposits, edits⟩ := answers_append.mp answers
  have places := Workspace.places_of_answers deposits
  have relinks := Workspace.relinks_of_answers edits
  obtain ⟨_, merged, rfl⟩ := Workspace.answers_commit commit
  obtain rfl : ps = allPlacements host w.deposits target tree := by
    have own := walks_allPlacements host w.deposits target tree []
    rw [List.append_nil] at own
    exact Minted.unique walks own places.minted (minted_allPlacements ..)
  have placed := places.minted.isPlaced
  refine ⟨(v₁.transaction name).staged, v₂.transaction name, ⟨walks, placed, ?_, ?_,
    places.staged distinct, ?_, ?_, ?_⟩, ?_⟩
  · intro id uri
    rw [← gains.uris_eq, get?_recordAll gains.recorded]
    simp [Walked.nothing]
  · rw [relinks.contained, places.contained, opened]
    rfl
  · intro v hv rdf staged hs
    have : v ∈ ls.map (·.node) := by
      rw [nodes]
      exact List.mem_filter.mpr ⟨hv, rdf⟩
    obtain ⟨l, hl, rfl⟩ := List.mem_map.mp this
    have once : (ls.map (·.node.uri)).Nodup := by
      have : ls.map (·.node.uri) = (ls.map (·.node)).map (·.uri) := by rw [List.map_map]; rfl
      rw [this, nodes]
      rw [← map_uri_visited placed] at distinct
      exact distinct.sublist (List.filter_sublist.map _)
    have remapped := relinks.relinked once l hl staged hs
    unfold Transaction.shown at remapped ⊢
    rwa [relinks.contained, ← gains.uris_eq]
  · intro uri hu
    refine relinks.frame uri fun hm => ?_
    obtain ⟨l, hl, rfl⟩ := List.mem_map.mp hm
    have : l.node ∈ ls.map (·.node) := List.mem_map.mpr ⟨l, hl, rfl⟩
    rw [nodes] at this
    obtain ⟨hv, rdf⟩ := List.mem_filter.mp this
    exact hu l.node hv rdf rfl
  · intro uri hu
    rw [places.frame uri hu, opened]
    rfl
  · rw [merged, relinks.repository, places.repository]

/-! ## After the commit -/

section Prepared

variable {files : Files} {r : Repository} {tree : List Resource} {target : String}
  {ps : List Placement} {deposited : Table String Stored} {t : Transaction}

/-- Placements at one URI are the same. -/
theorem FreshPlacements.eq_of_uri (fresh : FreshPlacements r tree ps) {p q : Placement}
    (hp : p ∈ ps) (hq : q ∈ ps) {uri : String} (hpu : uri ∈ p.uris) (hqu : uri ∈ q.uris) :
    p = q := by
  by_contra hne
  have : Std.Symm fun p q : Placement => List.Disjoint p.uris q.uris :=
    ⟨fun _ _ h _ hq hp => h hp hq⟩
  exact (List.nodup_flatMap.mp fresh.distinct).2.forall hp hq hne hpu hqu

theorem Prepared.subjects (h : Prepared files tree target ps deposited t) :
    (ps.flatMap Placement.visited).map (·.subject) = Resource.allSubjects tree :=
  h.walks.subjects_of_whole fun p hp => (h.placed p hp).isComplete

/-- A URI that was given out is no local id. -/
theorem Prepared.foreign (h : Prepared files tree target ps deposited t)
    (fresh : FreshPlacements r tree ps) {uri : String} (hu : uri ∈ ps.flatMap Placement.uris) :
    (Placement.uriMap ps).get? uri = none := by
  refine Option.eq_none_iff_forall_ne_some.mpr fun place hplace => ?_
  obtain ⟨v, hv, rfl, -⟩ := (h.known _ _).mp hplace
  refine fresh.foreign _ hu ?_
  rw [localIds, ← h.subjects, List.map_map]
  exact List.mem_map.mpr ⟨v, hv, rfl⟩

theorem Prepared.recorded (h : Prepared files tree target ps deposited t) :
    ∀ q ∈ ps, (Placement.uriMap ps).get? q.resource.id = some q.uri := by
  intro q hq
  refine (h.known _ _).mpr ⟨⟨q.resource.subject, q.uri⟩, ?_, rfl, rfl⟩
  exact List.mem_flatMap.mpr ⟨q, hq, List.mem_cons_self⟩

/-- A root is below the target, and everything else below what was placed. -/
theorem Prepared.parent_cases (h : Prepared files tree target ps deposited t) {q : Placement}
    (hq : q ∈ ps) : (q.parent = target ∧ q.resource ∈ tree) ∨
      ∃ p ∈ ps, q.parent = p.uri ∧ q.resource ∈ p.resource.children := by
  rcases h.walks.mem hq with hm | ⟨p, hp, hm⟩
  · obtain ⟨root, hr, he⟩ := List.mem_map.mp hm
    cases he
    exact .inl ⟨rfl, hr⟩
  · obtain ⟨child, hc, he⟩ := List.mem_map.mp hm
    obtain ⟨rfl, hparent⟩ := Prod.mk.inj he
    exact .inr ⟨p, hp, hparent.symm, hc⟩

/-- Nothing new stands at the target. -/
theorem FreshPlacements.ne_target (fresh : FreshPlacements r tree ps)
    (committed : (r.get? target).isSome = true) {p : Placement} (hp : p ∈ ps) {uri : String}
    (hu : uri ∈ p.uris) : target ≠ uri := by
  rintro rfl
  rw [fresh.new target (List.mem_flatMap.mpr ⟨p, hp, hu⟩)] at committed
  cases committed

/-- Below a resource stand its children. -/
theorem Prepared.children_of_placement (h : Prepared files tree target ps deposited t)
    (fresh : FreshPlacements r tree ps) (committed : (r.get? target).isSome = true)
    {p : Placement} (hp : p ∈ ps) :
    Repository.containments p.uri t.contained =
      childStatements (Placement.uriMap ps) p.uri p.resource.children := by
  rw [h.contained]
  refine containments_placements h.recorded (fun q hq hparent => ?_) fun child hc => ?_
  · rcases h.parent_cases hq with ⟨ht, -⟩ | ⟨p', hp', hp'uri, hc⟩
    · exact absurd (ht.symm.trans hparent) (fresh.ne_target committed hp p.uri_mem)
    · have := fresh.eq_of_uri hp hp' p.uri_mem (hparent.symm.trans hp'uri ▸ p'.uri_mem)
      rwa [this]
  · exact h.walks.exists_of_pending (.inr ⟨p, hp, List.mem_map.mpr ⟨child, hc, rfl⟩⟩)

/-- Below a description stands nothing. -/
theorem Prepared.children_of_description (h : Prepared files tree target ps deposited t)
    (fresh : FreshPlacements r tree ps) (committed : (r.get? target).isSome = true)
    {p : Placement} (hp : p ∈ ps) {uri : String} (hu : uri ∈ p.uris) (hne : uri ≠ p.uri) :
    Repository.containments uri t.contained = Graph.empty := by
  have childless : Graph.empty = childStatements (Placement.uriMap ps) uri [] := rfl
  rw [h.contained, childless]
  refine containments_placements h.recorded (fun q hq hparent => ?_) fun child hc => nomatch hc
  rcases h.parent_cases hq with ⟨ht, -⟩ | ⟨p', hp', hp'uri, hc⟩
  · exact absurd (ht.symm.trans hparent) (fresh.ne_target committed hp hu)
  · have same := hparent.symm.trans hp'uri
    have := fresh.eq_of_uri hp hp' hu (same ▸ p'.uri_mem)
    exact absurd (same.trans (this ▸ rfl)) hne

/-- Below the target stand the roots. -/
theorem Prepared.children_of_target (h : Prepared files tree target ps deposited t)
    (fresh : FreshPlacements r tree ps) (committed : (r.get? target).isSome = true) :
    Repository.containments target t.contained =
      childStatements (Placement.uriMap ps) target tree := by
  rw [h.contained]
  refine containments_placements h.recorded (fun q hq hparent => ?_) fun root hr => ?_
  · rcases h.parent_cases hq with ⟨-, hr⟩ | ⟨p, hp, hpuri, -⟩
    · exact hr
    · exact absurd (hparent.symm.trans hpuri) (fresh.ne_target committed hp p.uri_mem)
  · exact h.walks.exists_of_pending (.inl (List.mem_map.mpr ⟨root, hr, rfl⟩))

theorem Prepared.uri_mem (h : Prepared files tree target ps deposited t) {v : Visited}
    (hv : v ∈ ps.flatMap Placement.visited) : v.uri ∈ ps.flatMap Placement.uris := by
  rw [← map_uri_visited h.placed]
  exact List.mem_map.mpr ⟨v, hv, rfl⟩

/-- A node with a graph ends up with its graph rewritten. -/
theorem Prepared.rewritten (h : Prepared files tree target ps deposited t)
    (fresh : FreshPlacements r tree ps)
    (plain : ∀ uri ∈ ps.flatMap Placement.uris, '#' ∉ uri.toList ∧ uri ≠ "")
    {v : Visited} (hv : v ∈ ps.flatMap Placement.visited) (rdf : v.subject.isRdf = true)
    {kind : ResourceKind} {g : Graph}
    (hs : deposited.get? v.uri =
      some (.ofGraph kind (Transaction.ingest v.subject.id v.uri g))) :
    ∃ stored, (t.merge r).get? v.uri = some stored ∧ stored.kind = kind ∧
      stored.graph = (g.rewrite (Placement.uriMap ps) v.uri).union
        (Repository.containments v.uri t.contained) := by
  obtain ⟨remapped, hr, hk, hg⟩ := h.remapped v hv rdf _ hs
  have hu := h.uri_mem hv
  have own := (h.known v.subject.id v.uri).mpr ⟨v, hv, rfl, rfl⟩
  have children : (Repository.containments v.uri t.contained).remap (Placement.uriMap ps) =
      Repository.containments v.uri t.contained := by
    refine remap_containments ⟨(plain _ hu).1, h.foreign fresh hu⟩ fun child hc => ?_
    rw [h.contained] at hc
    obtain ⟨q, hq, he⟩ := List.mem_map.mp hc
    have : child ∈ ps.flatMap Placement.uris :=
      List.mem_flatMap.mpr ⟨q, hq, (Prod.mk.inj he).2 ▸ q.uri_mem⟩
    exact ⟨(plain _ this).1, h.foreign fresh this⟩
  refine ⟨remapped.containAll v.uri t.contained, ?_, ?_, ?_⟩
  · rw [Transaction.get?_merge, hr]
    rfl
  · rw [(remapped.becomes_containAll v.uri t.contained).kind, hk]
    rfl
  · calc (remapped.containAll v.uri t.contained).graph
        = (t.shown v.uri remapped).graph := Stored.graph_containAll ..
      _ = (((Transaction.ingest v.subject.id v.uri g).union
            (Repository.containments v.uri t.contained)).remap (Placement.uriMap ps)).union
            (Repository.containments v.uri t.contained) := hg
      _ = (g.rewrite (Placement.uriMap ps) v.uri).union
            (Repository.containments v.uri t.contained) := by
          rw [Graph.remap, Graph.mapTerms_union, ← Graph.remap, ← Graph.remap, children,
            Graph.remap_ingest (plain _ hu).1 (plain _ hu).2 own (h.foreign fresh hu),
            Graph.union_union_self]

/-- A resource with a graph ends up with its graph and its children. -/
theorem Prepared.graph (h : Prepared files tree target ps deposited t)
    (fresh : FreshPlacements r tree ps) (committed : (r.get? target).isSome = true)
    (plain : ∀ uri ∈ ps.flatMap Placement.uris, '#' ∉ uri.toList ∧ uri ≠ "")
    {p : Placement} (hp : p ∈ ps) {g : Graph} (hg : p.resource.graph? = some g) :
    ∃ stored, (t.merge r).get? p.uri = some stored ∧ stored.kind = p.resource.kind ∧
      stored.graph = (g.rewrite (Placement.uriMap ps) p.uri).union
        (childStatements (Placement.uriMap ps) p.uri p.resource.children) := by
  obtain ⟨new, hnew, hd⟩ := h.stored p hp
  have hs := (hd p.uri p.uri_mem).trans (Resource.get?_stored_graph hnew hg)
  rw [← h.children_of_placement fresh committed hp]
  have hv : ⟨p.resource.subject, p.uri⟩ ∈ ps.flatMap Placement.visited :=
    List.mem_flatMap.mpr ⟨p, hp, List.mem_cons_self⟩
  exact h.rewritten fresh plain hv (Resource.isRdf_of_graph? hg) hs

theorem Prepared.description (h : Prepared files tree target ps deposited t)
    (fresh : FreshPlacements r tree ps) (committed : (r.get? target).isSome = true)
    (plain : ∀ uri ∈ ps.flatMap Placement.uris, '#' ∉ uri.toList ∧ uri ≠ "")
    {p : Placement} (hp : p ∈ ps) {d : Description} (hd : p.resource.description? = some d) :
    (t.merge r).graph? (Transaction.descriptionUri p.uri) =
      some (d.graph.rewrite (Placement.uriMap ps) (Transaction.descriptionUri p.uri)) := by
  obtain ⟨new, hnew, hdep⟩ := h.stored p hp
  have hv : (⟨d.subject, Transaction.descriptionUri p.uri⟩ : Visited) ∈ p.visited := by
    rw [(h.placed p hp).visited_eq, hd]
    exact List.mem_cons_of_mem _ List.mem_cons_self
  have hu : Transaction.descriptionUri p.uri ∈ p.uris := by
    rw [← (h.placed p hp).map_uri_visited]
    exact List.mem_map.mpr ⟨_, hv, rfl⟩
  have hs := (hdep _ hu).trans (Resource.get?_stored_description hnew hd)
  obtain ⟨stored, hst, hk, hg⟩ :=
    h.rewritten fresh plain (List.mem_flatMap.mpr ⟨p, hp, hv⟩) rfl hs
  rw [h.children_of_description fresh committed hp hu (Transaction.descriptionUri_ne _),
    Graph.union_empty] at hg
  rw [Repository.graph?_eq_some hst (by rw [hk]; decide), hg]

/-- A binary stays as it was staged. -/
theorem Prepared.binary (h : Prepared files tree target ps deposited t)
    (fresh : FreshPlacements r tree ps) {p : Placement} (hp : p ∈ ps) {b : Binary}
    (hb : p.resource.binary? = some b) : ∃ bytes stored,
      b.content.read files = .ok bytes ∧ (t.merge r).get? p.uri = some stored ∧
        stored.kind = p.resource.kind ∧ stored.binary = some ⟨b.mediaType, bytes⟩ := by
  obtain ⟨new, hnew, hd⟩ := h.stored p hp
  obtain ⟨bytes, hread, hs⟩ := Resource.get?_stored_binary hnew hb
  have distinct := fresh.distinct
  rw [← map_uri_visited h.placed] at distinct
  have still : t.staged.get? p.uri = some (.ofBinary b.mediaType bytes) := by
    rw [h.untouched p.uri fun v hv rdf he => ?_, hd p.uri p.uri_mem, hs]
    have own : ⟨p.resource.subject, p.uri⟩ ∈ ps.flatMap Placement.visited :=
      List.mem_flatMap.mpr ⟨p, hp, List.mem_cons_self⟩
    rw [List.inj_on_of_nodup_map distinct hv own he, Subject.isRdf, Resource.subject,
      Resource.kind_of_binary? hb] at rdf
    cases rdf
  have kept := (Stored.ofBinary b.mediaType bytes).becomes_containAll p.uri t.contained
  refine ⟨bytes, _, hread, ?_, ?_, kept.binary⟩
  · rw [Transaction.get?_merge, still]
    rfl
  · rw [kept.kind, Resource.kind_of_binary? hb]
    rfl

/-- Nothing is staged beside the package. -/
theorem Prepared.not_staged (h : Prepared files tree target ps deposited t) {uri : String}
    (hu : uri ∉ ps.flatMap Placement.uris) : t.staged.get? uri = none := by
  rw [h.untouched uri fun v hv _ he => hu (he ▸ h.uri_mem hv), h.outside uri hu]

/-- **The commit leaves the package as it was meant.** -/
theorem Prepared.stands (h : Prepared files tree target ps deposited t)
    (fresh : FreshPlacements r tree ps) (committed : (r.get? target).isSome = true)
    (plain : ∀ uri ∈ ps.flatMap Placement.uris, '#' ∉ uri.toList ∧ uri ≠ "") :
    Stands files tree target ps r (t.merge r) where
  complete := h.subjects
  known := h.known
  kinds p hp := by
    rcases p.resource.graph?_or_binary? with ⟨g, hg⟩ | ⟨b, hb⟩
    · obtain ⟨stored, hs, hk, -⟩ := h.graph fresh committed plain hp hg
      rw [Repository.kind?, hs, ← hk]
      rfl
    · obtain ⟨-, stored, -, hs, hk, -⟩ := h.binary fresh hp hb
      rw [Repository.kind?, hs, ← hk]
      rfl
  graphs p hp g hg := by
    obtain ⟨stored, hs, hk, hgraph⟩ := h.graph fresh committed plain hp hg
    rw [Repository.graph?_eq_some hs (hk ▸ Resource.kind_of_graph? hg), hgraph]
  descriptions p hp d hd := h.description fresh committed plain hp hd
  binaries p hp b hb := by
    obtain ⟨bytes, stored, hread, hs, -, hbin⟩ := h.binary fresh hp hb
    refine ⟨bytes, hread, ?_⟩
    rw [Repository.binary?, hs, ← hbin]
    rfl
  roots old hold := by
    have new : target ∉ ps.flatMap Placement.uris := fun hu => by
      rw [fresh.new target hu] at hold
      cases hold
    refine ⟨_, ?_, old.becomes_containAll target t.contained, ?_⟩
    · rw [Transaction.get?_merge, h.not_staged new, hold]
      rfl
    · rw [Stored.graph_containAll, h.children_of_target fresh committed]
  elsewhere uri hne hu := by
    have childless : ∀ c ∈ t.contained, c.1 ≠ uri := by
      rw [h.contained]
      rintro c hc rfl
      obtain ⟨q, hq, rfl⟩ := List.mem_map.mp hc
      rcases h.parent_cases hq with ⟨ht, -⟩ | ⟨p, hp, hpuri, -⟩
      · exact hne ht
      · exact hu (List.mem_flatMap.mpr ⟨p, hp, hpuri ▸ p.uri_mem⟩)
    have same : Stored.containAll uri t.contained = id :=
      funext fun stored => stored.containAll_of_forall_ne childless
    rw [Transaction.get?_merge, h.not_staged hu, Option.none_or, same, Option.map_id, id]

end Prepared

/-- **A deposit that succeeds leaves its package linked.** On a repository in memory, whatever
package is deposited below a committed resource without fragment, and whatever other sessions have
open: every graph is rewritten, every container holds its children and every binary its bytes, the
target holds the roots, and nothing else has changed. -/
theorem deposit_stands {τ : Type} (host : Host) (name : String) (observe : Event → τ → τ)
    (tree : List Resource) (target : String) (w : Workspace) (x : τ) (report : Report)
    (y : Workspace × τ)
    (opened : w.transaction name = Transaction.idle)
    (committed : (w.repository.get? target).isSome = true)
    (plain : '#' ∉ target.toList) (names : ∀ count, '#' ∉ (host.freshName count).toList)
    (fresh : FreshPlacements w.repository tree (allPlacements host w.deposits target tree))
    (done : (depositTree ((Workspace.session host name).beside τ) (watching observe) tree
      target).run (w, x) = (.ok report, y)) :
    Stands host.files tree target (allPlacements host w.deposits target tree) w.repository
      y.1.repository := by
  obtain ⟨deposited, t, prepared, merged⟩ := prepared_of_run opened fresh.distinct done
  have minted := minted_allPlacements host w.deposits target tree
  have below : ∀ pending ∈ tree.map (·, target), '#' ∉ pending.2.toList := by
    intro pending hp
    obtain ⟨_, -, rfl⟩ := List.mem_map.mp hp
    exact plain
  rw [merged]
  refine prepared.stands fresh committed fun uri hu => ?_
  obtain ⟨p, hp, hu⟩ := List.mem_flatMap.mp hu
  exact minted.plain names prepared.walks below p hp uri hu

/-- A container that links to what stands in it and to its fragments, and holds a source that links
back and a described binary. -/
def linkedPackage : List Resource :=
  [.container "c"
    (Graph.ofList [⟨.iri "c#me", "made", .iri "s#part"⟩, ⟨.blank "b", "made", .iri ""⟩])
    [.rdfSource "s" (Graph.ofList [⟨.iri "#part", "partOf", .iri "c"⟩]),
      .binary "i" ⟨"image/png", .bytes [1, 2]⟩
        (some ⟨"d", Graph.ofList [⟨.iri "d", "describes", .iri "i"⟩]⟩)]]

theorem deposit_stands_linkedPackage :
    let ps := allPlacements .numbering 0 "r" linkedPackage
    FreshPlacements (Repository.root "r") linkedPackage ps ∧
      ∃ y : Workspace × List Event,
        (depositTree ((Workspace.session .numbering "a").beside (List Event))
          (watching List.cons) linkedPackage "r").run (Workspace.new "r", []) =
            (.ok ⟨3, 1, 3, 0⟩, y) ∧
        Stands Host.numbering.files linkedPackage "r" ps (Repository.root "r") y.1.repository ∧
        y.1.repository.graph? "r/1" = some (Graph.ofList
          [⟨.iri "r/1#me", "made", .iri "r/1/2#part"⟩,
            ⟨.iri ("r/1" ++ skolemFragment "b"), "made", .iri "r/1"⟩,
            Repository.containment "r/1" "r/1/2", Repository.containment "r/1" "r/1/3"]) := by
  have fresh : FreshPlacements (Repository.root "r") linkedPackage
      (allPlacements .numbering 0 "r" linkedPackage) := by decide +kernel
  have pair {α β : Type} (p : α × β) (a : α) (h : p.1 = a) : ∃ y, p = (a, y) :=
    ⟨p.2, Prod.ext h rfl⟩
  obtain ⟨y, done⟩ := pair ((depositTree ((Workspace.session .numbering "a").beside (List Event))
    (watching List.cons) linkedPackage "r").run (Workspace.new "r", [])) (.ok ⟨3, 1, 3, 0⟩)
      (by decide +kernel)
  have stands := deposit_stands .numbering "a" List.cons linkedPackage "r" (Workspace.new "r") []
    ⟨3, 1, 3, 0⟩ y rfl (by decide +kernel) (by decide +kernel) Host.freshName_numbering fresh done
  exact ⟨fresh, y, done, stands,
    (stands.graphs _ List.mem_cons_self _ rfl).trans (by decide +kernel)⟩

end LinkedDeposit
