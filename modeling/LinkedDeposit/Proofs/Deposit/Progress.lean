import LinkedDeposit.Proofs.Deposit.Coverage
import LinkedDeposit.Proofs.Deposit.Fresh
import LinkedDeposit.Proofs.Deposit.InMemory
import LinkedDeposit.Proofs.Package.Distinct

/-!
# A deposit in memory does not fail

A package whose ids are distinct and whose binaries can be read goes through on a repository in
memory, if fresh names keep its URIs apart. The transcript of a deposit lists all the ways in which
it can go wrong; here each of them is ruled out, by what the session's transaction holds at the call
where it would happen.

Results:
* `not_stumbles`: no deposit goes wrong, since every parent is a container that was staged before.
* `not_misses`: no fetch or patch goes wrong, since every graph was staged (`Transaction.Serves`).
* `not_refuses`: the commit meets no conflict, since nothing that was committed was patched.
* `plan_succeeds`: so a package that loads can always be planned.
-/

namespace LinkedDeposit

open Resource (allPlacements localIds allPaths)

/-! ## Binaries that can be read -/

namespace Resource

theorem allPaths_append (l k : List Resource) : allPaths (l ++ k) = allPaths l ++ allPaths k := by
  induction l with
  | nil => rfl
  | cons r l ih => rw [List.cons_append, allPaths, allPaths, ih, List.append_assoc]

/-- The files of what is below a resource are files of the resource. -/
theorem allPaths_children (r : Resource) : allPaths r.children ⊆ r.paths := by
  cases r with
  | container id g children => exact List.Subset.refl _
  | rdfSource id g => exact List.nil_subset _
  | binary id b description => exact List.nil_subset _

/-- A resource can be stored if its binary can be read. -/
theorem exists_stored {files : Files} {r : Resource}
    (readable : ∀ path ∈ r.paths, ∃ bytes, files path = .file bytes) (uri : String) :
    ∃ new, r.stored files uri = .ok new := by
  cases r with
  | container id g children => exact ⟨_, rfl⟩
  | rdfSource id g => exact ⟨_, rfl⟩
  | binary id b description =>
    have read : ∃ bytes, b.content.read files = .ok bytes := by
      cases hc : b.content with
      | bytes bytes => exact ⟨bytes, rfl⟩
      | file path =>
        obtain ⟨bytes, hbytes⟩ := readable path (by simp [paths, hc])
        refine ⟨bytes, ?_⟩
        simp [Content.read, Content.open?, Content.view, hbytes, bind, Except.bind, FileView.read]
    obtain ⟨bytes, hbytes⟩ := read
    simp only [stored, hbytes]
    cases description with
    | none => exact ⟨_, rfl⟩
    | some d => exact ⟨_, rfl⟩

end Resource

/-- A walk comes to no files that were not there before. -/
theorem Walks.allPaths_subset {pending left : List (Resource × String)} {ps : List Placement}
    (h : Walks pending ps left) :
    allPaths (left.map (·.1)) ⊆ allPaths (pending.map (·.1)) := by
  induction ps generalizing pending with
  | nil =>
    obtain rfl : pending = left := h
    exact List.Subset.refl _
  | cons p ps ih =>
    cases pending with
    | nil => exact absurd h (by simp [Walks])
    | cons first rest =>
      obtain ⟨hr, -, hrest⟩ := h
      have below : (p.below ++ rest).map (·.1) = p.resource.children ++ rest.map (·.1) := by
        simp [Placement.below, Function.comp_def]
      refine List.Subset.trans (ih hrest) ?_
      rw [below, Resource.allPaths_append, List.map_cons, allPaths, ← hr]
      intro path hm
      rcases List.mem_append.mp hm with hm | hm
      · exact List.mem_append_left _ (Resource.allPaths_children p.resource hm)
      · exact List.mem_append_right _ hm

/-! ## What the session holds -/

namespace Transaction

/-- The session is open, has patched nothing that was committed, and has staged a graph for each of
some nodes. -/
structure Serves (t : Transaction) (vs : List Visited) : Prop where
  unfinished : t.lifecycle.isFinished = false
  unbased : t.baseVersions = Table.empty
  staged : ∀ v ∈ vs, ∃ stored, t.staged.get? v.uri = some stored ∧ stored.kind ≠ .nonRdfSource

variable {t : Transaction} {vs : List Visited} {r : Repository}

theorem serves_idle : idle.Serves [] := ⟨rfl, rfl, by simp⟩

theorem Serves.request (h : t.Serves vs) : t.request.Serves vs := ⟨rfl, h.unbased, h.staged⟩

/-- What is patched was staged, so no committed version is noted. -/
theorem Serves.amend (h : t.Serves vs) {v : Visited} (hv : v ∈ vs) (p : Patch) {seen : Stored}
    (hl : t.lookup r v.uri = some seen) : (t.amend v.uri p seen).Serves vs := by
  obtain ⟨stored, hs, hk⟩ := h.staged v hv
  have known : t.staged.contains v.uri = true := by rw [Table.contains, hs]; rfl
  have same : seen = t.shown v.uri stored := by
    rw [lookup_eq, hs] at hl
    exact (Option.some.inj hl).symm
  refine ⟨rfl, ?_, fun u hu => ?_⟩
  · change (if t.staged.contains v.uri then t.baseVersions else _) = _
    rw [if_pos known, h.unbased]
  · rw [get?_staged_amend]
    split
    · refine ⟨_, rfl, ?_⟩
      rw [same]
      exact hk
    · exact h.staged u hu

/-- A session sees the graphs that it has staged. -/
theorem Serves.lookup (h : t.Serves vs) (r : Repository) {v : Visited} (hv : v ∈ vs) :
    ∃ seen, t.lookup r v.uri = some seen ∧ seen.kind ≠ .nonRdfSource := by
  obtain ⟨stored, hs, hk⟩ := h.staged v hv
  exact ⟨t.shown v.uri stored, by rw [lookup_eq, hs]; rfl, hk⟩

/-- A session that has patched nothing committed meets no conflict. -/
theorem Serves.agreed (h : t.Serves vs) (r : Repository) : t.conflict? r = none := by
  rw [conflict?_eq_none_iff, h.unbased]
  intro uri version hv
  cases hv

end Transaction

namespace Workspace

variable {host : Host} {name : String} {w w' : Workspace} {vs : List Visited}

/-- The first answer, and what the session holds then, are what the call on its transaction comes
to. -/
theorem performed_of_answers {c : SessionCall} {answer : Except DepositError SessionAnswer}
    {rest : List Answered} (h : Answers (session host name) w ((c, answer) :: rest) w') :
    let outcome := (w.transaction name).perform host.files (host.freshName (w.deposits + 1))
      w.repository c
    answer = outcome.1 ∧ ∃ u, u.repository = outcome.2.1 ∧ u.transaction name = outcome.2.2 ∧
      Answers (session host name) u rest w' := by
  obtain ⟨ha, hrest⟩ := h
  change (w.step host name c).1 = answer at ha
  change Answers _ (w.step host name c).2 rest w' at hrest
  rw [step_eq] at ha hrest
  exact ⟨ha.symm, _, rfl, transaction_after_self w name c _, hrest⟩

/-- Deposits keep the session open, and note no committed version. -/
theorem serves_of_places {ps : List Placement}
    (h : Answers (session host name) w (ps.map Placement.call) w')
    (serves : (w.transaction name).Serves []) : (w'.transaction name).Serves [] := by
  induction ps generalizing w with
  | nil =>
    obtain rfl : w = w' := h
    exact serves
  | cons p ps ih =>
    obtain ⟨new, -, -, rest⟩ := places_cons h
    refine ih rest ?_
    rw [transaction_deposited]
    exact ⟨rfl, serves.unbased, by simp⟩

/-! ## Deposits -/

/-- What a pending resource is to go below is a container that the session sees. -/
theorem exists_container {tree : List Resource} {target parent : String} {ps : List Placement}
    {r : Resource} {left : List (Resource × String)} (places : Places host name w ps w')
    (walks : Walks (tree.map (·, target)) ps ((r, parent) :: left))
    (opened : w.transaction name = Transaction.idle)
    (committed : w.repository.kind? target = some .container)
    (fresh : (target :: ps.flatMap Placement.uris).Nodup) :
    ∃ container, (w'.transaction name).lookup w'.repository parent = some container ∧
      container.kind = .container := by
  obtain ⟨apart, distinct⟩ := List.nodup_cons.mp fresh
  rw [Transaction.lookup_eq]
  rcases walks.mem_left List.mem_cons_self with hm | ⟨p, hp, hm⟩
  · -- a root goes below the target, which is committed and was not staged
    obtain ⟨_, -, he⟩ := List.mem_map.mp hm
    obtain rfl : target = parent := congrArg Prod.snd he
    obtain ⟨container, hc, hk⟩ := Option.map_eq_some_iff.mp committed
    rw [places.frame target apart, opened, places.repository]
    change ∃ c, ((Table.empty.get? target).or (w.repository.get? target)).map _ = some c ∧ _
    rw [Table.get?_empty, Option.none_or, hc]
    exact ⟨_, rfl, hk⟩
  · -- a child goes below a container that was placed before
    obtain ⟨r', hr', he⟩ := List.mem_map.mp hm
    obtain rfl : p.uri = parent := congrArg Prod.snd he
    obtain ⟨new, hnew, hstaged⟩ := places.staged distinct p hp
    have container : ∃ g, p.resource.graph? = some g ∧ p.resource.kind = .container := by
      cases hr : p.resource with
      | container id g children => exact ⟨g, rfl, rfl⟩
      | rdfSource id g => rw [hr] at hr'; cases hr'
      | binary id b description => rw [hr] at hr'; cases hr'
    obtain ⟨g, hg, hk⟩ := container
    rw [hstaged p.uri p.uri_mem, Resource.get?_stored_graph hnew hg]
    exact ⟨_, rfl, hk⟩

/-- **No deposit goes wrong.** -/
theorem not_stumbles {tree : List Resource} {target parent : String} {ps : List Placement}
    {r : Resource} {left : List (Resource × String)} {walked : Walked} {last : Transcript}
    {e : DepositError} {rest : List Answered} {v : Workspace}
    (opened : w.transaction name = Transaction.idle)
    (committed : w.repository.kind? target = some .container)
    (ids : (localIds tree).Nodup)
    (readable : ∀ path ∈ allPaths tree, ∃ bytes, host.files path = .file bytes)
    (fresh : (target :: ps.flatMap Placement.uris).Nodup)
    (walks : Walks (tree.map (·, target)) ps ((r, parent) :: left))
    (gains : Gains Walked.nothing ps walked) (stumbles : Stumbles walked r parent last e)
    (before : Answers (session host name) w (ps.map Placement.call) w')
    (after : Answers (session host name) w' (last.calls ++ rest) v) : False := by
  have places := places_of_answers before
  have open' := serves_of_places before (opened ▸ Transaction.serves_idle)
  obtain ⟨container, seen, isContainer⟩ := exists_container places walks opened committed fresh
  -- the session accepts the deposit
  have below : r.paths ⊆ allPaths tree := by
    have paths := walks.allPaths_subset
    rw [map_fst_roots] at paths
    exact fun path hp => paths (List.mem_append_left _ hp)
  obtain ⟨new, stored⟩ := Resource.exists_stored (fun path hp => readable path (below hp))
    (Transaction.childUri parent (host.freshName (w'.deposits + 1)))
  have accepted {answer : Except DepositError SessionAnswer} {more : List Answered}
      (h : Answers (session host name) w' ((.deposit r parent, answer) :: more) v) :
      answer = .ok (.deposited (r.placed
        (Transaction.childUri parent (host.freshName (w'.deposits + 1))))) := by
    rw [(performed_of_answers h).1,
      Transaction.perform_deposit open'.unfinished seen isContainer stored]
  -- and its ids are new
  have known : walked.uris.Holds ((ps.flatMap Placement.visited).map (·.subject.id)) :=
    holds_nothing.recordAll gains.recorded
  have listed : localIds tree = (ps.flatMap Placement.visited).map (·.subject.id) ++
      r.id :: (r.description?.toList.map (·.id) ++ localIds (r.children ++ left.map (·.1))) := by
    rw [localIds, walks.subjects gains.complete, List.map_cons, Resource.allSubjects,
      subjects_eq]
    simp [localIds, allSubjects_append, Resource.subject, Description.subject, Function.comp_def]
  rw [listed] at ids
  obtain ⟨-, own, apart⟩ := List.nodup_append.mp ids
  cases stumbles with
  | refused => cases accepted after
  | repeated d repeats => exact apart r.id ((known r.id).mp repeats) r.id List.mem_cons_self rfl
  | undescribed d description new described unnamed =>
    cases accepted after
    rw [Resource.placed, described] at unnamed
    cases unnamed
  | repeatedDescription d description uri new described named repeats =>
    rw [described, Option.toList_some, List.map_singleton] at own apart
    rcases repeats with same | repeats
    · refine (List.nodup_cons.mp own).1 ?_
      rw [← same]
      exact List.mem_cons_self
    · exact apart description.id ((known description.id).mp repeats) description.id
        (List.mem_cons_of_mem r.id List.mem_cons_self) rfl

/-! ## Fetches and patches -/

/-- After the deposits of a package the session serves every node that has a graph. -/
theorem serves_visited {ps : List Placement} (places : Places host name w ps w')
    (serves : (w'.transaction name).Serves []) (distinct : (ps.flatMap Placement.uris).Nodup) :
    (w'.transaction name).Serves
      ((ps.flatMap Placement.visited).filter (·.subject.isRdf)) := by
  refine ⟨serves.unfinished, serves.unbased, fun v hv => ?_⟩
  obtain ⟨hv, rdf⟩ := List.mem_filter.mp hv
  obtain ⟨p, hp, hv⟩ := List.mem_flatMap.mp hv
  obtain ⟨new, hnew, hstaged⟩ := places.staged distinct p hp
  have placed := places.minted.isPlaced p hp
  have given : v.uri ∈ p.uris := by
    rw [← placed.map_uri_visited]
    exact List.mem_map_of_mem hv
  rw [hstaged v.uri given]
  rw [placed.visited_eq] at hv
  rcases List.mem_cons.mp hv with rfl | hv
  · rcases p.resource.graph?_or_binary? with ⟨g, hg⟩ | ⟨b, hb⟩
    · exact ⟨_, Resource.get?_stored_graph hnew hg, Resource.kind_of_graph? hg⟩
    · have unlinked : p.resource.subject.isRdf = false := by
        simp [Subject.isRdf, Resource.subject, Resource.kind_of_binary? hb]
      rw [unlinked] at rdf
      cases rdf
  · obtain ⟨d, hd, rfl⟩ := List.mem_map.mp hv
    refine ⟨_, Resource.get?_stored_description hnew (Option.mem_toList.mp hd), fun h => ?_⟩
    cases h

/-- A session that serves a node fetches its graph. -/
theorem fetched_of_serves {v : Visited} {answer : Except DepositError SessionAnswer}
    {rest : List Answered} (serves : (w.transaction name).Serves vs) (hv : v ∈ vs)
    (h : Answers (session host name) w ((.fetch v.uri, answer) :: rest) w') :
    ∃ seen u, answer = .ok (.fetched seen.graph seen.token) ∧
      (u.transaction name).lookup u.repository v.uri = some seen ∧
      (u.transaction name).Serves vs ∧ Answers (session host name) u rest w' := by
  obtain ⟨seen, hl, rdf⟩ := serves.lookup w.repository hv
  obtain ⟨answered, u, hr, ht, rest⟩ := performed_of_answers h
  rw [Transaction.perform_fetch serves.unfinished hl rdf] at answered hr ht
  refine ⟨seen, u, answered, ?_, ?_, rest⟩
  · rw [hr, ht, Transaction.lookup_request]
    exact hl
  · rw [ht]
    exact serves.request

/-- A session that serves a node accepts a patch with the token of what it sees. -/
theorem patched_of_serves {v : Visited} {p : Patch} {seen : Stored}
    {answer : Except DepositError SessionAnswer} {rest : List Answered}
    (serves : (w.transaction name).Serves vs) (hv : v ∈ vs)
    (hl : (w.transaction name).lookup w.repository v.uri = some seen) (proper : p.isEmpty = false)
    (h : Answers (session host name) w ((.patch v.uri p seen.token, answer) :: rest) w') :
    answer = .ok .done ∧
      ∃ u, (u.transaction name).Serves vs ∧ Answers (session host name) u rest w' := by
  obtain ⟨answered, u, -, ht, rest⟩ := performed_of_answers h
  rw [Transaction.perform_patch serves.unfinished proper hl] at answered ht
  refine ⟨answered, u, ?_, rest⟩
  rw [ht]
  exact serves.amend hv p hl

/-- Nodes are served still after some were relinked. -/
theorem serves_of_relinks {uris : UriMap} {ls : List Relink} {rest : List Answered}
    (nodes : ∀ l ∈ ls, l.node ∈ vs) (serves : (w.transaction name).Serves vs)
    (h : Answers (session host name) w
      (Transcript.calls (ls.flatMap (Relink.lines uris)) ++ rest) w') :
    ∃ u, (u.transaction name).Serves vs ∧ Answers (session host name) u rest w' := by
  induction ls generalizing w with
  | nil => exact ⟨w, serves, h⟩
  | cons l ls ih =>
    have hv := nodes l List.mem_cons_self
    have others := fun m hm => nodes m (List.mem_cons_of_mem l hm)
    rw [List.flatMap_cons, Transcript.calls_append, List.append_assoc, Relink.calls_lines] at h
    obtain ⟨seen, u, answered, hl, serves, h⟩ := fetched_of_serves serves hv h
    cases hp : (l.patch uris).isEmpty with
    | true =>
      rw [if_pos hp] at h
      exact ih others serves h
    | false =>
      rw [if_neg (by rw [hp]; exact Bool.false_ne_true)] at h
      obtain ⟨-, same⟩ := SessionAnswer.fetched.inj (Except.ok.inj answered)
      rw [same] at h
      obtain ⟨-, u', serves, h⟩ := patched_of_serves serves hv hl hp h
      exact ih others serves h

/-- **No fetch and no patch goes wrong.** -/
theorem not_misses {uris : UriMap} {v : Visited} {last : Transcript} {e : DepositError}
    {rest : List Answered} (serves : (w.transaction name).Serves vs) (hv : v ∈ vs)
    (misses : Misses uris v last e)
    (h : Answers (session host name) w (last.calls ++ rest) w') : False := by
  cases misses with
  | unfetched =>
    obtain ⟨seen, u, answered, -⟩ := fetched_of_serves serves hv h
    cases answered
  | unpatched l _ changed =>
    obtain ⟨seen, u, answered, hl, serves, h⟩ := fetched_of_serves serves hv h
    obtain ⟨-, same⟩ := SessionAnswer.fetched.inj (Except.ok.inj answered)
    rw [same] at h
    obtain ⟨answered, -⟩ := patched_of_serves serves hv hl changed h
    cases answered

/-- **No commit meets a conflict.** -/
theorem not_refuses {e : DepositError} {rest : List Answered}
    (serves : (w.transaction name).Serves vs)
    (h : Answers (session host name) w ((.commit, .error e) :: rest) w') : False := by
  obtain ⟨answered, -⟩ := performed_of_answers h
  rw [Transaction.perform_commit serves.unfinished (serves.agreed w.repository)] at answered
  cases answered

end Workspace

/-! ## Whole deposits -/

/-- Names that keep the URIs of a package apart, and from its target, do so at every moment of a
walk. -/
theorem fresh_of_places {host : Host} {name target : String} {tree : List Resource}
    {w w' : Workspace} {left : List (Resource × String)} {ps : List Placement}
    (fresh : (target :: (allPlacements host w.deposits target tree).flatMap Placement.uris).Nodup)
    (walks : Walks (tree.map (·, target)) ps left) (places : Workspace.Places host name w ps w') :
    (target :: ps.flatMap Placement.uris).Nodup := by
  have all := walks_allPlacements host w.deposits target tree []
  rw [List.append_nil] at all
  obtain ⟨more, same⟩ := places.minted.isPrefix walks all (minted_allPlacements ..)
  rw [← same, List.flatMap_append] at fresh
  exact fresh.sublist ((List.sublist_append_left _ _).cons_cons target)

/-- **A deposit in memory goes through**: if its ids are distinct, its binaries can be read and its
URIs are fresh, a package is deposited below a committed container, and the report counts what was
deposited. -/
theorem deposit_succeeds {τ : Type} {host : Host} {name : String} {observe : Event → τ → τ}
    {tree : List Resource} {target : String} {w : Workspace}
    (opened : w.transaction name = Transaction.idle)
    (committed : w.repository.kind? target = some .container)
    (ids : (localIds tree).Nodup)
    (readable : ∀ path ∈ allPaths tree, ∃ bytes, host.files path = .file bytes)
    (fresh : (target :: (allPlacements host w.deposits target tree).flatMap Placement.uris).Nodup)
    (x : τ) :
    ∃ report y, (depositTree ((Workspace.session host name).beside τ) (watching observe) tree
        target).run (w, x) = (.ok report, y) ∧
      report.deposited = (Resource.outlineAll 0 none tree).length ∧
      report.descriptions =
        (Resource.outlineAll 0 none tree).countP (fun place => place.1.description?.isSome) ∧
      report.deposited + report.descriptions = Resource.countAll tree ∧
      report.remapped + report.unchanged =
        ((Resource.allSubjects tree).filter Subject.isRdf).length := by
  have follows : Notes ((Workspace.session host name).beside τ) (watching observe)
      (ExceptT.mk (depositTree _ _ tree target)) (ExceptT.mk (depositTree _ _ tree target))
      (DepositTranscript tree target) := notes_depositTree tree target
  obtain ⟨t, result, y, -, done, plays, worked, work, finish, rfl, hwork, hfinish⟩ :=
    follows [] (w, x)
  have answers := answers_of_plays plays
  rw [Transcript.calls_append] at answers
  rcases hwork with ⟨e, rfl, ps, r, parent, left, walked, last, walks, rfl, gains, stumbles⟩ |
    ⟨walked, _, remapped, rfl, hwalk, hremap⟩
  · -- the walk does not fail
    rw [Transcript.calls_append, calls_placements, List.append_assoc] at answers
    obtain ⟨w', before, after⟩ := answers_append.mp answers
    have fresh := fresh_of_places fresh walks (Workspace.places_of_answers before)
    exact (Workspace.not_stumbles opened committed ids readable fresh walks gains stumbles before
      after).elim
  have covers := covers_of_walk hwalk
  obtain ⟨ps, walks, rfl, gains⟩ := hwalk
  have nodes := gains.visited_eq walks
  rw [Transcript.calls_append, calls_placements, List.append_assoc] at answers
  obtain ⟨w', before, after⟩ := answers_append.mp answers
  have places := Workspace.places_of_answers before
  have serves := Workspace.serves_visited places
    (Workspace.serves_of_places before (opened ▸ Transaction.serves_idle))
    (List.nodup_cons.mp (fresh_of_places fresh walks places)).2
  rw [← nodes] at serves
  cases worked with
  | error e =>
    -- the remapping does not fail
    obtain ⟨ls, v, rest, last, hls, rfl, misses⟩ := hremap
    rw [Transcript.calls_append, List.append_assoc] at after
    have among : ∀ l ∈ ls, l.node ∈ (walked.visited tree).filter (·.subject.isRdf) := by
      intro l hl
      rw [hls]
      exact List.mem_append_left _ (List.mem_map_of_mem hl)
    obtain ⟨u, serves, after⟩ := Workspace.serves_of_relinks among serves after
    have hv : v ∈ (walked.visited tree).filter (·.subject.isRdf) := by
      rw [hls]
      exact List.mem_append_right _ List.mem_cons_self
    exact (Workspace.not_misses serves hv misses after).elim
  | ok report =>
    have counts := report_of_remap hremap
    obtain ⟨ls, hls, rfl, -⟩ := hremap
    have among : ∀ l ∈ ls, l.node ∈ (walked.visited tree).filter (·.subject.isRdf) := by
      intro l hl
      rw [← hls]
      exact List.mem_map_of_mem hl
    obtain ⟨u, serves, after⟩ := Workspace.serves_of_relinks among serves after
    cases hfinish with
    | refused _ e => exact (Workspace.not_refuses serves after).elim
    | committed =>
      obtain ⟨-, deposited, descriptions, -, all⟩ := counts
      have outlined : report.deposited = (Resource.outlineAll 0 none tree).length := by
        rw [deposited, covers.deposits, covers.whole]
      have counted : report.deposited + report.descriptions = Resource.countAll tree := by
        rw [deposited, descriptions]
        exact covers.counted
      refine ⟨report, y, done, outlined, ?_, counted, ?_⟩
      · rw [Resource.countAll_eq_outline 0 none tree] at counted
        omega
      · rw [all, ← covers.subjects, List.filter_map, List.length_map]
        exact Nat.zero_add _

/-- **A plan of a package that loads never fails.** Whatever a disk holds, if a package on it can be
loaded, from a directory or an archive, and the binaries that it leaves on the disk can be read,
then it is deposited in a new repository, whatever string names its root and target, if the names
that are given out are fresh. The report counts every node and every description of the package. -/
theorem plan_succeeds {σ τ : Type} (disk : Disk (StateM σ)) (path : String)
    (tree : List Resource) (z z' : σ) (host : Host) (name : String) (observe : Event → τ → τ)
    (target : String) (x : τ)
    (loaded : (loadPackage disk path).run.run z = (.ok tree, z'))
    (readable : ∀ file ∈ allPaths tree, ∃ bytes, host.files file = .file bytes)
    (fresh : host.NamesFresh) :
    ∃ report y, (depositPackage (watching observe)
        (pure ((Workspace.session host name).beside τ)) tree target).run (Workspace.new target, x) =
          (.ok report, y) ∧
      report.deposited = (Resource.outlineAll 0 none tree).length ∧
      report.descriptions =
        (Resource.outlineAll 0 none tree).countP (fun place => place.1.description?.isSome) ∧
      report.deposited + report.descriptions = Resource.countAll tree ∧
      report.remapped + report.unchanged =
        ((Resource.allSubjects tree).filter Subject.isRdf).length := by
  have committed : (Workspace.new target).repository.kind? target = some .container := by
    change (Option.map _ ((Table.empty.insert target _).get? target)) = _
    rw [Table.get?_insert_self]
    rfl
  exact deposit_succeeds rfl committed (distinct_of_loadPackage loaded) readable
    (nodup_allPlacements fresh 0 target tree) x

/-- A directory with a manifest and a file: a container with a described binary in it. -/
def describedFiles : Files := fun path =>
  if path = "p" then .directory
  else if path = "p/manifest.json" then .file (Text.toUtf8
    ("\x7b\"resources\":[\x7b\"id\":\"c\",\"kind\":\"container\",\"children\":[" ++
      "\x7b\"id\":\"i\",\"kind\":\"non-rdf-source\",\"file\":\"i\"," ++
      "\"description\":\x7b\"id\":\"d\",\"kind\":\"rdf-source\"\x7d\x7d]\x7d]\x7d"))
  else if path = "p/i" then .file [1, 2]
  else .failure FileView.noSuchFile

theorem plan_succeeds_describedFiles :
    let disk : Disk (StateM Unit) := fun path => pure (describedFiles path)
    let host : Host := { Host.numbering with files := describedFiles }
    ∃ tree report, ∃ y : Workspace × List Event,
      (loadPackage disk "p").run.run () = (.ok tree, ()) ∧
        (allPaths tree).all (fun file => (describedFiles file).isFile) = true ∧
        host.NamesFresh ∧
        Resource.allSubjects tree = [⟨"c", .container⟩, ⟨"i", .nonRdfSource⟩, ⟨"d", .rdfSource⟩] ∧
        (depositPackage (watching List.cons)
          (pure ((Workspace.session host "plan").beside (List Event))) tree "r").run
            (Workspace.new "r", []) = (.ok report, y) ∧
        report.deposited + report.descriptions = 3 := by
  intro disk host
  have checked : (match ((loadPackage disk "p").run.run ()).1 with
      | .ok tree => decide ((allPaths tree).all (fun file => (describedFiles file).isFile) = true ∧
          Resource.allSubjects tree =
            [⟨"c", .container⟩, ⟨"i", .nonRdfSource⟩, ⟨"d", .rdfSource⟩])
      | .error _ => false) = true := by decide +kernel
  rcases found : (loadPackage disk "p").run.run () with ⟨e | tree, u⟩
  · rw [found] at checked
    cases checked
  rw [found] at checked
  obtain ⟨files, subjects⟩ := of_decide_eq_true checked
  have readable : ∀ file ∈ allPaths tree, ∃ bytes, host.files file = .file bytes := by
    intro file hf
    have := List.all_eq_true.mp files file hf
    change (host.files file).isFile = true at this
    cases hv : host.files file with
    | file bytes => exact ⟨bytes, rfl⟩
    | directory => rw [hv] at this; cases this
    | failure reason => rw [hv] at this; cases this
  have fresh : host.NamesFresh := Host.namesFresh_numbering describedFiles
  obtain ⟨report, y, done, -, -, counted, -⟩ := plan_succeeds disk "p" tree () u host "plan"
    List.cons "r" [] found readable fresh
  refine ⟨tree, report, y, rfl, files, fresh, subjects, done, ?_⟩
  rw [counted, ← Resource.length_allSubjects, subjects]
  rfl

end LinkedDeposit
