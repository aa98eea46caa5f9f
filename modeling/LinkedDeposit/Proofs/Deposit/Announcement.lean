import LinkedDeposit.Proofs.Deposit.Finish

/-!
# What a deposit announces

The events of a deposit can be read off its calls and their answers. Every answer of a deposit names
nodes (`namedNodes`); they are announced in order, up to the first whose id was named before
(`untilRepeated`). Every fetch is for the next node with a graph, and a patch that is accepted is
announced for the node that was fetched last (`patchedNodes`). One event at most ends the run.

Results:
* `events_of_work`: up to its end a deposit announces what its calls have named and patched.
* `deposit_announces`: so the events of a deposit come in three blocks, whatever the session
  answers.
-/

namespace LinkedDeposit

/-! ## Reading events off calls -/

/-- The nodes to which the answer of a call gives URIs. -/
def namedNodes : Answered → List Visited
  | (.deposit r parent, .ok (.deposited d)) => Placement.visited ⟨r, parent, d⟩
  | _ => []

/-- The nodes before the first one whose id is taken or was listed before. -/
def untilRepeated : (taken : List String) → List Visited → List Visited
  | _, [] => []
  | taken, v :: vs =>
    if v.subject.id ∈ taken then [] else v :: untilRepeated (taken ++ [v.subject.id]) vs

/-- The nodes whose patches were accepted, with these patches. A fetch is for the first of the nodes
that are left, and a patch for the node that was fetched last. -/
def patchedNodes : (last : Option Visited) → (left : List Visited) → List Answered →
    List (Visited × Patch)
  | _, _, [] => []
  | _, v :: left, (.fetch _, _) :: cs => patchedNodes (some v) left cs
  | some v, left, (.patch _ p _, .ok _) :: cs => (v, p) :: patchedNodes (some v) left cs
  | last, left, _ :: cs => patchedNodes last left cs

/-- The patches that were accepted, with the URIs that they were for. -/
def acceptedPatches (cs : List Answered) : List (String × Patch) :=
  cs.filterMap fun
    | (.patch uri p _, .ok _) => some (uri, p)
    | _ => none

/-- Whether a commit was refused. -/
def refusesCommit (cs : List Answered) : Bool :=
  cs.any fun
    | (.commit, .error _) => true
    | _ => false

namespace Transcript

@[simp] theorem events_nil : events [] = [] := rfl

@[simp] theorem events_call (c : SessionCall) (a : Except DepositError SessionAnswer)
    (t : Transcript) : events (.call c a :: t) = events t := rfl

@[simp] theorem events_event (e : Event) (t : Transcript) :
    events (.event e :: t) = e :: events t := rfl

@[simp] theorem events_append (t u : Transcript) : events (t ++ u) = events t ++ events u :=
  List.filterMap_append

@[simp] theorem events_map_event {α : Type} (f : α → Event) (l : List α) :
    events (l.map fun x => .event (f x)) = l.map f := by
  induction l with
  | nil => rfl
  | cons x l ih => simpa using ih

end Transcript

/-- The event that ends a deposit with these calls. A lifecycle that was broken before the commit is
not announced. -/
def endingEvent (target : String) (cs : List Answered) : Except DepositError Report → Option Event
  | .ok report => some (.success target report.summary)
  | .error e =>
    if e.isIllegalState && !refusesCommit cs then none else some (.error e.message)

/-- The event that tells where a node is. -/
def Visited.announcement (v : Visited) : Event := .deposit v.uri v.subject

/-- The event that tells of a patch. -/
def remapEvent (l : Visited × Patch) : Event := .remap l.1.uri l.1.subject l.2.extent

theorem events_placements (ps : List Placement) :
    Transcript.events (ps.flatMap Placement.lines) =
      (ps.flatMap Placement.visited).map Visited.announcement := by
  induction ps with
  | nil => rfl
  | cons p ps ih =>
    rw [List.flatMap_cons, Transcript.events_append, ih, List.flatMap_cons, List.map_append,
      Placement.lines, Transcript.events_call, Transcript.events_map_event]
    rfl

theorem acceptedPatches_append (cs ds : List Answered) :
    acceptedPatches (cs ++ ds) = acceptedPatches cs ++ acceptedPatches ds :=
  List.filterMap_append

theorem fetchedUris_append (cs ds : List Answered) :
    fetchedUris (cs ++ ds) = fetchedUris cs ++ fetchedUris ds :=
  List.filterMap_append

/-- What is neither a fetch nor a patch fetches and patches nothing. -/
theorem reads_nothing {cs : List Answered}
    (h : ∀ c ∈ cs, c.1.kind ≠ .fetch ∧ c.1.kind ≠ .patch) :
    fetchedUris cs = [] ∧ acceptedPatches cs = [] := by
  refine ⟨List.filterMap_eq_nil_iff.mpr ?_, List.filterMap_eq_nil_iff.mpr ?_⟩
  · intro c hc
    obtain ⟨call, answer⟩ := c
    cases call with
    | fetch uri => exact absurd rfl (h _ hc).1
    | _ => rfl
  · intro c hc
    obtain ⟨call, answer⟩ := c
    cases call with
    | patch uri p token => exact absurd rfl (h _ hc).2
    | _ => rfl

theorem placements_read_nothing (ps : List Placement) :
    fetchedUris (ps.map Placement.call) = [] ∧ acceptedPatches (ps.map Placement.call) = [] := by
  refine reads_nothing fun c hc => ?_
  rw [placements_are_deposits ps c hc]
  decide

/-! ## Nodes that were named -/

/-- Nodes whose ids are recorded are listed up to the last. -/
theorem untilRepeated_append {m n : UriMap} {taken : List String} {vs : List Visited}
    (us : List Visited) (hm : m.Holds taken) (h : m.recordAll vs = .ok n) :
    untilRepeated taken (vs ++ us) =
      vs ++ untilRepeated (taken ++ vs.map (·.subject.id)) us := by
  induction vs generalizing m taken with
  | nil => simp
  | cons v vs ih =>
    have hv : v.subject.id ∉ taken := by
      rw [← hm, Table.contains, (recordAll_cons_eq_ok_iff.mp h).1]
      exact Bool.false_ne_true
    have h' : m.recordAll ([v] ++ vs) = .ok n := h
    obtain ⟨k, hk, hks⟩ := recordAll_append_eq_ok_iff.mp h'
    have next := ih (hm.recordAll hk) hks
    rw [List.map_singleton] at next
    rw [List.cons_append, untilRepeated, if_neg hv, next, List.map_cons, List.append_assoc]
    rfl

/-- Only deposits name nodes. -/
theorem namedNodes_eq_nil {c : Answered} (h : c.1.kind ≠ .deposit) : namedNodes c = [] := by
  obtain ⟨call, answer⟩ := c
  cases call with
  | deposit r parent => exact absurd rfl h
  | fetch uri => rfl
  | patch uri p token => rfl
  | commit => rfl
  | rollback => rfl

theorem flatMap_namedNodes_eq_nil {cs : List Answered} (h : ∀ c ∈ cs, c.1.kind ≠ .deposit) :
    cs.flatMap namedNodes = [] :=
  List.flatMap_eq_nil_iff.mpr fun c hc => namedNodes_eq_nil (h c hc)

theorem flatMap_namedNodes_placements (ps : List Placement) :
    (ps.map Placement.call).flatMap namedNodes = ps.flatMap Placement.visited := by
  rw [List.flatMap_map]
  rfl

/-- A deposit that goes wrong announces the nodes that it has named before. -/
theorem Stumbles.announces {w : Walked} {r : Resource} {parent : String} {t : Transcript}
    {e : DepositError} {taken : List String} (h : Stumbles w r parent t e)
    (hw : w.uris.Holds taken) :
    t.events = (untilRepeated taken (t.calls.flatMap namedNodes)).map Visited.announcement ∧
      (untilRepeated taken (t.calls.flatMap namedNodes)).map (·.subject) <+: r.subjects := by
  have only (hnew : w.uris.contains r.id = false) (d : Deposited) (us : List Visited)
      (stops : untilRepeated (taken ++ [r.id]) us = []) :
      untilRepeated taken (⟨r.subject, d.uri⟩ :: us) = [⟨r.subject, d.uri⟩] := by
    have hid : r.subject.id ∉ taken := by
      change r.id ∉ taken
      rw [← hw, hnew]
      exact Bool.false_ne_true
    rw [untilRepeated, if_neg hid]
    exact congrArg _ stops
  cases h with
  | refused => exact ⟨rfl, List.nil_prefix⟩
  | repeated d known =>
    have hid : r.subject.id ∈ taken := (hw r.id).mp known
    simp [namedNodes, Placement.visited, untilRepeated, hid]
  | undescribed d description new described unnamed =>
    have named : namedNodes (.deposit r parent, .ok (.deposited d)) = [⟨r.subject, d.uri⟩] := by
      simp [namedNodes, Placement.visited, unnamed]
    simp [named, only new d [] rfl, Visited.announcement, subjects_eq r]
  | repeatedDescription d description uri new described called known =>
    have named : namedNodes (.deposit r parent, .ok (.deposited d)) =
        [⟨r.subject, d.uri⟩, ⟨description.subject, uri⟩] := by
      simp [namedNodes, Placement.visited, described, called]
    have stops : untilRepeated (taken ++ [r.id]) [⟨description.subject, uri⟩] = [] := by
      rw [hw] at known
      simp [untilRepeated, Description.subject, known.symm]
    simp [named, only new d _ stops, Visited.announcement, subjects_eq r]

/-! ## Nodes that were patched -/

theorem patchedNodes_append_of_skips {last : Option Visited} {left : List Visited}
    {cs ds : List Answered} (h : ∀ c ∈ cs, c.1.kind ≠ .fetch ∧ c.1.kind ≠ .patch) :
    patchedNodes last left (cs ++ ds) = patchedNodes last left ds := by
  induction cs with
  | nil => rfl
  | cons c cs ih =>
    obtain ⟨hf, hp⟩ := h c List.mem_cons_self
    rw [← ih fun d hd => h d (List.mem_cons_of_mem c hd), List.cons_append]
    obtain ⟨call, answer⟩ := c
    cases call with
    | fetch uri => exact absurd rfl hf
    | patch uri p token => exact absurd rfl hp
    | deposit r parent => rw [patchedNodes] <;> simp
    | commit => rw [patchedNodes] <;> simp
    | rollback => rw [patchedNodes] <;> simp

/-- Where no patch was accepted no node was patched. -/
theorem patchedNodes_eq_nil {last : Option Visited} {left : List Visited} {cs : List Answered}
    (h : acceptedPatches cs = []) : patchedNodes last left cs = [] := by
  fun_induction patchedNodes last left cs with
  | case1 => rfl
  | case2 last v left uri answer cs ih => exact ih h
  | case3 => cases h
  | case4 last left c cs _ _ ih =>
    refine ih ?_
    rw [acceptedPatches, List.filterMap_cons] at h
    split at h
    · exact h
    · cases h

/-- The nodes of which some links changed, with the patches. -/
def changedNodes (uris : UriMap) (ls : List Relink) : List (Visited × Patch) :=
  (ls.filter fun l => !(l.patch uris).isEmpty).map fun l => (l.node, l.patch uris)

theorem changedNodes_cons (uris : UriMap) (l : Relink) (ls : List Relink) :
    changedNodes uris (l :: ls) =
      (if (l.patch uris).isEmpty then [] else [(l.node, l.patch uris)]) ++
        changedNodes uris ls := by
  cases h : (l.patch uris).isEmpty with
  | true => simp [changedNodes, h]
  | false => simp [changedNodes, h]

theorem events_relinks (uris : UriMap) (ls : List Relink) :
    Transcript.events (ls.flatMap (Relink.lines uris)) =
      (changedNodes uris ls).map remapEvent := by
  induction ls with
  | nil => rfl
  | cons l ls ih =>
    rw [List.flatMap_cons, Transcript.events_append, ih, changedNodes_cons, List.map_append]
    unfold Relink.lines
    split <;> rfl

theorem acceptedPatches_relinks (uris : UriMap) (ls : List Relink) :
    acceptedPatches (Transcript.calls (ls.flatMap (Relink.lines uris))) =
      (changedNodes uris ls).map (fun l => (l.1.uri, l.2)) := by
  induction ls with
  | nil => rfl
  | cons l ls ih =>
    rw [changedNodes_cons, List.map_append, ← ih, List.flatMap_cons, Transcript.calls_append,
      Relink.calls_lines]
    split <;> rfl

/-- When nodes are relinked in order, a fetch is for the node that it names and a patch too. -/
theorem patchedNodes_relinks (uris : UriMap) (ls : List Relink) (last : Option Visited)
    (rest : List Visited) {more : List Answered} (h : acceptedPatches more = []) :
    patchedNodes last (ls.map (·.node) ++ rest)
        (Transcript.calls (ls.flatMap (Relink.lines uris)) ++ more) =
      changedNodes uris ls := by
  induction ls generalizing last with
  | nil => exact patchedNodes_eq_nil h
  | cons l ls ih =>
    rw [changedNodes_cons, List.flatMap_cons, Transcript.calls_append, Relink.calls_lines]
    split
    · exact ih (some l.node)
    · exact congrArg _ (ih (some l.node))

/-- Whatever remapping comes to, nodes were relinked in order, and then nothing more was patched. -/
theorem RemapTranscript.relinks {uris : UriMap} {vs : List Visited} {report : Report}
    {t : Transcript} {result : Except DepositError Report}
    (h : RemapTranscript uris vs report t result) :
    ∃ (ls : List Relink) (rest : List Visited) (last : Transcript),
      vs = ls.map (·.node) ++ rest ∧ t = ls.flatMap (Relink.lines uris) ++ last ∧
      last.events = [] ∧ acceptedPatches last.calls = [] ∧
      fetchedUris last.calls <+: rest.map (·.uri) ∧ last.calls.flatMap namedNodes = [] := by
  cases result with
  | ok report' =>
    obtain ⟨ls, rfl, rfl, -⟩ := h
    exact ⟨ls, [], [], by simp, by simp, rfl, rfl, List.prefix_rfl, rfl⟩
  | error e =>
    obtain ⟨ls, v, rest, last, rfl, rfl, hm⟩ := h
    refine ⟨ls, v :: rest, last, rfl, rfl, ?_⟩
    cases hm with
    | unfetched => exact ⟨rfl, rfl, List.prefix_append [v.uri] _, rfl⟩
    | unpatched => exact ⟨rfl, rfl, List.prefix_append [v.uri] _, rfl⟩

/-! ## Broken lifecycles -/

/-- Only an answer tells that the lifecycle was broken. -/
theorem answer_of_callFault {taken : List String} {c : Answered} {e : DepositError}
    (h : callFault taken c = some e) (illegal : e.isIllegalState = true) : c.2 = .error e := by
  obtain ⟨call, answer | answer⟩ := c
  · exact congrArg _ (Option.some.inj h)
  · exfalso
    unfold callFault at h
    split at h
    · cases ‹_ = Except.error _›
    · split at h
      · split at h
        · cases h
          cases illegal
        · split at h
          · cases h
          · cases h
            cases illegal
          · split at h
            · cases h
              cases illegal
            · cases h
      · cases h

/-- Calls without a fault were not refused. -/
theorem answered_of_firstFault {taken : List String} {cs : List Answered}
    (h : firstFault taken cs = none) {c : Answered} (hc : c ∈ cs) (e : DepositError) :
    c.2 ≠ .error e := by
  induction cs generalizing taken with
  | nil => cases hc
  | cons d cs ih =>
    rw [firstFault, Option.or_eq_none_iff] at h
    rcases List.mem_cons.mp hc with rfl | hc
    · intro he
      rw [callFault, he] at h
      cases h.1
    · exact ih h.2 hc

/-- What a deposit has announced when its calls named some nodes and patched some. -/
structure Announces (tree : List Resource) (t : Transcript) (result : Except DepositError Report)
    (named : List Visited) (remapped : List (Visited × Patch)) : Prop where
  events : t.events = named.map Visited.announcement ++ remapped.map remapEvent
  first : named.map (·.subject) <+: Resource.allSubjects tree
  /-- Graphs are fetched once all nodes are named. -/
  all : fetchedUris t.calls ≠ [] ∨ remapped ≠ [] ∨ (∃ report, result = .ok report) →
    named.map (·.subject) = Resource.allSubjects tree
  fetched : fetchedUris t.calls <+: (named.filter (·.subject.isRdf)).map (·.uri)
  inOrder : List.Sublist (remapped.map (·.1)) (named.filter (·.subject.isRdf))
  accepted : remapped.map (fun l => (l.1.uri, l.2)) = acceptedPatches t.calls

/-- When a deposit goes wrong, it may have named a node first. -/
theorem announces_of_stumbled {tree : List Resource} {target parent : String} {w : Walked}
    {ps : List Placement} {r : Resource} {left : List (Resource × String)} {last : Transcript}
    {e : DepositError} (hw : Walks (tree.map (·, target)) ps ((r, parent) :: left))
    (hg : Gains Walked.nothing ps w) (hs : Stumbles w r parent last e) :
    let t : Transcript := ps.flatMap Placement.lines ++ last
    Announces tree t (.error e) (untilRepeated [] (t.calls.flatMap namedNodes)) [] := by
  intro t
  have holds : w.uris.Holds ([] ++ (ps.flatMap Placement.visited).map (·.subject.id)) :=
    holds_nothing.recordAll hg.recorded
  obtain ⟨answer, hlast, -⟩ := hs.fault holds
  obtain ⟨told, below⟩ := hs.announces holds
  have subjects : Resource.allSubjects tree =
      (ps.flatMap Placement.visited).map (·.subject) ++
        (r.subjects ++ Resource.allSubjects (left.map (·.1))) := hw.subjects hg.complete
  have hcalls : t.calls = ps.map Placement.call ++ last.calls := by
    rw [Transcript.calls_append, calls_placements]
  have hnamed := untilRepeated_append (last.calls.flatMap namedNodes) holds_nothing
    hg.recorded
  rw [← flatMap_namedNodes_placements, ← List.flatMap_append, ← hcalls,
    flatMap_namedNodes_placements] at hnamed
  obtain ⟨unfetched, unpatched⟩ : fetchedUris t.calls = [] ∧ acceptedPatches t.calls = [] := by
    refine reads_nothing fun c hc => ?_
    rw [hcalls, hlast] at hc
    rcases List.mem_append.mp hc with hc | hc
    · rw [placements_are_deposits ps c hc]
      decide
    · rw [List.mem_singleton.mp hc]
      exact ⟨nofun, nofun⟩
  refine ⟨?_, ?_, ?_, ?_, List.nil_sublist _, unpatched.symm⟩
  · rw [Transcript.events_append, events_placements, told, hnamed, List.map_append, List.map_nil,
      List.append_nil]
  · rw [hnamed, List.map_append, subjects, List.prefix_append_right_inj]
    exact below.trans (List.prefix_append _ _)
  · rintro (h | h | ⟨_, h⟩)
    · exact absurd unfetched h
    · exact absurd rfl h
    · cases h
  · rw [unfetched]
    exact List.nil_prefix

/-- After a whole walk all nodes are named, and what is patched is announced. -/
theorem announces_of_walked {tree : List Resource} {result : Except DepositError Report}
    {w : Walked} {ps : List Placement} {ls : List Relink} {rest : List Visited}
    {last : Transcript} (hg : Gains Walked.nothing ps w)
    (hs : (ps.flatMap Placement.visited).map (·.subject) = Resource.allSubjects tree)
    (hls : (ps.flatMap Placement.visited).filter (·.subject.isRdf) = ls.map (·.node) ++ rest)
    (quiet : last.events = []) (unpatched : acceptedPatches last.calls = [])
    (hf : fetchedUris last.calls <+: rest.map (·.uri))
    (unnamed : last.calls.flatMap namedNodes = []) :
    let t : Transcript := ps.flatMap Placement.lines ++ (ls.flatMap (Relink.lines w.uris) ++ last)
    let named := untilRepeated [] (t.calls.flatMap namedNodes)
    Announces tree t result named
      (patchedNodes none (named.filter (·.subject.isRdf)) t.calls) := by
  intro t named
  have hcalls : t.calls = ps.map Placement.call ++
      (Transcript.calls (ls.flatMap (Relink.lines w.uris)) ++ last.calls) := by
    rw [Transcript.calls_append, calls_placements, Transcript.calls_append]
  have relinks : ∀ c ∈ Transcript.calls (ls.flatMap (Relink.lines w.uris)),
      c.1.kind ≠ .deposit := by
    intro c hc
    rcases ((calls_relinks w.uris ls).1 c hc).1 with h | h <;> rw [h] <;> decide
  have hnamed : named = ps.flatMap Placement.visited := by
    have := untilRepeated_append [] holds_nothing hg.recorded
    rw [List.append_nil] at this
    change untilRepeated [] _ = _
    rw [hcalls, List.flatMap_append, List.flatMap_append, flatMap_namedNodes_placements,
      flatMap_namedNodes_eq_nil relinks, unnamed, List.append_nil, List.append_nil, this,
      untilRepeated, List.append_nil]
  have hpatched : patchedNodes none (named.filter (·.subject.isRdf)) t.calls =
      changedNodes w.uris ls := by
    rw [hnamed, hls, hcalls, patchedNodes_append_of_skips]
    · exact patchedNodes_relinks w.uris ls none rest unpatched
    · intro c hc
      rw [placements_are_deposits ps c hc]
      decide
  obtain ⟨before, unpatchedBefore⟩ := placements_read_nothing ps
  rw [hpatched, hnamed]
  refine ⟨?_, ?_, fun _ => hs, ?_, ?_, ?_⟩
  · rw [Transcript.events_append, Transcript.events_append, events_placements, events_relinks,
      quiet, List.append_nil]
  · exact hs ▸ List.prefix_rfl
  · rw [hls, List.map_append, List.map_map, hcalls, fetchedUris_append, fetchedUris_append,
      before, List.nil_append, (calls_relinks w.uris ls).2]
    exact (List.prefix_append_right_inj _).mpr hf
  · rw [hls, changedNodes, List.map_map]
    exact (List.filter_sublist.map _).trans (List.sublist_append_left _ _)
  · rw [hcalls, acceptedPatches_append, acceptedPatches_append, acceptedPatches_relinks,
      unpatchedBefore, unpatched, List.nil_append, List.append_nil]

/-- **Up to its end a deposit announces what its calls have named and patched.** -/
theorem events_of_work {tree : List Resource} {target : String} {t : Transcript}
    {result : Except DepositError Report} (h : WorkTranscript tree target t result) :
    let named := untilRepeated [] (t.calls.flatMap namedNodes)
    Announces tree t result named
      (patchedNodes none (named.filter (·.subject.isRdf)) t.calls) := by
  rcases h with ⟨e, rfl, ps, r, parent, left, w, last, hw, rfl, hg, hs⟩ |
    ⟨w, walked, remapped, rfl, ⟨ps, hw, rfl, hg⟩, hr⟩
  · intro named
    have told := announces_of_stumbled hw hg hs
    rwa [patchedNodes_eq_nil told.accepted.symm]
  · rw [hg.visited_eq hw] at hr
    obtain ⟨ls, rest, last, hls, rfl, quiet, unpatched, hf, unnamed⟩ := RemapTranscript.relinks hr
    exact announces_of_walked hg (hw.subjects_of_whole hg.complete) hls quiet unpatched hf unnamed

/-- How a deposit ends is told by one event, unless the lifecycle was broken. -/
theorem Finishes.announces {target : String} {work result : Except DepositError Report}
    {finish : Transcript} (h : Finishes target work finish result) :
    (∀ c ∈ finish.calls, c.1.kind = .commit ∨ c.1.kind = .rollback) ∧
      finish.events = (endingEvent target finish.calls result).toList ∧
      (endingEvent target finish.calls result = none ↔
        ∃ e, work = .error e ∧ e.isIllegalState = true) := by
  cases h with
  | committed report => exact ⟨by simp [SessionCall.kind], rfl, by simp [endingEvent]⟩
  | refused report e =>
    exact ⟨by simp [SessionCall.kind], by simp [endingEvent, refusesCommit],
      by simp [endingEvent, refusesCommit]⟩
  | rolledBack e legal answer =>
    exact ⟨by simp [SessionCall.kind], by simp [endingEvent, legal], by simp [endingEvent, legal]⟩
  | broken e illegal =>
    exact ⟨by simp, by simp [endingEvent, illegal, refusesCommit],
      by simp [endingEvent, illegal, refusesCommit]⟩

end LinkedDeposit
