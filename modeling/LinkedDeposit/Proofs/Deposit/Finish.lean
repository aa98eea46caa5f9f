import LinkedDeposit.Proofs.Deposit.RunTranscript

/-!
# How a deposit finishes its session

A session may answer anything, at any call. What is wrong with a call is read off the transcript
alone (`callFault`): the session refused it, it gave a URI to an id that had one, or it gave none to
a description. `firstFault` is the first such thing in a list of calls.

Results:
* `calls_of_work`: up to its end a deposit makes deposits, then fetches and patches; it ends at the
  first fault, and without a fault it has left nothing out.
* `deposit_finishes_once`: then it commits, or rolls back, or, if the caller broke the session's
  lifecycle, does neither; and it reports the first fault.
-/

namespace LinkedDeposit

/-- A call with its answer. -/
abbrev Answered := SessionCall × Except DepositError SessionAnswer

/-- The ids that are taken once a call has gone well. -/
def SessionCall.ids : SessionCall → List String
  | .deposit r _ => r.id :: r.description?.toList.map (·.id)
  | _ => []

/-- What is wrong with a call when some ids are taken. -/
def callFault (taken : List String) (c : Answered) : Option DepositError :=
  match c.2 with
  | .error e => some e
  | .ok answer =>
    match c.1, answer with
    | .deposit r _, .deposited d =>
      if r.id ∈ taken then some (.repeatedLocalId r.id)
      else
        match r.description?, d.description with
        | none, _ => none
        | some _, none => some (.missingDescription d.uri)
        | some description, some _ =>
          if description.id = r.id ∨ description.id ∈ taken then
            some (.repeatedLocalId description.id)
          else none
    | _, _ => none

/-- The first thing that is wrong with some calls. -/
def firstFault : (taken : List String) → List Answered → Option DepositError
  | _, [] => none
  | taken, c :: rest => (callFault taken c).or (firstFault (taken ++ c.1.ids) rest)

/-- The call of a placement. -/
def Placement.call (p : Placement) : Answered :=
  (.deposit p.resource p.parent, .ok (.deposited p.answer))

/-- The URIs that were asked for. -/
def fetchedUris (cs : List Answered) : List String :=
  cs.filterMap fun
    | (.fetch uri, _) => some uri
    | _ => none

/-! ## Faults -/

theorem firstFault_append (taken : List String) (cs ds : List Answered) :
    firstFault taken (cs ++ ds) =
      (firstFault taken cs).or (firstFault (taken ++ cs.flatMap (·.1.ids)) ds) := by
  induction cs generalizing taken with
  | nil => simp [firstFault]
  | cons c cs ih =>
    simp only [List.cons_append, firstFault, ih, List.flatMap_cons, Option.or_assoc,
      List.append_assoc]

/-- Calls on graphs take no ids. -/
theorem firstFault_edits {taken : List String} {cs : List Answered}
    (h : ∀ c ∈ cs, c.1.kind ≠ .deposit ∧ ∃ a, c.2 = .ok a) : firstFault taken cs = none := by
  induction cs generalizing taken with
  | nil => rfl
  | cons c cs ih =>
    obtain ⟨hk, a, ha⟩ := h c List.mem_cons_self
    obtain ⟨call, answer⟩ := c
    obtain rfl : answer = .ok a := ha
    have good : callFault taken (call, .ok a) = none := by
      cases call with
      | deposit r parent => exact absurd rfl hk
      | _ => rfl
    rw [firstFault, good, ih fun c hc => h c (List.mem_cons_of_mem _ hc)]
    rfl

theorem firstFault_dropLast {taken : List String} {cs : List Answered}
    (h : firstFault taken cs = none) : firstFault taken cs.dropLast = none := by
  rcases cs.eq_nil_or_concat with rfl | ⟨ds, c, rfl⟩
  · rfl
  · rw [List.concat_eq_append, firstFault_append, Option.or_eq_none_iff] at h
    rw [List.concat_eq_append, List.dropLast_concat]
    exact h.1

/-- The table holds the ids of the list. -/
def UriMap.Holds (m : UriMap) (taken : List String) : Prop :=
  ∀ id, m.contains id = true ↔ id ∈ taken

theorem UriMap.Holds.recordAll {m n : UriMap} {taken : List String} {vs : List Visited}
    (hm : m.Holds taken) (h : m.recordAll vs = .ok n) :
    n.Holds (taken ++ vs.map (·.subject.id)) := by
  intro id
  rw [Table.contains, Option.isSome_iff_exists]
  simp only [get?_recordAll h, List.mem_append, List.mem_map, ← hm id, Table.contains,
    Option.isSome_iff_exists]
  grind

/-- The ids that a placement takes are those of its nodes. -/
theorem Placement.ids_call {p : Placement} (hp : p.IsComplete) :
    p.call.1.ids = p.visited.map (·.subject.id) := by
  have := congrArg (List.map Subject.id) (p.visited_map_subject hp)
  rw [List.map_map] at this
  rw [Placement.call, SessionCall.ids]
  change _ = List.map (Subject.id ∘ Visited.subject) _
  rw [this]
  simp [Resource.subject, Description.subject]

/-- Nothing is wrong with a placement whose ids were recorded. -/
theorem callFault_placement {m n : UriMap} {taken : List String} {p : Placement}
    (hm : m.Holds taken) (hp : p.IsComplete) (h : m.recordAll p.visited = .ok n) :
    callFault taken p.call = none := by
  obtain ⟨hnd, hnew, -⟩ := recordAll_eq_ok_iff.mp h
  have new (v : Visited) (hv : v ∈ p.visited) : v.subject.id ∉ taken := by
    rw [← hm, Table.contains, hnew v hv]
    exact Bool.false_ne_true
  have hid : p.resource.id ∉ taken := new ⟨p.resource.subject, p.answer.uri⟩ List.mem_cons_self
  simp only [callFault, Placement.call, if_neg hid]
  cases hd : p.resource.description? with
  | none => rfl
  | some description =>
    obtain ⟨uri, hu⟩ := Option.isSome_iff_exists.mp (hp (by rw [hd]; rfl))
    have visited : p.visited =
        [⟨p.resource.subject, p.answer.uri⟩, ⟨description.subject, uri⟩] := by
      simp [Placement.visited, hd, hu]
    have hdescription : description.id ∉ taken :=
      new ⟨description.subject, uri⟩ (by rw [visited]; simp)
    have hne : description.id ≠ p.resource.id := by
      rw [visited] at hnd
      simpa [Resource.subject, Description.subject, eq_comm] using hnd
    simp [hu, hne, hdescription]

/-- Nothing is wrong with placements whose ids were recorded. -/
theorem firstFault_placements {m n : UriMap} {taken : List String} {ps : List Placement}
    (hm : m.Holds taken) (hc : ∀ p ∈ ps, p.IsComplete)
    (h : m.recordAll (ps.flatMap Placement.visited) = .ok n) :
    firstFault taken (ps.map Placement.call) = none := by
  induction ps generalizing m taken with
  | nil => rfl
  | cons p ps ih =>
    have hp := hc p List.mem_cons_self
    rw [List.flatMap_cons] at h
    obtain ⟨m', hm', h⟩ := recordAll_append_eq_ok_iff.mp h
    rw [List.map_cons, firstFault, callFault_placement hm hp hm', Placement.ids_call hp,
      ih (hm.recordAll hm') (fun q hq => hc q (List.mem_cons_of_mem p hq)) h]
    rfl

/-- A deposit that goes wrong is a call with a fault. -/
theorem Stumbles.fault {w : Walked} {r : Resource} {parent : String} {t : Transcript}
    {e : DepositError} {taken : List String} (h : Stumbles w r parent t e)
    (hw : w.uris.Holds taken) :
    ∃ answer, t.calls = [(.deposit r parent, answer)] ∧
      callFault taken (.deposit r parent, answer) = some e := by
  cases h with
  | refused => exact ⟨.error e, rfl, rfl⟩
  | repeated d known => exact ⟨.ok (.deposited d), rfl, by simp [callFault, (hw r.id).mp known]⟩
  | undescribed d description new described unnamed =>
    have hid : r.id ∉ taken := by rw [← hw, new]; exact Bool.false_ne_true
    exact ⟨.ok (.deposited d), rfl, by simp [callFault, hid, described, unnamed]⟩
  | repeatedDescription d description uri new described named known =>
    have hid : r.id ∉ taken := by rw [← hw, new]; exact Bool.false_ne_true
    rw [hw] at known
    exact ⟨.ok (.deposited d), rfl, by simp [callFault, hid, described, named, known]⟩

/-! ## Calls of the parts of a deposit -/

theorem calls_placements (ps : List Placement) :
    Transcript.calls (ps.flatMap Placement.lines) = ps.map Placement.call := by
  rw [Transcript.calls_flatMap]
  induction ps with
  | nil => rfl
  | cons p ps ih => rw [List.flatMap_cons, List.map_cons, ih, Placement.calls_lines]; rfl

theorem ids_placements {ps : List Placement} (hc : ∀ p ∈ ps, p.IsComplete) :
    (ps.map Placement.call).flatMap (·.1.ids) =
      (ps.flatMap Placement.visited).map (·.subject.id) := by
  induction ps with
  | nil => rfl
  | cons p ps ih =>
    rw [List.map_cons, List.flatMap_cons, List.flatMap_cons, List.map_append,
      Placement.ids_call (hc p List.mem_cons_self), ih fun q hq => hc q (List.mem_cons_of_mem p hq)]

/-- Relinking nodes fetches each of them and otherwise patches; every call succeeds. -/
theorem calls_relinks (uris : UriMap) (ls : List Relink) :
    (∀ c ∈ Transcript.calls (ls.flatMap (Relink.lines uris)),
      (c.1.kind = .fetch ∨ c.1.kind = .patch) ∧ ∃ a, c.2 = .ok a) ∧
      fetchedUris (Transcript.calls (ls.flatMap (Relink.lines uris))) = ls.map (·.node.uri) := by
  induction ls with
  | nil => exact ⟨by simp, rfl⟩
  | cons l ls ih =>
    rw [List.flatMap_cons, Transcript.calls_append, Relink.calls_lines]
    split
    case isTrue =>
      refine ⟨?_, by simpa [fetchedUris] using ih.2⟩
      rintro c (_ | ⟨_, hc⟩)
      · exact ⟨.inl rfl, _, rfl⟩
      · exact ih.1 c hc
    case isFalse =>
      refine ⟨?_, by simpa [fetchedUris] using ih.2⟩
      rintro c (_ | ⟨_, _ | ⟨_, hc⟩⟩)
      · exact ⟨.inl rfl, _, rfl⟩
      · exact ⟨.inr rfl, _, rfl⟩
      · exact ih.1 c hc

/-- A node that is missed is missed at the last call. -/
theorem Misses.fault {uris : UriMap} {v : Visited} {t : Transcript} {e : DepositError}
    (h : Misses uris v t e) :
    ∃ good last, t.calls = good ++ [last] ∧ (∀ c ∈ good, c.1.kind = .fetch ∧ ∃ a, c.2 = .ok a) ∧
      (last.1.kind = .fetch ∨ last.1.kind = .patch) ∧
      ∀ taken, callFault taken last = some e := by
  cases h with
  | unfetched => exact ⟨[], _, rfl, by simp, .inl rfl, fun _ => rfl⟩
  | unpatched l hv changed =>
    refine ⟨[_], _, rfl, ?_, .inr rfl, fun _ => rfl⟩
    rintro c (_ | ⟨_, hc⟩)
    · exact ⟨rfl, _, rfl⟩
    · cases hc

/-- The calls that a deposit makes up to its end, and what comes of them. -/
structure WorkCalls (tree : List Resource) (target : String) (deposits edits : List Answered)
    (result : Except DepositError Report) : Prop where
  deposits_only : ∀ c ∈ deposits, c.1.kind = .deposit
  edits_only : ∀ c ∈ edits, c.1.kind = .fetch ∨ c.1.kind = .patch
  /-- The result is the first fault. -/
  fault : firstFault [] (deposits ++ edits) =
    match result with
    | .ok _ => none
    | .error e => some e
  /-- Nothing follows it. -/
  stops : firstFault [] (deposits ++ edits).dropLast = none
  /-- Without one, every resource was deposited and every graph fetched. -/
  whole : ∀ report, result = .ok report → ∃ ps, Walks (tree.map (·, target)) ps [] ∧
    deposits = ps.map Placement.call ∧
    fetchedUris edits = ((ps.flatMap Placement.visited).filter (·.subject.isRdf)).map (·.uri)

theorem holds_nothing : UriMap.Holds Walked.nothing.uris [] := by
  intro id
  simp [Walked.nothing, Table.contains]

/-- What a walk has gained are good calls, and the ids that they took. -/
theorem Gains.calls {w : Walked} {ps : List Placement} (hg : Gains Walked.nothing ps w) :
    firstFault [] (ps.map Placement.call) = none ∧
      w.uris.Holds ([] ++ (ps.map Placement.call).flatMap (·.1.ids)) := by
  refine ⟨firstFault_placements holds_nothing hg.complete hg.recorded, ?_⟩
  rw [ids_placements hg.complete]
  exact holds_nothing.recordAll hg.recorded

theorem placements_are_deposits (ps : List Placement) :
    ∀ c ∈ ps.map Placement.call, c.1.kind = .deposit := by
  intro c hc
  obtain ⟨p, -, rfl⟩ := List.mem_map.mp hc
  rfl

/-- Links that were looked up and rewritten add no fault to what a walk has gained. -/
theorem Gains.faultless {w : Walked} {ps : List Placement} (hg : Gains Walked.nothing ps w)
    {edits : List Answered}
    (answered : ∀ c ∈ edits, (c.1.kind = .fetch ∨ c.1.kind = .patch) ∧ ∃ a, c.2 = .ok a) :
    firstFault [] (ps.map Placement.call ++ edits) = none := by
  rw [firstFault_append, hg.calls.1]
  refine firstFault_edits fun c hc => ⟨?_, (answered c hc).2⟩
  rcases (answered c hc).1 with h | h <;> rw [h] <;> simp

section Work

variable {tree : List Resource} {target : String} {t : Transcript} {w : Walked}
  {ps : List Placement} {result : Except DepositError Report}

/-- A walk that goes wrong does so at its last call. -/
theorem workCalls_of_stumbles {r : Resource} {parent : String} {last : Transcript}
    {e : DepositError} (hg : Gains Walked.nothing ps w) (hs : Stumbles w r parent last e) :
    ∃ c, last.calls = [c] ∧ WorkCalls tree target (ps.map Placement.call ++ [c]) [] (.error e) := by
  obtain ⟨good, holds⟩ := hg.calls
  obtain ⟨answer, hlast, bad⟩ := hs.fault holds
  refine ⟨_, hlast, ?_, by simp, ?_, ?_, by simp⟩
  · intro c hc
    rcases List.mem_append.mp hc with hc | hc
    · exact placements_are_deposits ps c hc
    · rw [List.mem_singleton.mp hc]
      rfl
  · rw [List.append_nil, firstFault_append, good, firstFault, bad]
    rfl
  · rw [List.append_nil, List.dropLast_concat]
    exact good

/-- A remapping that is done has looked every link up. -/
theorem workCalls_of_relinks {ls : List Relink} {report : Report} (hg : Gains Walked.nothing ps w)
    (hw : Walks (tree.map (·, target)) ps [])
    (hls : ls.map (·.node) = (ps.flatMap Placement.visited).filter (·.subject.isRdf)) :
    WorkCalls tree target (ps.map Placement.call)
      (Transcript.calls (ls.flatMap (Relink.lines w.uris))) (.ok report) := by
  obtain ⟨hcalls, huris⟩ := calls_relinks w.uris ls
  have none := hg.faultless hcalls
  refine ⟨placements_are_deposits ps, fun c hc => (hcalls c hc).1, none, firstFault_dropLast none,
    ?_⟩
  rintro _ -
  refine ⟨ps, hw, rfl, ?_⟩
  rw [huris, ← hls, List.map_map]
  rfl

/-- A remapping that goes wrong does so at its last call. -/
theorem workCalls_of_misses {ls : List Relink} {v : Visited} {last : Transcript} {e : DepositError}
    (hg : Gains Walked.nothing ps w) (hm : Misses w.uris v last e) :
    WorkCalls tree target (ps.map Placement.call)
      (Transcript.calls (ls.flatMap (Relink.lines w.uris)) ++ last.calls) (.error e) := by
  obtain ⟨hcalls, -⟩ := calls_relinks w.uris ls
  obtain ⟨before, final, hlast, hbefore, hfinal, bad⟩ := hm.fault
  let edits := Transcript.calls (ls.flatMap (Relink.lines w.uris)) ++ before
  have hedits : ∀ c ∈ edits, (c.1.kind = .fetch ∨ c.1.kind = .patch) ∧ ∃ a, c.2 = .ok a := by
    intro c hc
    rcases List.mem_append.mp hc with hc | hc
    · exact hcalls c hc
    · exact ⟨.inl (hbefore c hc).1, (hbefore c hc).2⟩
  have none := hg.faultless hedits
  rw [hlast, ← List.append_assoc]
  refine ⟨placements_are_deposits ps, ?_, ?_, ?_, by simp⟩
  · intro c hc
    rcases List.mem_append.mp hc with hc | hc
    · exact (hedits c hc).1
    · rw [List.mem_singleton.mp hc]
      exact hfinal
  · rw [← List.append_assoc, firstFault_append, none, firstFault, bad]
    rfl
  · rw [← List.append_assoc, List.dropLast_concat]
    exact none

/-- **Up to its end a deposit makes deposits, then fetches and patches.** It ends at the first
fault; without one it leaves nothing out. -/
theorem calls_of_work (h : WorkTranscript tree target t result) :
    ∃ deposits edits, t.calls = deposits ++ edits ∧
      WorkCalls tree target deposits edits result := by
  rcases h with ⟨e, rfl, ps, r, parent, left, w, last, hw, rfl, hg, hs⟩ |
    ⟨w, walked, remapped, rfl, ⟨ps, hw, rfl, hg⟩, hr⟩
  · obtain ⟨c, hlast, calls⟩ := workCalls_of_stumbles hg hs
    refine ⟨_, [], ?_, calls⟩
    rw [Transcript.calls_append, calls_placements, hlast, List.append_nil]
  rw [hg.visited_eq hw] at hr
  cases result with
  | ok report =>
    obtain ⟨ls, hls, rfl, -⟩ := hr
    exact ⟨_, _, by rw [Transcript.calls_append, calls_placements],
      workCalls_of_relinks hg hw hls⟩
  | error e =>
    obtain ⟨ls, v, rest, last, hls, rfl, hm⟩ := hr
    exact ⟨_, _, by rw [Transcript.calls_append, Transcript.calls_append, calls_placements],
      workCalls_of_misses hg hm⟩

/-- Up to its end a deposit does not finish its session. -/
theorem kind_of_work (h : WorkTranscript tree target t result) :
    ∀ c ∈ t.calls, c.1.kind = .deposit ∨ c.1.kind = .fetch ∨ c.1.kind = .patch := by
  obtain ⟨deposits, edits, calls, work⟩ := calls_of_work h
  rw [calls]
  intro c hc
  rcases List.mem_append.mp hc with hc | hc
  · exact .inl (work.deposits_only c hc)
  · exact .inr (work.edits_only c hc)

/-- In particular it neither commits nor rolls back. -/
theorem unfinished_of_work (h : WorkTranscript tree target t result) :
    ∀ c ∈ t.calls, c.1.kind ≠ .commit ∧ c.1.kind ≠ .rollback := by
  intro c hc
  rcases kind_of_work h c hc with kind | kind | kind <;> rw [kind] <;> decide

end Work

/-- **A deposit finishes its session once.** For every session, of any state and with any answers,
the noted run does what the plain run does, and its calls are deposits, then fetches and patches,
then the end. Without a fault, which takes a whole walk and a whole remapping, the end is a commit
and the result is the commit's. After a first fault, at which the calls before the end stop, the
result is that fault; the end is a rollback, whatever it answers, unless the session's lifecycle was
broken, when nothing follows. -/
theorem deposit_finishes_once {σ : Type} (s : Session (StateM σ)) (notify : Event → StateM σ Unit)
    (tree : List Resource) (target : String) (x : σ) :
    let noted := ((depositTree s.noted (noteEvent notify) tree target).run []).run x
    let result := noted.1.1
    let calls := Transcript.calls noted.1.2
    (depositTree s notify tree target).run x = (result, noted.2) ∧
      (∃ deposits edits finish, calls = deposits ++ edits ++ finish ∧
        (∀ c ∈ deposits, c.1.kind = .deposit) ∧
        (∀ c ∈ edits, c.1.kind = .fetch ∨ c.1.kind = .patch) ∧
        firstFault [] (deposits ++ edits).dropLast = none ∧
        match firstFault [] (deposits ++ edits) with
        | none =>
          (∃ ps, Walks (tree.map (·, target)) ps [] ∧ deposits = ps.map Placement.call ∧
            fetchedUris edits =
              ((ps.flatMap Placement.visited).filter (·.subject.isRdf)).map (·.uri)) ∧
          ((∃ report, finish = [(.commit, .ok .done)] ∧ result = .ok report) ∨
            ∃ e, finish = [(.commit, .error e)] ∧ result = .error e)
        | some e =>
          result = .error e ∧
            if e.isIllegalState then finish = [] else ∃ answer, finish = [(.rollback, answer)]) ∧
      ((∃ report, result = .ok report) ↔ (.commit, .ok .done) ∈ calls) := by
  have follows : Notes s notify (ExceptT.mk (depositTree s.noted (noteEvent notify) tree target))
      (ExceptT.mk (depositTree s notify tree target)) (DepositTranscript tree target) :=
    notes_depositTree tree target
  obtain ⟨t, result, y, hn, hp, -, worked, work, finish, rfl, hwork, hfinish⟩ := follows [] x
  obtain ⟨deposits, edits, hcalls, hw⟩ := calls_of_work hwork
  have hn : ((depositTree s.noted (noteEvent notify) tree target).run []).run x =
    ((result, work ++ finish), y) := hn
  have uncommitted : (.commit, .ok .done) ∉ deposits ++ edits := by
    rw [← hcalls]
    exact fun hc => (unfinished_of_work hwork _ hc).1 rfl
  simp only [hn, Transcript.calls_append, hcalls]
  refine ⟨hp, ⟨deposits, edits, Transcript.calls finish, rfl, hw.deposits_only, hw.edits_only,
    hw.stops, ?_⟩, ?_⟩
  · rw [hw.fault]
    cases hfinish with
    | committed report => exact ⟨hw.whole report rfl, .inl ⟨report, rfl, rfl⟩⟩
    | refused report e => exact ⟨hw.whole report rfl, .inr ⟨e, rfl, rfl⟩⟩
    | rolledBack e legal answer =>
      refine ⟨rfl, ?_⟩
      rw [legal]
      exact ⟨answer, rfl⟩
    | broken e illegal =>
      refine ⟨rfl, ?_⟩
      rw [illegal]
      rfl
  · rw [List.mem_append, or_iff_right uncommitted]
    cases hfinish with
    | committed report => simp
    | refused report e => simp
    | rolledBack e legal answer => simp
    | broken e illegal => simp

end LinkedDeposit
