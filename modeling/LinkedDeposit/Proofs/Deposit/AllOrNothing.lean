import LinkedDeposit.Proofs.Deposit.Coverage
import LinkedDeposit.Proofs.Deposit.Interference

/-!
# A deposit commits everything or nothing

The session of a deposit may be interfered with at every call (`Session.disturbed`). Whatever comes
of that, the repository is changed by the commit alone, and a deposit that reports success has
committed what the session created for every resource of the package.

Results:
* `repository_of_answers`: without a commit that succeeds the repository stays as it is.
* `staged_of_deposits`, `becomes_of_edits`: what deposits stage stays staged until the end, and
  fetches and patches make of it a later state of the same resource.
* `deposit_all_or_nothing`: both together.
-/

namespace LinkedDeposit

/-- A resource was deposited, whatever the caller was told of it, and what the session created for
it is committed: there is something at each URI that it gave out, and unless it gave out a URI
twice this is what was uploaded there or a later state of it. -/
def Delivered (files : Files) (repository : Repository) (given : List String)
    (place : Resource × Option Nat) (d : Dealing) : Prop :=
  ∃ parent real told,
    d = .answered (.deposit place.1 parent) (.deposited real) (.deposited told) ∧
      real = place.1.placed real.uri ∧
        ∀ uri ∈ real.uris, ∃ committed, repository.get? uri = some committed ∧
          (given.Nodup → ∃ new uploaded, place.1.stored files real.uri = .ok new ∧
            new.get? uri = some uploaded ∧ uploaded.Becomes committed)

namespace Workspace

variable {host : Host} {name : String} {w w' : Workspace} {cs : List Answered}

/-! ## What calls leave alone -/

/-- **Without a commit that succeeds the repository stays as it is.** -/
theorem repository_of_answers (h : Answers (session host name) w cs w')
    (uncommitted : ∀ c ∈ cs, c.1 = .commit → ∃ e, c.2 = .error e) :
    w'.repository = w.repository := by
  induction cs generalizing w with
  | nil => exact congrArg repository (h : w = w').symm
  | cons c cs ih =>
    obtain ⟨c, answer⟩ := c
    obtain ⟨r, t, performed, rest⟩ := performs_of_answers h
    rw [ih rest fun c hc => uncommitted c (List.mem_cons_of_mem _ hc)]
    change r = w.repository
    cases performed with
    | committed =>
      obtain ⟨e, he⟩ := uncommitted _ List.mem_cons_self rfl
      cases he
    | _ => rfl

/-- **What deposits stage stays staged**, at least by something in its place. -/
theorem staged_of_deposits {ps : List Placement}
    (h : Answers (session host name) w (ps.map Placement.call) w') {uri : String}
    (placed : uri ∈ ps.flatMap Placement.uris ∨
      ((w.transaction name).staged.get? uri).isSome = true) :
    ((w'.transaction name).staged.get? uri).isSome = true := by
  induction ps generalizing w with
  | nil =>
    obtain rfl : w = w' := h
    exact placed.elim (fun none => by cases none) id
  | cons p ps ih =>
    obtain ⟨new, named, stored, rest⟩ := places_cons h
    refine ih rest ?_
    rw [transaction_deposited, Transaction.place, Table.get?_union, Option.isSome_or,
      Bool.or_eq_true]
    rw [List.flatMap_cons, List.mem_append] at placed
    rcases placed with (own | later) | before
    · rw [(Placement.isPlaced_of_answer named).uris_eq] at own
      exact .inr (.inl ((Resource.get?_stored_isSome stored uri).mpr own))
    · exact .inl later
    · exact .inr (.inr before)

/-- **Fetches and patches make of what is staged a later state of it.** -/
theorem becomes_of_edits (h : Answers (session host name) w cs w')
    (edits : ∀ c ∈ cs, c.1.kind = .fetch ∨ c.1.kind = .patch) {uri : String} {staged : Stored}
    (here : (w.transaction name).staged.get? uri = some staged) :
    ∃ later, (w'.transaction name).staged.get? uri = some later ∧ staged.Becomes later := by
  induction cs generalizing w staged with
  | nil =>
    obtain rfl : w = w' := h
    exact ⟨staged, here, .refl staged⟩
  | cons c cs ih =>
    obtain ⟨c, answer⟩ := c
    obtain ⟨r, t, performed, rest⟩ := performs_of_answers h
    have step : ∃ next, t.staged.get? uri = some next ∧ staged.Becomes next := by
      cases performed with
      | patched k p seen unfinished proper hl =>
        rw [Transaction.get?_staged_amend]
        by_cases hk : uri = k
        · subst hk
          obtain ⟨found, hf, rfl⟩ := Transaction.found_of_lookup hl
          rw [here, Option.some_or] at hf
          obtain rfl := Option.some.inj hf
          exact ⟨_, if_pos rfl, .of_lt rfl rfl (Nat.lt_succ_self _)⟩
        · exact ⟨staged, (if_neg hk).trans here, .refl staged⟩
      | placed | committed | rolledBack =>
        -- no fetch and no patch comes to this
        rcases edits _ List.mem_cons_self with hk | hk <;> cases hk
      | _ => exact ⟨staged, here, .refl staged⟩
    obtain ⟨next, hn, becomes⟩ := step
    obtain ⟨later, hl, becomes'⟩ := ih rest (fun c hc => edits c (List.mem_cons_of_mem _ hc))
      (by rw [transaction_after_self]; exact hn)
    exact ⟨later, hl, becomes.trans becomes'⟩

/-! ## Deposits that are interfered with -/

/-- What a caller hears as placements the session has made as placements of the same resources. -/
theorem placements_of_dealings {ds : List Dealing} {ps : List Placement}
    (heard : ds.map Dealing.heard = ps.map Placement.call)
    (h : Answers (session host name) w (ds.flatMap Dealing.reached) w') :
    ∃ qs : List Placement, ds.flatMap Dealing.reached = qs.map Placement.call ∧
      ds.flatMap Dealing.given = qs.flatMap Placement.uris ∧
      ∀ d ∈ ds, ∃ q ∈ qs, ∃ told,
        d = .answered (.deposit q.resource q.parent) (.deposited q.answer) (.deposited told) := by
  induction ds generalizing w ps with
  | nil => exact ⟨[], rfl, rfl, by simp⟩
  | cons d ds ih =>
    cases ps with
    | nil => cases heard
    | cons p ps =>
      obtain ⟨first, others⟩ := List.cons.inj heard
      cases d with
      | stopped | refused => cases congrArg Prod.snd first
      | answered c real told =>
        obtain rfl : c = .deposit p.resource p.parent := congrArg Prod.fst first
        obtain rfl : told = .deposited p.answer := Except.ok.inj (congrArg Prod.snd first)
        obtain ⟨r, t, performed, rest⟩ := performs_of_answers h
        cases performed with
        | placed _ _ container new unfinished seen isContainer stored =>
          obtain ⟨qs, reached, given, all⟩ := ih others rest
          let q : Placement := ⟨p.resource, p.parent,
            p.resource.placed (Transaction.childUri p.parent (host.freshName (w.deposits + 1)))⟩
          refine ⟨q :: qs, congrArg (q.call :: ·) reached, congrArg (q.uris ++ ·) given, ?_⟩
          rintro d (_ | ⟨_, hd⟩)
          · exact ⟨q, List.mem_cons_self, p.answer, rfl⟩
          · obtain ⟨q', hq, told, rfl⟩ := all d hd
            exact ⟨q', List.mem_cons_of_mem _ hq, told, rfl⟩

/-- The calls that reach the session are of the kinds that the caller has made. -/
theorem kind_of_reached {ds : List Dealing} {P : CallKind → Prop}
    (heard : ∀ c ∈ ds.map Dealing.heard, P c.1.kind) :
    ∀ c ∈ ds.flatMap Dealing.reached, P c.1.kind := by
  intro c hc
  obtain ⟨d, hd, hc⟩ := List.mem_flatMap.mp hc
  rw [(d.mem_reached hc).1, ← d.fst_heard]
  exact heard _ (List.mem_map_of_mem hd)

/-- A call that its caller hears failing has not gone well at the session. -/
theorem failed_of_heard {ds : List Dealing} {k : SessionCall}
    (heard : ∀ c ∈ ds.map Dealing.heard, c.1 = k → ∃ e, c.2 = .error e) :
    ∀ c ∈ ds.flatMap Dealing.reached, c.1 = k → ∃ e, c.2 = .error e := by
  rintro ⟨c, e | a⟩ hc hk
  · exact ⟨e, rfl⟩
  · obtain ⟨d, hd, hc⟩ := List.mem_flatMap.mp hc
    obtain ⟨same, well⟩ := d.mem_reached hc
    obtain ⟨told, ht⟩ := well a rfl
    obtain ⟨e, he⟩ := heard _ (List.mem_map_of_mem hd) (d.fst_heard.trans (same.symm.trans hk))
    cases ht.symm.trans he

/-- What was uploaded is committed after some fetches and patches, if need be in a later state. -/
theorem committed_of_placement {qs : List Placement} {v : Workspace}
    (deposits : Answers (session host name) w (qs.map Placement.call) v)
    (answers : Answers (session host name) v cs w')
    (edits : ∀ c ∈ cs, c.1.kind = .fetch ∨ c.1.kind = .patch) {q : Placement} (hq : q ∈ qs)
    {uri : String} (given : uri ∈ q.uris) :
    ∃ committed, ((w'.transaction name).merge w'.repository).get? uri = some committed ∧
      ((qs.flatMap Placement.uris).Nodup → ∃ new uploaded,
        q.resource.stored host.files q.uri = .ok new ∧ new.get? uri = some uploaded ∧
          uploaded.Becomes committed) := by
  obtain ⟨staged, here⟩ := Option.isSome_iff_exists.mp
    (staged_of_deposits deposits (.inl (List.mem_flatMap.mpr ⟨q, hq, given⟩)))
  obtain ⟨later, hl, becomes⟩ := becomes_of_edits answers edits here
  refine ⟨later.containAll uri (w'.transaction name).contained, ?_, fun distinct => ?_⟩
  · rw [Transaction.get?_merge, hl]
    rfl
  · obtain ⟨new, stored, same⟩ := (places_of_answers deposits).staged distinct q hq
    refine ⟨new, staged, stored, (same uri given).symm.trans here, becomes.trans ?_⟩
    exact later.becomes_containAll uri _

/-- **A deposit that its caller hears going well delivers the package.** -/
theorem delivers_of_dealings {tree : List Resource} {target : String} {ps : List Placement}
    {deposits edits : List Dealing} {last : Dealing} (hw : Walks (tree.map (·, target)) ps [])
    (placed : deposits.map Dealing.heard = ps.map Placement.call)
    (edited : ∀ c ∈ edits.map Dealing.heard, c.1.kind = .fetch ∨ c.1.kind = .patch)
    (ended : last.heard = (.commit, .ok .done))
    (h : Answers (session host name) w ((deposits ++ edits ++ [last]).flatMap Dealing.reached) w') :
    List.Forall₂ (Delivered host.files w'.repository (deposits.flatMap Dealing.given))
      (Resource.outlineAll 0 none tree) deposits := by
  rw [List.flatMap_append, List.flatMap_append] at h
  obtain ⟨v', h, finish⟩ := answers_append.mp h
  obtain ⟨v, first, second⟩ := answers_append.mp h
  obtain ⟨qs, reached, given, all⟩ := placements_of_dealings placed first
  rw [reached] at first
  have merged : w'.repository = (v'.transaction name).merge v'.repository := by
    cases last with
    | stopped | refused => cases congrArg Prod.snd ended
    | answered c real told =>
      obtain rfl : c = .commit := congrArg Prod.fst ended
      obtain ⟨r, t, performed, rfl⟩ := performs_of_answers finish
      cases performed with
      | committed => rfl
  -- the deposits follow the outline, and each has a real placement
  have along := deposits_of_walks hw
  rw [← placed, List.forall₂_map_right_iff, List.forall₂_iff_zip] at along
  refine List.forall₂_iff_zip.mpr ⟨along.1, fun {place d} hzip => ?_⟩
  obtain ⟨parent, -, called⟩ := along.2 hzip
  obtain ⟨q, hq, told, rfl⟩ := all d (List.of_mem_zip hzip).2
  obtain ⟨same, -⟩ := SessionCall.deposit.inj called
  have named : q.IsPlaced := (places_of_answers first).minted.isPlaced q hq
  have edited := kind_of_reached (P := fun k => k = .fetch ∨ k = .patch) edited
  rw [Delivered, merged, given, ← same]
  exact ⟨q.parent, q.answer, told, rfl, named,
    fun _ => committed_of_placement first second edited hq⟩

end Workspace

/-- A deposit that fails has made no commit that succeeds. -/
theorem DepositTranscript.uncommitted {tree : List Resource} {target : String} {t : Transcript}
    {e : DepositError} (h : DepositTranscript tree target t (.error e)) :
    ∀ c ∈ t.calls, c.1 = .commit → ∃ e, c.2 = .error e := by
  obtain ⟨work, done, finish, rfl, hwork, hfinish⟩ := h
  intro c hc hcommit
  rw [Transcript.calls_append, List.mem_append] at hc
  rcases hc with hc | hc
  · exact absurd (congrArg SessionCall.kind hcommit) (unfinished_of_work hwork c hc).1
  · cases hfinish with
    | refused report =>
      obtain rfl := List.mem_singleton.mp hc
      exact ⟨e, rfl⟩
    | rolledBack =>
      obtain rfl := List.mem_singleton.mp hc
      cases hcommit
    | broken => cases hc

/-- **A deposit commits everything or nothing**, whatever comes between it and its session: calls
that fail without reaching the session and answers that are altered, chosen as one likes from all
that went before. If it reports an error, every committed resource is as it was. If it reports
success, it has asked for every resource of the package, and what the session created for each of
them, a description included, is committed at the URIs that the session gave out; the caller was
told the same URIs unless this answer was altered. -/
theorem deposit_all_or_nothing {τ : Type} (host : Host) (name : String)
    (meddle : List Dealing → SessionCall → Interference) (observe : Event → τ → τ)
    (tree : List Resource) (target : String) (w : Workspace) (past : List Dealing) (z : τ) :
    let s := ((Workspace.session host name).disturbed meddle).beside τ
    let run := (depositTree s (watching observe) tree target).run ((w, past), z)
    ∃ dealings, run.2.1.2 = past ++ dealings ∧
      match run.1 with
      | .error _ => run.2.1.1.repository = w.repository
      | .ok _ => ∃ deposits rest, dealings = deposits ++ rest ∧
        (∀ d ∈ rest, d.call.kind ≠ .deposit) ∧
        List.Forall₂
          (Delivered host.files run.2.1.1.repository (deposits.flatMap Dealing.given))
          (Resource.outlineAll 0 none tree) deposits := by
  intro s run
  have follows : Notes s (watching observe)
      (ExceptT.mk (depositTree s.noted (noteEvent (watching observe)) tree target))
      (ExceptT.mk (depositTree s (watching observe) tree target))
      (DepositTranscript tree target) := notes_depositTree tree target
  obtain ⟨t, result, y, -, hp, plays, transcript⟩ := follows [] ((w, past), z)
  obtain ⟨dealings, log, heard, answers⟩ := answers_of_disturbed (answers_of_plays plays)
  have hrun : run = (result, y) := hp
  rw [hrun]
  refine ⟨dealings, log, ?_⟩
  cases result with
  | error e =>
    refine Workspace.repository_of_answers answers (Workspace.failed_of_heard ?_)
    rw [heard]
    exact transcript.uncommitted
  | ok report =>
    obtain ⟨work, done, finish, rfl, hwork, hfinish⟩ := transcript
    cases hfinish
    obtain ⟨asked, edited, hcalls, hw⟩ := calls_of_work hwork
    obtain ⟨ps, walks, rfl, -⟩ := hw.whole report rfl
    rw [Transcript.calls_append, hcalls] at heard
    obtain ⟨before, ending, rfl, worked, ended⟩ := List.map_eq_append_iff.mp heard
    obtain ⟨deposits, edits, rfl, placed, rfl⟩ := List.map_eq_append_iff.mp worked
    obtain ⟨last, rfl, committed⟩ := List.map_eq_singleton_iff.mp ended
    refine ⟨deposits, edits ++ [last], List.append_assoc .., fun d hd => ?_, ?_⟩
    · rw [← d.fst_heard]
      rcases List.mem_append.mp hd with hd | hd
      · rcases hw.edits_only _ (List.mem_map_of_mem hd) with kind | kind <;> rw [kind] <;> decide
      · rw [List.mem_singleton.mp hd, committed]
        decide
    · exact Workspace.delivers_of_dealings walks placed hw.edits_only committed answers

end LinkedDeposit
