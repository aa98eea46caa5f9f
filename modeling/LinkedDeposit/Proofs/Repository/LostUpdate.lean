import LinkedDeposit.Proofs.Repository.Coherence

/-!
# No lost update

A session may patch a resource long after it fetched it, and commit still later; in between other
sessions commit what they like. If the token of the fetch is accepted and so is the commit, then no
change was overlooked: right before the commit the resource is what the session had fetched.

The token is compared with the version that the session sees, and the first patch of a resource
notes the committed version for the commit to compare. Versions name states, so equal versions
suffice.

Results:
* `remembers_run`: what a transaction says of its session's past (`Remembers`).
* `noted_ge_run`, `noted_run`: a version is noted from the committed resource, and is kept.
* `no_lost_update`.
-/

namespace LinkedDeposit

namespace Performed

/-- Whether the call patched the resource at a URI. An empty patch is none. -/
def patches (uri : String) (p : Performed) : Bool :=
  match p.call with
  | .patch patched patch _ => p.succeeded && patched = uri && !patch.isEmpty
  | _ => false

/-- The parent and the new child, if the call created something. -/
def child? (p : Performed) : Option (String × String) :=
  match p.call, p.answer with
  | .deposit _ parent, .ok (.deposited d) => some (parent, d.uri)
  | _, _ => none

end Performed

/-- The children that a session has deposited, each with its parent. -/
def childrenOf (name : String) (trace : List Performed) : List (String × String) :=
  (trace.filter (·.session = name)).filterMap Performed.child?

theorem childrenOf_concat (name : String) (trace : List Performed) (p : Performed) :
    childrenOf name (trace ++ [p]) =
      childrenOf name trace ++ if p.session = name then p.child?.toList else [] := by
  unfold childrenOf
  rw [List.filter_append, List.filterMap_append, List.filter_cons, List.filter_nil]
  by_cases h : p.session = name
  · cases hp : p.child? <;> simp [h, hp]
  · simp [h]

/-! ## What a call adds to a transaction -/

namespace Transaction

variable {files : Files} {name : String} {r r' : Repository} {t t' : Transaction}
  {c : SessionCall} {answer : Except DepositError SessionAnswer}

/-- A call adds the child that it creates, unless the session is finished. -/
theorem Performs.contained (h : Performs files name r t c answer r' t') (session : String) :
    t'.lifecycle.isFinished = true ∨
      t'.contained = t.contained ++ (Performed.child? ⟨session, name, c, answer⟩).toList := by
  cases h with
  | refused c e finished => exact .inl finished
  | failed c e unfinished =>
    refine .inr ?_
    cases c <;> exact (List.append_nil _).symm
  | placed => exact .inr rfl
  | fetched | unasked | patched | conflicting => exact .inr (List.append_nil _).symm
  | committed | rolledBack => exact .inl rfl

/-- A call notes a version only when it is the first to patch a resource, and it is the committed
version then. -/
theorem Performs.baseVersions (h : Performs files name r t c answer r' t')
    (session uri : String) :
    t'.baseVersions.get? uri = t.baseVersions.get? uri ∨
      (t'.lifecycle.isFinished = true ∧ t'.baseVersions.get? uri = none) ∨
      (t.staged.get? uri = none ∧
        Performed.patches uri ⟨session, name, c, answer⟩ = true ∧
        ∃ committed, r.get? uri = some committed ∧
          t'.baseVersions.get? uri = some committed.version) := by
  cases h with
  | patched patched p stored unfinished proper seen =>
    rw [get?_baseVersions_amend]
    split
    case isTrue h =>
      obtain ⟨rfl, hs⟩ := h
      obtain ⟨committed, hc, rfl⟩ := found_of_lookup seen
      rw [hs, Option.none_or] at hc
      refine .inr (.inr ⟨hs, ?_, committed, hc, rfl⟩)
      simp [Performed.patches, Performed.succeeded, Except.toBool, proper]
    case isFalse => exact .inl rfl
  | committed | rolledBack => exact .inr (.inl ⟨rfl, rfl⟩)
  | refused | failed | placed | fetched | unasked | conflicting => exact .inl rfl

end Transaction

namespace Workspace

/-! ## What a transaction says of its session's past -/

/-- An open transaction knows the children that its session has deposited, and a version is noted
only for what it has patched. -/
structure Remembers (trace : List Performed) (w : Workspace) : Prop where
  children : ∀ name, (w.transaction name).lifecycle.isFinished = false →
    (w.transaction name).contained = childrenOf name trace
  patched : ∀ name uri version, (w.transaction name).baseVersions.get? uri = some version →
    ∃ p ∈ trace, p.session = name ∧ p.patches uri = true

variable {host : Host} {w : Workspace} {name : String} {c : SessionCall}

theorem remembers_start (start : Repository) (deposits : Nat) :
    Remembers [] ⟨start, Table.empty, deposits⟩ where
  children _ _ := rfl
  patched _ _ _ h := nomatch h

theorem remembers_step {trace : List Performed} (h : Remembers trace w) :
    Remembers (trace ++ [w.performed host name c]) (w.step host name c).2 := by
  obtain ⟨answer, r, t, hstep, performed⟩ := step_performs host name c w
  unfold Workspace.performed
  rw [hstep]
  refine ⟨fun other unfinished => ?_, fun other uri version hv => ?_⟩
  · rw [transaction_after] at unfinished ⊢
    rw [childrenOf_concat]
    by_cases hn : other = name
    · subst hn
      rw [if_pos rfl] at unfinished ⊢
      rw [if_pos rfl]
      rcases performed.contained other with finished | hc
      · rw [finished] at unfinished
        cases unfinished
      · rw [hc, h.children other (performed.unfinished_before unfinished)]
    · rw [if_neg hn] at unfinished ⊢
      rw [if_neg (Ne.symm hn), List.append_nil]
      exact h.children other unfinished
  · rw [transaction_after] at hv
    have old (hv : (w.transaction other).baseVersions.get? uri = some version) :
        ∃ p ∈ trace ++ [⟨name, host.freshName (w.deposits + 1), c, answer⟩],
          p.session = other ∧ p.patches uri = true := by
      obtain ⟨p, hp, rest⟩ := h.patched other uri version hv
      exact ⟨p, List.mem_append_left _ hp, rest⟩
    by_cases hn : other = name
    · subst hn
      rw [if_pos rfl] at hv
      rcases performed.baseVersions other uri with same | ⟨-, none⟩ | ⟨-, hp, -⟩
      · exact old (same ▸ hv)
      · rw [none] at hv
        cases hv
      · exact ⟨_, List.mem_append_right _ List.mem_cons_self, rfl, hp⟩
    · rw [if_neg hn] at hv
      exact old hv

theorem remembers_run {schedule : List (String × SessionCall)} {start : Repository}
    {deposits : Nat} (fresh : MintsFresh host schedule ⟨start, Table.empty, deposits⟩) :
    let (trace, w) := run host schedule ⟨start, Table.empty, deposits⟩
    Remembers trace w :=
  run_induction (P := Remembers) (remembers_start start deposits)
    (fun _ _ _ _ h _ => remembers_step h) fresh

/-! ## Noted versions -/

/-- A version that is noted while a repository evolves is not older than that. -/
theorem noted_ge_run {schedule : List (String × SessionCall)} (h : w.Coherent)
    (fresh : MintsFresh host schedule w) {name uri : String} {committed : Stored}
    (hc : w.repository.get? uri = some committed)
    (new : (w.transaction name).baseVersions.get? uri = none) {version : Nat}
    (noted : ((run host schedule w).2.transaction name).baseVersions.get? uri = some version) :
    committed.version ≤ version := by
  let P (v : Workspace) : Prop := w.repository.Evolves v.repository ∧
    ∀ version, (v.transaction name).baseVersions.get? uri = some version →
      committed.version ≤ version
  have step (v : Workspace) (actor : String) (c : SessionCall) (coherent : v.Coherent)
      (fresh : v.CreatesFresh host actor c) (hv : P v) : P (v.step host actor c).2 := by
    obtain ⟨evolved, ge⟩ := hv
    refine ⟨evolved.trans (coherent_step coherent fresh).2, fun version hversion => ?_⟩
    obtain ⟨answer, r, t, hstep, performed⟩ := step_performs host actor c v
    rw [hstep, transaction_after] at hversion
    split at hversion
    case isFalse => exact ge version hversion
    case isTrue hn =>
      subst hn
      rcases performed.baseVersions name uri with same | ⟨-, none⟩ | ⟨-, -, b, hb, hn⟩
      · exact ge version (same ▸ hversion)
      · rw [none] at hversion
        cases hversion
      · obtain ⟨b', hb', becomes⟩ := evolved uri committed hc
        obtain rfl := Option.some.inj (hb.symm.trans hb')
        obtain rfl := Option.some.inj (hn.symm.trans hversion)
        exact becomes.version
  have init : P w := ⟨.refl _, fun version hv => by rw [new] at hv; cases hv⟩
  exact (h.run_induction init step fresh).2 version noted

/-- A noted version is kept until the session is finished. -/
theorem noted_run {schedule : List (String × SessionCall)} (h : w.Coherent)
    (fresh : MintsFresh host schedule w) {name uri : String} {version : Nat}
    (noted : (w.transaction name).baseVersions.get? uri = some version)
    (unfinished : ((run host schedule w).2.transaction name).lifecycle.isFinished = false) :
    ((run host schedule w).2.transaction name).baseVersions.get? uri = some version := by
  let P (v : Workspace) : Prop := (v.transaction name).lifecycle.isFinished = true ∨
    (v.transaction name).baseVersions.get? uri = some version
  have step (v : Workspace) (actor : String) (c : SessionCall) (coherent : v.Coherent)
      (_ : v.CreatesFresh host actor c) (kept : P v) : P (v.step host actor c).2 := by
    obtain ⟨answer, r, t, hstep, performed⟩ := step_performs host actor c v
    change _ ∨ _
    rw [hstep, transaction_after]
    split
    case isFalse => exact kept
    case isTrue hn =>
      subst hn
      rcases kept with finished | kept
      · rw [(performed.refused_of_finished finished).2]
        exact .inl finished
      rcases performed.baseVersions name uri with same | ⟨finished, -⟩ | ⟨none, -⟩
      · exact .inr (same.trans kept)
      · exact .inl finished
      · obtain ⟨s, -, hs, -⟩ := (coherent.fits name).patched uri version kept
        rw [none] at hs
        cases hs
  rcases h.run_induction (P := P) (.inr noted) step fresh with finished | kept
  · rw [finished] at unfinished
    cases unfinished
  · exact kept

/-! ## From the fetch to the commit -/

/-- A fetch answers what is committed, with the session's own new children. -/
theorem fetched_committed {uri : String} {g : Graph} {token : Token} {committed : Stored}
    (h : w.Coherent) (hc : w.repository.get? uri = some committed)
    (new : (w.transaction name).baseVersions.get? uri = none)
    (fetched : (w.step host name (.fetch uri)).1 = .ok (.fetched g token)) :
    (w.transaction name).lifecycle.isFinished = false ∧ token = committed.token ∧
      g = committed.graph.union
        (Repository.containments uri (w.transaction name).contained) := by
  have unstaged : (w.transaction name).staged.get? uri = none := by
    cases hs : (w.transaction name).staged.get? uri with
    | none => rfl
    | some staged =>
      obtain ⟨version, hv⟩ := (h.fits name).noted hs hc
      rw [new] at hv
      cases hv
  obtain ⟨answer, r, t, hstep, performed⟩ := step_performs host name (.fetch uri) w
  rw [hstep] at fetched
  obtain rfl : answer = _ := fetched
  obtain ⟨unfinished, -, -, seen, hl, rfl, rfl⟩ := performed.fetched_inv
  obtain ⟨found, hf, rfl⟩ := Transaction.found_of_lookup hl
  rw [unstaged, Option.none_or, hc] at hf
  obtain rfl := Option.some.inj hf
  exact ⟨unfinished, rfl, rfl⟩

/-- A fetch changes neither the committed resources nor the noted versions. -/
theorem fetch_keeps (w : Workspace) (host : Host) (name uri : String) :
    (w.step host name (.fetch uri)).2.repository = w.repository ∧
      ((w.step host name (.fetch uri)).2.transaction name).baseVersions =
        (w.transaction name).baseVersions := by
  obtain ⟨answer, r, t, hstep, performed⟩ := step_performs host name (.fetch uri) w
  rw [hstep, transaction_after, if_pos rfl]
  cases performed <;> exact ⟨rfl, rfl⟩

/-- A patch with the token of an earlier committed state notes its version: the session has not
patched the resource before, and no other session has. -/
theorem patched_committed {uri : String} {p : Patch} {token : Token} {a b : Stored}
    (h : w.Coherent) (hb : w.repository.get? uri = some b)
    (noted : ∀ version, (w.transaction name).baseVersions.get? uri = some version →
      a.version ≤ version)
    (proper : p.isEmpty = false) (ht : token = a.token)
    (patched : (w.step host name (.patch uri p token)).1 = .ok .done) :
    ((w.step host name (.patch uri p token)).2.transaction name).baseVersions.get? uri =
      some a.version := by
  obtain ⟨answer, r, t, hstep, performed⟩ := step_performs host name (.patch uri p token) w
  rw [hstep] at patched
  obtain rfl : answer = _ := patched
  rw [hstep, transaction_after, if_pos rfl]
  obtain ⟨-, seen, hl, hseen, rfl⟩ := performed.patched_inv proper
  obtain ⟨found, hf, rfl⟩ := Transaction.found_of_lookup hl
  have hv : found.version = a.version := Stored.token_injective (hseen.symm.trans ht)
  rw [Transaction.get?_baseVersions_amend]
  cases hs : (w.transaction name).staged.get? uri with
  | none =>
    rw [if_pos ⟨rfl, rfl⟩]
    exact congrArg some hv
  | some staged =>
    -- what the session has patched before is newer than what it then noted
    rw [hs, Option.some_or] at hf
    obtain rfl := Option.some.inj hf
    obtain ⟨version, hversion⟩ := (h.fits name).noted hs hb
    obtain ⟨staged', -, hs', -, -, newer, -⟩ := (h.fits name).patched uri version hversion
    obtain rfl := Option.some.inj (hs.symm.trans hs')
    have := noted version hversion
    omega

/-- A commit that succeeds finds every noted version committed. -/
theorem committed_of_commit (done : (w.step host name .commit).1 = .ok .done) :
    (w.transaction name).lifecycle.isFinished = false ∧ ∀ uri version,
      (w.transaction name).baseVersions.get? uri = some version →
        ∃ committed, w.repository.get? uri = some committed ∧ committed.version = version := by
  obtain ⟨answer, r, t, hstep, performed⟩ := step_performs host name .commit w
  rw [hstep] at done
  obtain rfl : answer = _ := done
  obtain ⟨unfinished, agreed, -⟩ := performed.committed_inv
  exact ⟨unfinished, Transaction.conflict?_eq_none_iff.mp agreed⟩

/-- The committed state that a session has fetched is still there when it commits. -/
theorem unchanged_until_commit {uri : String} {p : Patch} {token : Token} {a : Stored}
    {between later : List (String × SessionCall)} (h : w.Coherent)
    (ha : w.repository.get? uri = some a)
    (new : (w.transaction name).baseVersions.get? uri = none) (ht : token = a.token)
    (proper : p.isEmpty = false)
    (fresh : MintsFresh host (between ++ (name, .patch uri p token) :: later) w)
    (patched : ((run host between w).2.step host name (.patch uri p token)).1 = .ok .done)
    (done : ((run host (between ++ (name, .patch uri p token) :: later) w).2.step host name
      .commit).1 = .ok .done) :
    (run host (between ++ (name, .patch uri p token) :: later) w).2.repository.get? uri =
      some a := by
  obtain ⟨freshBetween, freshPatch, freshLater⟩ := mintsFresh_append.mp fresh
  have coherent := coherent_run h freshBetween
  have evolved := evolves_run h fresh
  obtain ⟨b, hb, -⟩ := evolves_run h freshBetween uri a ha
  have noted := patched_committed coherent hb
    (fun _ => noted_ge_run h freshBetween ha new) proper ht patched
  rw [run_append] at done evolved ⊢
  simp only [run] at done evolved ⊢
  obtain ⟨unfinished, agreed⟩ := committed_of_commit done
  have kept := noted_run (coherent_step coherent freshPatch).1 freshLater noted unfinished
  obtain ⟨c, hc, hv⟩ := agreed uri a.version kept
  rw [hc, evolved.eq_of_version ha hc hv]

/-- **No update is lost.** Along every schedule committed versions never decrease, and grow with
every change of a committed graph. If a session fetches a committed resource that it has not
patched, patches it later with the token that it was given, and commits, then right before the
commit the committed graph is the fetched one, up to the children that the session had deposited
there. -/
theorem no_lost_update (host : Host) (start : Repository) (deposits : Nat)
    (schedule : List (String × SessionCall))
    (fresh : MintsFresh host schedule ⟨start, Table.empty, deposits⟩) :
    let start : Workspace := ⟨start, Table.empty, deposits⟩
    (∀ earlier later rest, schedule = earlier ++ (later ++ rest) →
      ∀ uri a, (run host earlier start).2.repository.get? uri = some a →
        ∃ b, (run host (earlier ++ later) start).2.repository.get? uri = some b ∧
          a.version ≤ b.version ∧ (a.graph ≠ b.graph → a.version < b.version)) ∧
    ∀ before between later rest name uri p token g committed,
      schedule = before ++ (name, .fetch uri) ::
        (between ++ (name, .patch uri p token) :: (later ++ (name, .commit) :: rest)) →
      let (trace, w₁) := run host before start
      let w₂ := (run host between (w₁.step host name (.fetch uri)).2).2
      let w₃ := (run host later (w₂.step host name (.patch uri p token)).2).2
      w₁.repository.get? uri = some committed →
      (∀ q ∈ trace, q.session = name → q.patches uri = false) →
      (w₁.step host name (.fetch uri)).1 = .ok (.fetched g token) →
      p.isEmpty = false →
      (w₂.step host name (.patch uri p token)).1 = .ok .done →
      (w₃.step host name .commit).1 = .ok .done →
      ∃ stored, w₃.repository.get? uri = some stored ∧
        stored.graph.union (Repository.containments uri (childrenOf name trace)) = g := by
  have coherent := coherent_idle start deposits
  refine ⟨?_, ?_⟩
  · rintro earlier later rest rfl uri a ha
    obtain ⟨freshEarlier, freshRest⟩ := mintsFresh_append.mp fresh
    obtain ⟨b, hb, becomes⟩ := evolves_run (coherent_run coherent freshEarlier)
      (mintsFresh_append.mp freshRest).1 uri a ha
    rw [run_append]
    exact ⟨b, hb, becomes.version, becomes.version_lt⟩
  · rintro before between later rest name uri p token g committed rfl
    intro hc unpatched fetched proper patched done
    obtain ⟨freshBefore, freshFetch, freshRest⟩ := mintsFresh_append.mp fresh
    have coherent := coherent_run coherent freshBefore
    have remembers := remembers_run freshBefore
    have new : ((run host before ⟨start, Table.empty, deposits⟩).2.transaction
        name).baseVersions.get? uri = none := by
      refine Option.eq_none_iff_forall_ne_some.mpr fun version hv => ?_
      obtain ⟨q, hq, hs, hp⟩ := remembers.patched name uri version hv
      rw [unpatched q hq hs] at hp
      cases hp
    obtain ⟨unfinished, ht, hg⟩ := fetched_committed coherent hc new fetched
    obtain ⟨sameRepository, sameNoted⟩ := fetch_keeps
      (run host before ⟨start, Table.empty, deposits⟩).2 host name uri
    rw [← List.cons_append, ← List.append_assoc] at freshRest
    have unchanged := unchanged_until_commit (coherent_step coherent freshFetch).1
      (by rw [sameRepository, hc]) (by rw [sameNoted, new]) ht proper
      (mintsFresh_append.mp freshRest).1 patched (by rw [run_append]; exact done)
    rw [run_append] at unchanged
    exact ⟨committed, unchanged, by rw [hg, remembers.children name unfinished]⟩

/-- A statement to be added to the container. -/
def titled : Patch := ⟨Graph.empty.insert ⟨.iri "r", "title", .iri "t"⟩, Graph.empty⟩

/-- A session deposits below a container, fetches and patches it, and commits; another one looks
on. -/
def patchedContainer : List (String × SessionCall) :=
  [("a", .deposit (.rdfSource "x" Graph.empty) "r"), ("a", .fetch "r"), ("b", .fetch "r"),
    ("a", .patch "r" titled "1"), ("b", .rollback), ("a", .commit)]

theorem no_lost_update_patchedContainer :
    MintsFresh .numbering patchedContainer (new "r") ∧
      ∃ stored, (run .numbering (patchedContainer.take 5) (new "r")).2.repository.get? "r" =
          some stored ∧
        stored.graph.union (Repository.containments "r"
          (childrenOf "a" (run .numbering (patchedContainer.take 1) (new "r")).1)) =
            Repository.containments "r" [("r", "r/1")] :=
  have fresh : MintsFresh .numbering patchedContainer (new "r") := by decide +kernel
  ⟨fresh, (no_lost_update .numbering (Repository.root "r") 0 patchedContainer fresh).2
    (patchedContainer.take 1) [("b", .fetch "r")] [("b", .rollback)] [] "a" "r" titled "1" _
    (.ofGraph .container Graph.empty) rfl (by decide +kernel) (by decide +kernel)
    (by decide +kernel) (by decide +kernel) (by decide +kernel) (by decide +kernel)⟩

/-- An empty patch is accepted with any token and is not compared at the commit: another session has
changed the container since it was fetched. -/
theorem empty_patch_overlooks_update :
    let empty : Patch := ⟨Graph.empty, Graph.empty⟩
    let between : List (String × SessionCall) :=
      [("b", .deposit (.rdfSource "x" Graph.empty) "r"), ("b", .commit)]
    let w₁ := (new "r").step .numbering "a" (.fetch "r")
    let w₂ := (run .numbering between w₁.2).2
    let w₃ := w₂.step .numbering "a" (.patch "r" empty "1")
    MintsFresh .numbering (("a", .fetch "r") :: (between ++
        [("a", .patch "r" empty "1"), ("a", .commit)])) (new "r") ∧
      w₁.1 = .ok (.fetched Graph.empty "1") ∧ w₃.1 = .ok .done ∧
      (w₃.2.step .numbering "a" .commit).1 = .ok .done ∧
      (w₃.2.repository.get? "r").map (·.graph) =
        some (Repository.containments "r" [("r", "r/1")]) ∧
      Repository.containments "r" [("r", "r/1")] ≠ Graph.empty := by
  decide +kernel

end Workspace

end LinkedDeposit
