import LinkedDeposit.Proofs.Deposit.Alongside
import LinkedDeposit.Proofs.Deposit.Linked

/-!
# Deposits do not disturb each other

A deposit that other sessions come between does what it would do without them. Its calls only reach
what is not theirs to change: the target, which stays a container, and what it has staged itself.
So for two runs, whatever the others do before each of their calls, there is a renaming of new
resources that takes the one to the other (`deposit_undisturbed`).

Results:
* `alongside_depositNode`, `alongside_walkNodes`: two walks run alongside.
* `alongside_remapNode`, `alongside_remapNodes`: two remappings run alongside.
* `deposit_undisturbed`: two deposits agree up to renaming, and what they commit does.
-/

namespace LinkedDeposit

open Workspace
open Resource (allMentions allSubjects)

/-! ## Walks -/

namespace Resource

theorem id_mem_mentions (r : Resource) : r.id ∈ r.mentions := by
  cases r <;> exact List.mem_cons_self

theorem description_mem_mentions {r : Resource} {d : Description} (hd : d ∈ r.description?) :
    d.id ∈ r.mentions := by
  cases r with
  | container id g children => cases hd
  | rdfSource id g => cases hd
  | binary id b description =>
    obtain rfl : description = some d := hd
    exact List.mem_cons_of_mem _ List.mem_cons_self

end Resource

namespace Twins

/-- Both walks have gone through the same nodes, which ended up at the same URIs, up to renaming. -/
structure WalkedAlike (tw : Twins) (k : Pairing) (done : List Subject) (w w' : Walked) : Prop where
  uris : ∀ ρ, tw.Renames k ρ → ρ.Moves ρ w.uris w'.uris
  /-- Each node is staged at the URI that was recorded for it. -/
  placed : ∀ s ∈ done, (∀ ρ, tw.Renames k ρ → ρ s.id = s.id) ∧
    ∃ uri, w.uris.get? s.id = some uri ∧ (uri, s.kind) ∈ k.staged
  deposits : w'.deposits = w.deposits
  descriptions : w'.descriptions = w.descriptions

namespace WalkedAlike

variable {tw : Twins} {k k' : Pairing} {done : List Subject} {w w' : Walked}

theorem grows (h : tw.WalkedAlike k done w w') (grows : k.Grows k') :
    tw.WalkedAlike k' done w w' where
  uris ρ hρ := h.uris ρ (hρ.of_grows grows)
  placed s hs := by
    obtain ⟨kept, uri, found, staged⟩ := h.placed s hs
    exact ⟨fun ρ hρ => kept ρ (hρ.of_grows grows), uri, found, grows.staged staged⟩
  deposits := h.deposits
  descriptions := h.descriptions

theorem deposited (h : tw.WalkedAlike k done w w') :
    tw.WalkedAlike k done { w with deposits := w.deposits + 1 }
      { w' with deposits := w'.deposits + 1 } where
  uris := h.uris
  placed := h.placed
  deposits := congrArg (· + 1) h.deposits
  descriptions := h.descriptions

theorem described (h : tw.WalkedAlike k done w w') :
    tw.WalkedAlike k done { w with descriptions := w.descriptions + 1 }
      { w' with descriptions := w'.descriptions + 1 } where
  uris := h.uris
  placed := h.placed
  deposits := h.deposits
  descriptions := congrArg (· + 1) h.descriptions

/-- An id is recorded in both walks, or is there already in both. -/
theorem record (h : tw.WalkedAlike k done w w') {s : Subject} {uri uri' : String}
    (kept : ∀ ρ, tw.Renames k ρ → ρ s.id = s.id) (same : ∀ ρ, tw.Renames k ρ → uri' = ρ uri)
    (staged : (uri, s.kind) ∈ k.staged) {ρ : Renaming} (hρ : tw.Renames k ρ) :
    SameEnd (tw.WalkedAlike k (done ++ [s])) (w.record s.id uri) (w'.record s.id uri') := by
  have known : w'.uris.get? s.id = (w.uris.get? s.id).map ρ := by
    rw [← h.uris ρ hρ, kept ρ hρ]
  cases found : w.uris.get? s.id with
  | some old =>
    have refused {v : Walked} {u u' : String} (there : v.uris.get? s.id = some u) :
        v.record s.id u' = .error (.repeatedLocalId s.id) :=
      Walked.record_eq_error_iff.mpr ⟨by rw [Table.contains, there]; rfl, rfl⟩
    rw [refused found, refused (known.trans (congrArg _ found))]
    exact .fault _ (.invalid _)
  | none =>
    rw [Walked.record_eq_ok_iff.mpr ⟨found, rfl⟩,
      Walked.record_eq_ok_iff.mpr ⟨known.trans (congrArg _ found), rfl⟩]
    refine .ok _ _ ⟨fun σ hσ => ?_, fun t ht => ?_, h.deposits, h.descriptions⟩
    · have moved := (h.uris σ hσ).insert s.id uri
      rwa [kept σ hσ, ← same σ hσ] at moved
    · rcases List.mem_append.mp ht with old | new
      · obtain ⟨fixed, u, recorded, there⟩ := h.placed t old
        refine ⟨fixed, u, ?_, there⟩
        rw [Table.get?_insert, if_neg, recorded]
        rintro again
        rw [again, found] at recorded
        cases recorded
      · obtain rfl := List.mem_singleton.mp new
        exact ⟨kept, uri, Table.get?_insert_self .., staged⟩

end WalkedAlike

end Twins

section Walk

variable {tw : Twins} {k : Pairing} {done : List Subject} {w w' : Walked}

theorem alongside_depositNode {r : Resource} {parent parent' : String}
    (kept : tw.Reserves r.mentions)
    (holds : tw.Holds k parent)
    (same : ∀ ρ, tw.Renames k ρ → parent' = ρ parent) (h : tw.WalkedAlike k done w w') :
    tw.Alongside k (depositNode tw.first.session noteQuietly r parent w)
      (depositNode tw.second.session noteQuietly r parent' w') fun k' a a' =>
        (∀ ρ, tw.Renames k' ρ → a'.1.uri = ρ a.1.uri) ∧ (a.1.uri, r.kind) ∈ k'.staged ∧
          tw.WalkedAlike k'
            (done ++ r.subject :: r.description?.toList.map Description.subject) a.2 a'.2 := by
  have fixed {id : String} (mentioned : id ∈ r.mentions) (k : Pairing) (ρ : Renaming)
      (hρ : tw.Renames k ρ) : ρ id = id := hρ.apply_eq_self (kept id mentioned)
  unfold depositNode
  refine .bind (.deposit kept holds same) ?_
  rintro k₁ d d' grows ⟨renamed, placed, staged, describedAt⟩
  have uri (ρ : Renaming) (hρ : tw.Renames k₁ ρ) : d'.uri = ρ d.uri := by
    rw [renamed ρ hρ]
    rfl
  refine .given fun ρ hρ => ?_
  have recorded := (h.grows grows).deposited.record (fixed r.id_mem_mentions k₁) uri
    (s := r.subject) staged hρ
  refine .bind (P := fun k v v' => tw.WalkedAlike k (done ++ [r.subject]) v v')
    (.compute recorded) fun k₂ v v' grows' walked => ?_
  have uri (ρ : Renaming) (hρ : tw.Renames k₂ ρ) := uri ρ (hρ.of_grows grows')
  have staged := grows'.staged staged
  refine .announceThen (fun ρ hρ => by rw [uri ρ hρ]; rfl) ?_
  have described : d.description = r.description?.map fun _ => Transaction.descriptionUri d.uri :=
    congrArg Deposited.description placed
  cases hd : r.description? with
  | none => exact .pure ⟨uri, staged, walked⟩
  | some δ =>
    rw [hd] at described
    have described' (ρ : Renaming) (hρ : tw.Renames k₂ ρ) :
        d'.description = some (ρ (Transaction.descriptionUri d.uri)) := by
      rw [renamed ρ (hρ.of_grows grows'), Deposited.rename, described]
      rfl
    generalize hp : d'.description = place' at described'
    cases place' with
    | none => exact .given fun ρ hρ => nomatch described' ρ hρ
    | some place' =>
      have place (ρ : Renaming) (hρ : tw.Renames k₂ ρ) :
          place' = ρ (Transaction.descriptionUri d.uri) := Option.some.inj (described' ρ hρ)
      rw [described]
      refine .given fun ρ hρ => ?_
      have recorded := walked.record (fixed (Resource.description_mem_mentions hd) k₂) place
        (s := δ.subject) (grows'.staged (describedAt δ hd)) hρ
      refine .bind (P := fun k v v' =>
          tw.WalkedAlike k (done ++ [r.subject] ++ [δ.subject]) v v')
        (.compute recorded) fun k₃ u u' grows'' walked => ?_
      refine .announceThen (fun ρ hρ => by rw [place ρ (hρ.of_grows grows'')]; rfl) ?_
      refine .pure ⟨fun ρ hρ => uri ρ (hρ.of_grows grows''), grows''.staged staged, ?_⟩
      rw [List.append_assoc] at walked
      exact walked.described

/-- Without children, a resource lists itself and its description. -/
theorem subjects_of_leaf {r : Resource} (leaf : r.children = []) :
    r.subject :: r.description?.toList.map Description.subject = r.subjects := by
  rw [subjects_eq, leaf]
  exact (List.append_nil _).symm

mutual

theorem alongside_walkNode {k : Pairing} {done : List Subject} {w w' : Walked} (r : Resource)
    {parent parent' : String} (kept : tw.Reserves r.mentions)
    (holds : tw.Holds k parent)
    (same : ∀ ρ, tw.Renames k ρ → parent' = ρ parent) (h : tw.WalkedAlike k done w w') :
    tw.Alongside k (walkNode tw.first.session noteQuietly r parent w)
      (walkNode tw.second.session noteQuietly r parent' w') fun k' v v' =>
        tw.WalkedAlike k' (done ++ r.subjects) v v' := by
  unfold walkNode
  refine .bind (alongside_depositNode kept holds same h) ?_
  rintro k₁ ⟨d, v⟩ ⟨d', v'⟩ grows ⟨uri, staged, walked⟩
  cases r with
  | rdfSource id g => exact .pure walked
  | binary id b description =>
    rw [subjects_of_leaf rfl] at walked
    exact .pure walked
  | container id g children =>
    have below : tw.Reserves (allMentions children) := fun s hs =>
      kept s (List.mem_cons_of_mem _ (List.mem_append_right _ hs))
    refine (alongside_walkNodes children below (.inr staged) uri walked).mono
      fun k' u u' _ walked => ?_
    rw [List.append_assoc] at walked
    exact walked

theorem alongside_walkNodes {k : Pairing} {done : List Subject} {w w' : Walked}
    (tree : List Resource) {parent parent' : String}
    (kept : tw.Reserves (allMentions tree))
    (holds : tw.Holds k parent)
    (same : ∀ ρ, tw.Renames k ρ → parent' = ρ parent) (h : tw.WalkedAlike k done w w') :
    tw.Alongside k (walkNodes tw.first.session noteQuietly tree parent w)
      (walkNodes tw.second.session noteQuietly tree parent' w') fun k' v v' =>
        tw.WalkedAlike k' (done ++ allSubjects tree) v v' := by
  unfold walkNodes
  cases tree with
  | nil =>
    refine .pure ?_
    rwa [allSubjects, List.append_nil]
  | cons r rest =>
    obtain ⟨first, others⟩ := List.forall_mem_append.mp kept
    refine .bind (alongside_walkNode r first holds same h) fun k₁ v v' grows walked => ?_
    refine (alongside_walkNodes rest others (holds.grows grows)
      (fun ρ hρ => same ρ (hρ.of_grows grows)) walked).mono fun k' u u' _ walked => ?_
    rwa [List.append_assoc] at walked

end

/-- **Both walks record the same nodes** at the same URIs, up to renaming. -/
theorem alongside_walk (tree : List Resource)
    (kept : tw.Reserves (allMentions tree)) :
    tw.Alongside k (walk tw.first.session noteQuietly tree tw.target)
      (walk tw.second.session noteQuietly tree tw.target) fun k' w w' =>
        tw.WalkedAlike k' (allSubjects tree) w w' := by
  have nothing : tw.WalkedAlike k [] Walked.nothing Walked.nothing :=
    ⟨fun _ _ => .empty, fun _ none => (nomatch none), rfl, rfl⟩
  exact alongside_walkNodes tree kept (.inl rfl) (fun ρ hρ => hρ.apply_target.symm) nothing

end Walk

/-! ## Remapping -/

section Remap

variable {tw : Twins} {k : Pairing}

theorem Patch.extent_rename (ρ : Renaming) (p : Patch) : (p.rename ρ).extent = p.extent := by
  change "+" ++ toString (p.added.rename ρ).size ++ " -" ++ toString (p.removed.rename ρ).size = _
  rw [Graph.size_rename, Graph.size_rename]
  rfl

def Visited.rename (ρ : Renaming) (v : Visited) : Visited := ⟨v.subject, ρ v.uri⟩

/-- After whole walks, the same nodes were visited, and each is staged where it was visited. -/
theorem Twins.WalkedAlike.visited {tree : List Resource} {w w' : Walked}
    (h : tw.WalkedAlike k (allSubjects tree) w w') :
    (∀ ρ, tw.Renames k ρ → w'.visited tree = (w.visited tree).map (Visited.rename ρ)) ∧
      ∀ v ∈ w.visited tree, (v.uri, v.subject.kind) ∈ k.staged := by
  refine ⟨fun ρ hρ => ?_, fun v hv => ?_⟩
  · rw [Walked.visited, Walked.visited, List.map_filterMap]
    refine List.filterMap_congr fun s hs => ?_
    have moved := h.uris ρ hρ s.id
    rw [(h.placed s hs).1 ρ hρ] at moved
    rw [moved, Option.map_map, Option.map_map]
    rfl
  · obtain ⟨s, hs, found⟩ := List.mem_filterMap.mp hv
    obtain ⟨-, uri, recorded, staged⟩ := h.placed s hs
    rw [recorded] at found
    cases found
    exact staged

variable {uris uris' : UriMap}

theorem alongside_remapNode (moved : ∀ ρ, tw.Renames k ρ → ρ.Moves ρ uris uris') {v v' : Visited}
    (staged : (v.uri, v.subject.kind) ∈ k.staged) (isRdf : v.subject.isRdf = true)
    (same : ∀ ρ, tw.Renames k ρ → v' = v.rename ρ) :
    tw.Alongside k (remapNode tw.first.session noteQuietly uris v)
      (remapNode tw.second.session noteQuietly uris' v') fun _ b b' => b' = b := by
  have uri (ρ : Renaming) (hρ : tw.Renames k ρ) : v'.uri = ρ v.uri := by
    rw [same ρ hρ]
    rfl
  unfold remapNode
  refine .bind (.fetch staged (of_decide_eq_true isRdf) uri) ?_
  rintro k₁ ⟨g, token⟩ ⟨g', token'⟩ grows ⟨renamed, fetched⟩
  refine .given fun ρ hρ => ?_
  obtain ⟨-, rfl⟩ := Prod.mk.inj (renamed ρ hρ)
  -- both graphs change alike under both maps
  have patch (ρ : Renaming) (hρ : tw.Renames k₁ ρ) :
      Patch.between g' (g'.remap uris') = (Patch.between g (g.remap uris)).rename ρ := by
    rw [(Prod.mk.inj (renamed ρ hρ)).1, Graph.remap_rename (moved ρ (hρ.of_grows grows)),
      Patch.between_rename]
  have empty : (Patch.between g' (g'.remap uris')).isEmpty =
      (Patch.between g (g.remap uris)).isEmpty := by rw [patch ρ hρ, Patch.isEmpty_rename]
  dsimp only
  generalize Patch.between g' (g'.remap uris') = p' at patch empty
  generalize Patch.between g (g.remap uris) = p at patch empty
  rw [empty]
  cases proper : p.isEmpty with
  | true => exact .pure rfl
  | false =>
    refine .bind (.patch fetched proper fun ρ hρ =>
      ⟨uri ρ (hρ.of_grows grows), patch ρ hρ⟩) fun k₂ _ _ grows' _ => ?_
    refine .announceThen (fun σ hσ => ?_) (.pure rfl)
    have hσ := hσ.of_grows grows'
    rw [patch σ hσ, Patch.extent_rename, same σ (hσ.of_grows grows)]
    rfl

theorem alongside_remapNodes {k : Pairing}
    (moved : ∀ ρ, tw.Renames k ρ → ρ.Moves ρ uris uris') {vs vs' : List Visited}
    (staged : ∀ v ∈ vs, (v.uri, v.subject.kind) ∈ k.staged ∧ v.subject.isRdf = true)
    (same : ∀ ρ, tw.Renames k ρ → vs' = vs.map (Visited.rename ρ)) (report : Report) :
    tw.Alongside k (remapNodes tw.first.session noteQuietly uris vs report)
      (remapNodes tw.second.session noteQuietly uris' vs' report) fun _ r r' => r' = r := by
  induction vs generalizing k vs' report with
  | nil =>
    refine .given fun ρ hρ => ?_
    rw [same ρ hρ]
    exact .pure rfl
  | cons v vs ih =>
    obtain ⟨first, others⟩ := List.forall_mem_cons.mp staged
    refine .given fun ρ hρ => ?_
    cases vs' with
    | nil => cases same ρ hρ
    | cons v' vs' =>
      have same (σ : Renaming) (hσ : tw.Renames k σ) := List.cons.inj (same σ hσ)
      unfold remapNodes
      refine .bind (alongside_remapNode moved first.1 first.2 fun σ hσ => (same σ hσ).1) ?_
      rintro k₁ _ changed grows rfl
      have rest (report : Report) := ih (fun σ hσ => moved σ (hσ.of_grows grows))
        (fun u hu => ⟨grows.staged (others u hu).1, (others u hu).2⟩)
        (fun σ hσ => (same σ (hσ.of_grows grows)).2) report
      cases changed with
      | true => exact rest _
      | false => exact rest _

/-- **Both deposits work alike** up to their end. -/
theorem alongside_walkAndRemap (tree : List Resource)
    (kept : tw.Reserves (allMentions tree)) :
    tw.Alongside k (walkAndRemap tw.first.session noteQuietly tree tw.target)
      (walkAndRemap tw.second.session noteQuietly tree tw.target) fun _ r r' => r' = r := by
  unfold walkAndRemap
  refine .bind (alongside_walk tree kept) fun k₁ w w' grows walked => ?_
  obtain ⟨renamed, staged⟩ := walked.visited
  rw [walked.deposits, walked.descriptions]
  refine alongside_remapNodes walked.uris (fun v hv => ?_) (fun ρ hρ => ?_) _
  · obtain ⟨visited, isRdf⟩ := List.mem_filter.mp hv
    exact ⟨staged v visited, isRdf⟩
  · rw [renamed ρ hρ, List.filter_map]
    rfl

end Remap

/-! ## Whole deposits -/

/-- A deposit in a crowd, with its transcript. -/
def crowdedDeposit (host : Host) (name : String) (tree : List Resource) (target : String)
    (x : Crowd) : (Except DepositError Report × Transcript) × Crowd :=
  ((depositTree (crowded host name).noted noteQuietly tree target).run []).run x

/-- The transcript is of a deposit that nobody notes. -/
theorem run_crowded (host : Host) (name : String) (tree : List Resource) (target : String)
    (x : Crowd) : (depositTree (crowded host name) (fun _ => pure ()) tree target).run x =
      ((crowdedDeposit host name tree target x).1.1,
        (crowdedDeposit host name tree target x).2) := by
  have follows : Notes (crowded host name) (fun _ => pure ())
      (ExceptT.mk (depositTree (crowded host name).noted noteQuietly tree target))
      (ExceptT.mk (depositTree (crowded host name) (fun _ => pure ()) tree target))
      (DepositTranscript tree target) := notes_depositTree tree target
  obtain ⟨t, result, y, noted, plain, -⟩ := follows [] x
  have noted : crowdedDeposit host name tree target x = ((result, t), y) := noted
  rw [noted]
  exact plain

section Ending

variable {s : Site} {tree : List Resource} {target : String} {x y : Crowd} {u : Transcript}

/-- A deposit whose work is done is committed. -/
theorem crowdedDeposit_done {report : Report}
    (worked : ((walkAndRemap s.session noteQuietly tree target).run.run []).run x =
      ((.ok report, u), y))
    (committed : (s.callNext .commit y).1 = .ok .done) :
    crowdedDeposit s.host s.name tree target x =
      ((.ok report, u ++ [.call .commit (.ok .done)] ++ [.event (.success target report.summary)]),
        (s.callNext .commit y).2) := by
  obtain ⟨r, answer, run⟩ := s.run_noteCall (c := .commit) rfl u y
  rw [committed] at answer run
  change (StateT.run (depositTree s.session noteQuietly tree target) []).run x = _
  unfold depositTree
  rw [StateT.run_bind, StateT.run_bind, worked]
  change ((StateT.run (s.session.commit.run >>= _) u).run y) = _
  rw [StateT.run_bind, StateT.run_bind]
  change (StateT.run s.session.commit.run u).run y = _ at run
  rw [run]
  cases r with
  | error e => cases answer
  | ok _ =>
    rfl

/-- A deposit of a package that is at fault is rolled back. -/
theorem crowdedDeposit_fault {e : DepositError} (fault : e.IsPackageFault)
    (worked : ((walkAndRemap s.session noteQuietly tree target).run.run []).run x =
      ((.error e, u), y))
    (rolledBack : (s.callNext .rollback y).1 = .ok .done) :
    crowdedDeposit s.host s.name tree target x =
      ((.error e, u ++ [.call .rollback (.ok .done)] ++ [.event (.error e.message)]),
        (s.callNext .rollback y).2) := by
  obtain ⟨r, answer, run⟩ := s.run_noteCall (c := .rollback) rfl u y
  rw [rolledBack] at answer run
  have legal : ¬ e.isIllegalState = true := by cases fault <;> exact Bool.false_ne_true
  change (StateT.run (depositTree s.session noteQuietly tree target) []).run x = _
  unfold depositTree
  rw [StateT.run_bind, StateT.run_bind, worked]
  refine (congrArg (fun m : StateT Transcript (StateM Crowd) (Except DepositError Report) =>
    (m.run u).run y) (if_neg legal)).trans ?_
  rw [StateT.run_bind, StateT.run_bind]
  change (StateT.run s.session.rollback.run u).run y = _ at run
  rw [run]
  rfl

end Ending

/-- The segments that a deposit of a package below a target may come upon: those of the target, of
the ids and links in the package, and the one of descriptions. -/
def reservedSegments (target : String) (tree : List Resource) : List String :=
  Vocabulary.descriptionSegment :: (target :: allMentions tree).flatMap uriSegments

/-- A crowd awaits a deposit: its session has done nothing yet, the target is a container, the
others are no namesakes, and the names to come are new to the repository and to the package. -/
structure Crowd.Awaits (host : Host) (name : String) (tree : List Resource) (target : String)
    (x : Crowd) : Prop where
  names : host.NamesFresh
  plain : ∀ count, '#' ∉ (host.freshName count).toList
  ready : x.Ready host name target (reservedSegments target tree)
  idle : x.1.transaction name = Transaction.idle

/-- The two runs of a deposit are the same, up to renaming, and so is what they leave at the URIs
that they were given. -/
structure SameRuns (ρ : Renaming) (run run' : (Except DepositError Report × Transcript) × Crowd) :
    Prop where
  result : run'.1.1 = run.1.1
  transcript : run'.1.2 = run.1.2.rename ρ
  committed : ∀ uri ∈ run.1.2.created,
    run'.2.1.repository.get? (ρ uri) = (run.2.1.repository.get? uri).map (Stored.rename ρ) ∧
      ((run.2.1.repository.get? uri).isSome = run.1.1.toBool)

theorem created_ending (u : Transcript) (c : SessionCall) (e : Event) :
    Transcript.created (u ++ [.call c (.ok .done)] ++ [.event e]) = u.created := by
  rw [Transcript.created_append, Transcript.created_append, Transcript.created_call]
  exact (List.append_nil _).trans (List.append_nil _)

/-- Two deposits that were together end the same with one more call and event. -/
theorem sameRuns_ending {tw : Twins} {k : Pairing} {ρ : Renaming} {u u' : Transcript} {y y' : Crowd}
    (together : tw.Together k u u' y y') (hρ : tw.Renames k ρ) {c : SessionCall} {e : Event}
    (call : c.rename ρ = c) (event : e.rename ρ = e) {result : Except DepositError Report}
    (leaves : tw.Leaves k (tw.first.transaction (y.advance tw.first.host)) result.toBool
      (tw.first.callNext c y).2.1.repository (tw.second.callNext c y').2.1.repository) :
    SameRuns ρ
      ((result, u ++ [.call c (.ok .done)] ++ [.event e]), (tw.first.callNext c y).2)
      ((result, u' ++ [.call c (.ok .done)] ++ [.event e]), (tw.second.callNext c y').2) where
  result := rfl
  transcript := by
    have lines : Transcript.rename ρ [.call c (.ok .done)] = [.call c (.ok .done)] ∧
        Transcript.rename ρ [.event e] = [.event e] :=
      ⟨congrArg (fun c => [Line.call c (.ok .done)]) call, congrArg (fun e => [Line.event e]) event⟩
    rw [Transcript.rename_append, Transcript.rename_append, together.transcripts ρ hρ, lines.1,
      lines.2]
  committed uri hu := by
    rw [created_ending] at hu
    have held := together.created uri hu
    rw [← together.level.first.advance.2] at held
    exact ⟨(leaves uri held).2 ρ hρ, (leaves uri held).1⟩

/-- Where nothing has happened yet, both sessions are together. -/
theorem together_idle {tw : Twins} {x x' : Crowd}
    (ready : x.Ready tw.first.host tw.first.name tw.target tw.reserved)
    (ready' : x'.Ready tw.second.host tw.second.name tw.target tw.reserved)
    (since : tw.first.start = x.1.deposits) (since' : tw.second.start = x'.1.deposits)
    (idle : tw.first.transaction x = Transaction.idle)
    (idle' : tw.second.transaction x' = Transaction.idle) :
    tw.Together ⟨[], [], none⟩ [] [] x x' := by
  have gave {s : Site} {count : Nat} (since : s.start = count) : s.Gave tw.reserved count [] :=
    ⟨Nat.le_of_eq since, List.nodup_nil, List.forall_mem_nil _, List.forall_mem_nil _⟩
  refine ⟨⟨⟨ready, gave since⟩, ⟨ready', gave since'⟩, ?_⟩, fun _ _ => rfl, List.forall_mem_nil _⟩
  rw [idle, idle']
  exact ⟨rfl, rfl, fun _ _ => .empty, fun _ _ => rfl, rfl, rfl, fun _ _ none => (nomatch none),
    fun _ _ none => (nomatch none)⟩

/-- **Deposits do not disturb each other.** Two deposits of one package below one target, each with
any steps of other sessions before each of its calls, agree up to a renaming of new resources: they
make the same calls and get the same answers, announce the same events and end in the same report
or error, which is never a concurrent modification. What they created is committed alike if they
succeed, and not at all if they fail. -/
theorem deposit_undisturbed {host host' : Host} {name name' : String} {tree : List Resource}
    {target : String} {x x' : Crowd} (files : host'.files = host.files)
    (first : x.Awaits host name tree target) (second : x'.Awaits host' name' tree target) :
    let run := crowdedDeposit host name tree target x
    let run' := crowdedDeposit host' name' tree target x'
    (∀ uri, run.1.1 ≠ .error (.concurrentModification uri)) ∧
      ∃ ρ : Renaming, SameRuns ρ run run' ∧ ∀ n, ρ.names n ≠ n →
        (∃ count, x.1.deposits < count ∧ n = host.freshName count) ∨
          ∃ count, x'.1.deposits < count ∧ n = host'.freshName count := by
  let tw : Twins :=
    { first := ⟨host, name, x.1.deposits, first.names, first.plain⟩
      second := ⟨host', name', x'.1.deposits, second.names, second.plain⟩
      target := target
      reserved := reservedSegments target tree
      files := files
      target_reserved := fun n hn =>
        List.mem_cons_of_mem _ (List.mem_flatMap.mpr ⟨target, List.mem_cons_self, hn⟩)
      description_reserved := List.mem_cons_self }
  have kept : tw.Reserves (allMentions tree) := fun s hs n hn =>
    List.mem_cons_of_mem _ (List.mem_flatMap.mpr ⟨s, List.mem_cons_of_mem _ hs, hn⟩)
  have start : tw.Together ⟨[], [], none⟩ [] [] x x' :=
    together_idle first.ready second.ready rfl rfl first.idle second.idle
  obtain ⟨k, r, r', u, u', y, y', worked, worked', -, together, same⟩ :=
    alongside_walkAndRemap tree kept [] [] x x' start
  obtain ⟨ρ, hρ, moved⟩ :=
    Twins.exists_renames together.level.first.gave together.level.second.gave
  have names (n : String) (hn : ρ.names n ≠ n) :
      (∃ count, x.1.deposits < count ∧ n = host.freshName count) ∨
        ∃ count, x'.1.deposits < count ∧ n = host'.freshName count := by
    refine (moved n hn).imp (fun given => ?_) fun given => ?_
    · obtain ⟨count, after, -, same⟩ := together.level.first.gave.given n given
      exact ⟨count, after, same⟩
    · obtain ⟨count, after, -, same⟩ := together.level.second.gave.given n given
      exact ⟨count, after, same⟩
  cases same with
  | ok report _ agreed =>
    cases agreed
    obtain ⟨done, done', leaves⟩ := together.level.advance.commit
    have run := crowdedDeposit_done worked done
    have run' := crowdedDeposit_done worked' done'
    have event : (Event.success target report.summary).rename ρ = .success target report.summary :=
      congrArg (Event.success · report.summary) hρ.apply_target
    dsimp only
    rw [run, run']
    refine ⟨fun _ none => (nomatch none), ρ, ?_, names⟩
    exact sameRuns_ending together hρ rfl event leaves
  | fault e fault =>
    obtain ⟨done, done', leaves⟩ := together.level.advance.rollback
    have run := crowdedDeposit_fault fault worked done
    have run' := crowdedDeposit_fault fault worked' done'
    dsimp only
    rw [run, run']
    refine ⟨fun uri concurrent => ?_, ρ, sameRuns_ending together hρ rfl rfl leaves, names⟩
    rw [Except.error.inj concurrent] at fault
    cases fault

/-- A new repository awaits deposits of a package that names no number. -/
theorem awaits_linkedPackage {blocks : List (List (String × SessionCall))}
    (others : ∀ block ∈ blocks, ∀ step ∈ block, step.1 ≠ "a") :
    Crowd.Awaits .numbering "a" linkedPackage "r" (Workspace.new "r", blocks) where
  names := Host.namesFresh_numbering Host.numbering.files
  plain := Host.freshName_numbering
  idle := rfl
  ready := by
    refine ⟨⟨sound_new fun count named => ?_, fun count _ reserved => ?_, ?_⟩, others⟩
    · -- the root has no slash in it
      have slash : '/' ∈ "r".toList := by
        obtain ⟨parent, same | same⟩ := named
        · rw [same]
          simp [Transaction.childUri]
        · rw [same]
          simp [Transaction.descriptionUri]
      exact absurd slash (by decide)
    · have noNumbers : ∀ n ∈ reservedSegments "r" linkedPackage,
          n = "" ∨ n.toList.any (fun c => !c.isDigit) = true := by decide +kernel
      rcases noNumbers _ reserved with empty | letter
      · exact Nat.repr_ne_empty empty
      · obtain ⟨c, hc, notDigit⟩ := List.any_eq_true.mp letter
        rw [Host.isDigit_of_mem_freshName hc] at notDigit
        cases notDigit
    · rfl

/-- Another session deposits and commits below the same root, and one gives up. -/
def busyBlocks : List (List (String × SessionCall)) :=
  [[("b", .deposit (.rdfSource "x" Graph.empty) "r")],
    [("c", .deposit (.container "c" Graph.empty []) "r"), ("b", .commit)], [("c", .rollback)]]

/-- With others in between, a package gets other names. -/
theorem deposit_undisturbed_linkedPackage :
    let run := crowdedDeposit .numbering "a" linkedPackage "r" (Workspace.new "r", [])
    let run' := crowdedDeposit .numbering "a" linkedPackage "r" (Workspace.new "r", busyBlocks)
    Crowd.Awaits .numbering "a" linkedPackage "r" (Workspace.new "r", []) ∧
      Crowd.Awaits .numbering "a" linkedPackage "r" (Workspace.new "r", busyBlocks) ∧
      (run.1.2.created = ["r/1", "r/1/2", "r/1/3", "r/1/3/fcr:metadata"] ∧
        run'.1.2.created = ["r/2", "r/2/4", "r/2/5", "r/2/5/fcr:metadata"]) ∧
      ∃ ρ, SameRuns ρ run run' := by
  have alone : Crowd.Awaits .numbering "a" linkedPackage "r" (Workspace.new "r", []) :=
    awaits_linkedPackage (by decide)
  have busy : Crowd.Awaits .numbering "a" linkedPackage "r" (Workspace.new "r", busyBlocks) :=
    awaits_linkedPackage (by decide)
  obtain ⟨-, ρ, same, -⟩ := deposit_undisturbed rfl alone busy
  exact ⟨alone, busy, by decide +kernel, ρ, same⟩

end LinkedDeposit
