import Mathlib.Data.List.Nodup
import LinkedDeposit.Package.Tree

/-!
# The ids of a package that loads

Building the tree of a manifest notes the id of each node, and refuses one that was noted before.
`Loads` is a program logic for this: it speaks of the runs that succeed, from given ids on.

Results:
* `loads_toResources`: the ids that are noted are those of the tree, in its order.
* `distinct_of_loadPackage`: so the ids of a package that loads differ from each other.
-/

namespace LinkedDeposit

section Loading

variable {σ α β : Type} {seen : SeenIds}

/-- A sequence that succeeds has succeeded in its parts. -/
theorem ok_of_bind {x : ExceptT DepositError (StateM σ) α}
    {f : α → ExceptT DepositError (StateM σ) β} {z z'' : σ} {b : β}
    (h : (x >>= f).run.run z = (.ok b, z'')) :
    ∃ a z', x.run.run z = (.ok a, z') ∧ (f a).run.run z' = (.ok b, z'') := by
  rw [ExceptT.run_bind, StateT.run_bind] at h
  rcases hx : x.run.run z with ⟨_ | a, z'⟩
  · rw [hx] at h
    cases h
  · rw [hx] at h
    exact ⟨a, z', rfl, h⟩

/-- Whatever `load` finds when it succeeds after some ids were seen, and the ids seen then, satisfy
`P`. -/
def Loads (seen : SeenIds) (load : StateT SeenIds (ExceptT DepositError (StateM σ)) α)
    (P : α → SeenIds → Prop) : Prop :=
  ∀ z a seen' z', (load.run seen).run.run z = (.ok (a, seen'), z') → P a seen'

theorem Loads.pure {P : α → SeenIds → Prop} {a : α} (h : P a seen) :
    Loads (σ := σ) seen (Pure.pure a) P := by
  intro z b seen' z' done
  cases done
  exact h

/-- What does not ask for the ids leaves them as they are. -/
theorem Loads.lift (load : ExceptT DepositError (StateM σ) α) :
    Loads seen (liftM load : StateT SeenIds (ExceptT DepositError (StateM σ)) α)
      fun _ seen' => seen' = seen := by
  intro z a seen' z' done
  change (load >>= fun a => Pure.pure (a, seen)).run.run z = _ at done
  obtain ⟨_, _, -, ended⟩ := ok_of_bind done
  cases ended
  rfl

theorem Loads.bind {load : StateT SeenIds (ExceptT DepositError (StateM σ)) α}
    {next : α → StateT SeenIds (ExceptT DepositError (StateM σ)) β}
    {P : α → SeenIds → Prop} {Q : β → SeenIds → Prop} (first : Loads seen load P)
    (rest : ∀ a seen', P a seen' → Loads seen' (next a) Q) : Loads seen (load >>= next) Q := by
  intro z b seen'' z'' done
  rw [StateT.run_bind] at done
  obtain ⟨⟨a, seen'⟩, z', loaded, done⟩ := ok_of_bind done
  exact rest a seen' (first z a seen' z' loaded) z' b seen'' z'' done

/-- Some ids were noted one after the other, each of them new. -/
structure Noted (ids : List String) (seen seen' : SeenIds) : Prop where
  noted : seen' = ids.reverse ++ seen
  distinct : seen.Nodup → seen'.Nodup

theorem Noted.nil (seen : SeenIds) : Noted [] seen seen := ⟨rfl, id⟩

theorem Noted.append {ids ids' : List String} {s s' s'' : SeenIds} (h : Noted ids s s')
    (k : Noted ids' s' s'') : Noted (ids ++ ids') s s'' where
  noted := by rw [k.noted, h.noted, List.reverse_append, List.append_assoc]
  distinct hs := k.distinct (h.distinct hs)

theorem loads_noteId (id : String) :
    Loads (σ := σ) seen (noteId id) fun _ seen' => Noted [id] seen seen' := by
  intro z a seen' z' done
  change ((if id ∈ seen then MonadExcept.throw (.duplicateId id) else modify (id :: ·) :
    StateT SeenIds (ExceptT DepositError (StateM σ)) Unit).run seen).run.run z = _ at done
  by_cases known : id ∈ seen
  · rw [if_pos known] at done
    cases done
  · rw [if_neg known] at done
    cases done
    exact ⟨rfl, List.nodup_cons.mpr ∘ And.intro known⟩

variable (source : PackageSource (StateM σ))

theorem loads_loadDescription (d : Option ManifestNode) :
    Loads seen (ManifestNode.loadDescription source d) fun description seen' =>
      Noted (description.toList.map (·.id)) seen seen' := by
  cases d with
  | none => exact Loads.pure (Noted.nil seen)
  | some d =>
    refine Loads.bind (loads_noteId d.id) fun _ seen' noted => ?_
    refine Loads.bind (Loads.lift _) ?_
    rintro g _ rfl
    exact Loads.pure noted

mutual

theorem loads_toResource (n : ManifestNode) (seen : SeenIds) :
    Loads seen (n.toResource source) fun r seen' =>
      Noted (r.subjects.map (·.id)) seen seen' := by
  obtain ⟨id, kind, graph, file, mediaType, description, children⟩ := n
  unfold ManifestNode.toResource
  refine Loads.bind (loads_noteId id) fun _ seen' noted => ?_
  cases kind with
  | container =>
    refine Loads.bind (Loads.lift _) ?_
    rintro _ _ rfl
    refine Loads.bind (Loads.lift _) ?_
    rintro g _ rfl
    refine Loads.bind (loads_toResources children _) fun resources seen'' below => ?_
    exact Loads.pure (noted.append below)
  | rdfSource =>
    refine Loads.bind (Loads.lift _) ?_
    rintro g _ rfl
    exact Loads.pure noted
  | nonRdfSource =>
    refine Loads.bind (Loads.lift _) ?_
    rintro binary _ rfl
    refine Loads.bind (loads_loadDescription source description) fun d seen'' described => ?_
    refine Loads.pure ?_
    have := noted.append described
    simpa [Resource.subjects, Function.comp_def, Description.subject] using this

theorem loads_toResources (nodes : List ManifestNode) (seen : SeenIds) :
    Loads seen (ManifestNode.toResources source nodes) fun tree seen' =>
      Noted (Resource.localIds tree) seen seen' := by
  cases nodes with
  | nil =>
    unfold ManifestNode.toResources
    exact Loads.pure (Noted.nil seen)
  | cons n rest =>
    unfold ManifestNode.toResources
    refine Loads.bind (loads_toResource n seen) fun r seen' first => ?_
    refine Loads.bind (loads_toResources rest seen') fun tree seen'' others => ?_
    refine Loads.pure ?_
    rw [Resource.localIds, Resource.allSubjects, List.map_append]
    exact first.append others

end

/-- The tree of a manifest has distinct ids. -/
theorem distinct_of_toTree {manifest : Manifest} {tree : List Resource} {z z' : σ}
    (h : (manifest.toTree source).run.run z = (.ok tree, z')) :
    (Resource.localIds tree).Nodup := by
  change ((ManifestNode.toResources source manifest.resources).run [] >>=
    fun x => Pure.pure x.1).run.run z = _ at h
  obtain ⟨⟨tree, seen⟩, z'', loaded, ended⟩ := ok_of_bind h
  cases ended
  have noted := loads_toResources source manifest.resources [] z tree seen _ loaded
  have distinct := noted.distinct List.nodup_nil
  rw [noted.noted, List.append_nil] at distinct
  exact List.nodup_reverse.mp distinct

/-- **A package that loads has distinct ids**, those of its descriptions included. -/
theorem distinct_of_loadPackage {disk : Disk (StateM σ)} {path : String} {tree : List Resource}
    {z z' : σ} (h : (loadPackage disk path).run.run z = (.ok tree, z')) :
    (Resource.localIds tree).Nodup := by
  unfold loadPackage at h
  obtain ⟨source, _, -, h⟩ := ok_of_bind h
  obtain ⟨bytes, _, -, h⟩ := ok_of_bind h
  split at h
  · exact distinct_of_toTree source h
  · cases h

end Loading

end LinkedDeposit
