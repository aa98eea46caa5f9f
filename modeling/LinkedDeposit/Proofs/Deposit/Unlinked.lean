import LinkedDeposit.Package.Tree
import LinkedDeposit.Proofs.Deposit.Linked
import LinkedDeposit.Proofs.Link.Rebase

/-!
# No local link survives

After a successful deposit no graph of the package links to a local id any more. Links are looked up
by the part before their first `#` alone, so this says nothing of an id that has something before a
`#` which is no id: such an id is never looked up, and a link to it from elsewhere stays as it is.

Results:
* `Stands.leadsOut`: no IRI in a graph of the package begins with a local id, or with a `#`.
* `Workspace.plain_run`: a repository whose root has no `#` only ever has URIs without one.
* `deposit_unlinks`: no graph of a deposited package links to a local id.
* `fragment_id_survives`: a link to an id that is never looked up.
-/

namespace LinkedDeposit

open Resource (allPlacements localIds)

/-! ## Links -/

/-- An IRI is an id, or an id and a fragment. -/
def LinksTo (id i : String) : Prop := i = id ∨ ∃ fragment, i = id ++ "#" ++ fragment

/-- A link to an id begins with what the id begins with. -/
theorem LinksTo.fst_splitFragment {id i : String} (h : LinksTo id i) :
    (splitFragment i).1 = (splitFragment id).1 := by
  rcases h with rfl | ⟨fragment, rfl⟩
  · rfl
  have cut (l : List Char) : (l ++ '#' :: fragment.toList).takeWhile (fun c => !decide (c = '#')) =
      l.takeWhile (fun c => !decide (c = '#')) := by
    induction l with
    | nil => rfl
    | cons c l ih => simp only [List.cons_append, List.takeWhile_cons, ih]
  have text : (id ++ "#" ++ fragment).toList = id.toList ++ '#' :: fragment.toList := by simp
  unfold splitFragment Text.cutBefore
  rw [text, cut]

/-! ## Rewritten graphs -/

section Rewritten

variable {uris : UriMap} {uri : String} {ids : List String}

/-- An IRI leads out of a package: it begins with something before a `#`, and not with a local id. -/
def LeadsOut (ids : List String) (i : String) : Prop :=
  (splitFragment i).1 ≠ "" ∧ (splitFragment i).1 ∉ ids

/-- A URI at which a resource of a package may stand. -/
structure StandsOut (ids : List String) (uri : String) : Prop where
  plain : '#' ∉ uri.toList
  proper : uri ≠ ""
  foreign : uri ∉ ids

theorem StandsOut.leadsOut_append (h : StandsOut ids uri) {i : String}
    (relative : isRelative i = true) : LeadsOut ids (uri ++ i) := by
  rw [LeadsOut, splitFragment_append_relative h.plain relative]
  exact ⟨h.proper, h.foreign⟩

theorem StandsOut.leadsOut (h : StandsOut ids uri) : LeadsOut ids uri := by
  rw [LeadsOut, splitFragment_plain h.plain]
  exact ⟨h.proper, h.foreign⟩

/-- A rewritten IRI leads out, if every local id has a URI and no URI is a local id. -/
theorem leadsOut_rewrite (known : ∀ id ∈ ids, ∃ place, uris.get? id = some place)
    (places : ∀ id place, uris.get? id = some place → StandsOut ids place)
    (own : StandsOut ids uri) {t : Term} {i : String} (rewritten : t.rewrite uris uri = .iri i) :
    LeadsOut ids i := by
  cases t with
  | literal text datatype language => cases rewritten
  | blank label =>
    obtain rfl := Term.iri.inj rewritten
    exact own.leadsOut_append (isRelative_skolemFragment label)
  | iri j =>
    rw [Term.rewrite] at rewritten
    split at rewritten
    case isTrue relative =>
      obtain rfl := Term.iri.inj rewritten
      exact own.leadsOut_append relative
    case isFalse absolute =>
      split at rewritten
      case h_1 place hp =>
        obtain rfl := Term.iri.inj rewritten
        exact (places _ _ hp).leadsOut_append (isRelative_fragment j)
      case h_2 hnone =>
        obtain rfl := Term.iri.inj rewritten
        refine ⟨fst_splitFragment_ne_empty (Bool.eq_false_iff.mpr absolute), fun hid => ?_⟩
        obtain ⟨place, hp⟩ := known _ hid
        rw [hp] at hnone
        cases hnone

theorem Graph.iris_rewrite {g : Graph} {i : String} (hi : i ∈ (g.rewrite uris uri).iris) :
    ∃ t : Term, t.rewrite uris uri = .iri i := by
  obtain ⟨_, ht, hn⟩ := Graph.mem_iris.mp hi
  obtain ⟨u, -, rfl⟩ := Graph.mem_map.mp ht
  rcases hn with hn | hn
  · exact ⟨_, hn⟩
  · exact ⟨_, hn⟩

/-- The statements about children name the container and what is in it. -/
theorem iris_childStatements {children : List Resource} {i : String}
    (hi : i ∈ (childStatements uris uri children).iris) :
    i = uri ∨ ∃ id, uris.get? id = some i := by
  obtain ⟨_, ht, hn⟩ := Graph.mem_iris.mp hi
  simp only [childStatements, Graph.mem_ofList, List.mem_filterMap, Option.map_eq_some_iff] at ht
  obtain ⟨r, -, child, hchild, rfl⟩ := ht
  rcases hn with hn | hn
  · exact .inl (Term.iri.inj hn).symm
  · exact .inr ⟨r.id, Term.iri.inj hn ▸ hchild⟩

theorem Graph.mem_iris_union {g h : Graph} {i : String} :
    i ∈ (g.union h).iris ↔ i ∈ g.iris ∨ i ∈ h.iris := by
  simp only [Graph.mem_iris, Graph.mem_union, or_and_right, exists_or]

end Rewritten

/-! ## URIs without fragment -/

namespace Workspace

/-- No resource, committed or staged, has a `#` in its URI. -/
structure Plain (w : Workspace) : Prop where
  committed : ∀ uri, (w.repository.get? uri).isSome = true → '#' ∉ uri.toList
  staged : ∀ name uri, ((w.transaction name).staged.get? uri).isSome = true → '#' ∉ uri.toList

theorem plain_new {root : String} (h : '#' ∉ root.toList) : (Workspace.new root).Plain where
  committed uri hu := by
    change ((Table.empty.insert root _).get? uri).isSome = true at hu
    rw [Table.get?_insert] at hu
    split at hu
    case isTrue same => exact same ▸ h
    case isFalse => cases hu
  staged name uri hu := by cases hu

variable {w : Workspace} {name : String}

/-- What a session sees has no `#` in its URI. -/
theorem Plain.seen (h : w.Plain) {uri : String} {seen : Stored}
    (hl : (w.transaction name).lookup w.repository uri = some seen) : '#' ∉ uri.toList := by
  obtain ⟨found, hf, -⟩ := Transaction.found_of_lookup hl
  cases hs : (w.transaction name).staged.get? uri with
  | some s => exact h.staged name uri (by rw [hs]; rfl)
  | none =>
    rw [hs, Option.none_or] at hf
    exact h.committed uri (by rw [hf]; rfl)

/-- A call keeps URIs plain if what it commits and stages is plain. -/
theorem Plain.after (h : w.Plain) {c : SessionCall} {answer : Except DepositError SessionAnswer}
    {r : Repository} {t : Transaction}
    (committed : ∀ uri, (r.get? uri).isSome = true → '#' ∉ uri.toList)
    (staged : ∀ uri, (t.staged.get? uri).isSome = true → '#' ∉ uri.toList) :
    (w.after name c (answer, r, t)).Plain where
  committed := committed
  staged other uri hu := by
    rw [transaction_after] at hu
    split at hu
    case isTrue => exact staged uri hu
    case isFalse => exact h.staged other uri hu

/-- **A step keeps URIs plain**, if new names are. -/
theorem plain_step {host : Host} {c : SessionCall} (h : w.Plain)
    (names : ∀ count, '#' ∉ (host.freshName count).toList) : (w.step host name c).2.Plain := by
  obtain ⟨answer, r, t, hstep, performed⟩ := step_performs host name c w
  rw [hstep]
  cases performed with
  | refused | failed | conflicting | fetched | unasked =>
    exact h.after h.committed (h.staged name)
  | placed resource parent container new unfinished seen isContainer stored =>
    refine h.after h.committed fun uri hu => ?_
    have own := (plain_childUri (h.seen seen) (names (w.deposits + 1))).1
    rw [Transaction.place, Table.get?_union] at hu
    cases hn : new.get? uri with
    | some s =>
      rcases Resource.mem_uris_placed ((Resource.get?_stored_isSome stored uri).mp (by rw [hn]; rfl))
        with rfl | rfl
      · exact own
      · exact (plain_descriptionUri own).1
    | none =>
      rw [hn, Option.none_or] at hu
      exact h.staged name uri hu
  | patched patchedUri p stored unfinished proper seen =>
    refine h.after h.committed fun uri hu => ?_
    rw [Transaction.get?_staged_amend] at hu
    split at hu
    case isTrue same => exact same ▸ h.seen seen
    case isFalse => exact h.staged name uri hu
  | committed unfinished agreed =>
    refine h.after (fun uri hu => ?_) fun uri hu => by cases hu
    rw [Transaction.get?_merge, Option.isSome_map] at hu
    cases hs : (w.transaction name).staged.get? uri with
    | some s => exact h.staged name uri (by rw [hs]; rfl)
    | none =>
      rw [hs, Option.none_or] at hu
      exact h.committed uri hu
  | rolledBack => exact h.after h.committed fun uri hu => by cases hu

/-- **A repository whose root has no `#` only ever has URIs without one.** -/
theorem plain_run {host : Host} {root : String} {schedule : List (String × SessionCall)}
    (rooted : '#' ∉ root.toList) (names : ∀ count, '#' ∉ (host.freshName count).toList)
    (fresh : MintsFresh host schedule (Workspace.new root)) :
    (run host schedule (Workspace.new root)).2.Plain :=
  run_induction (P := fun _ w => w.Plain) (plain_new rooted) (fun _ _ _ _ h _ => plain_step h names)
    fresh

end Workspace

/-- Below a URI without `#`, everything is placed at such URIs. -/
theorem plain_allPlacements {host : Host} (names : ∀ count, '#' ∉ (host.freshName count).toList)
    {target : String} (plain : '#' ∉ target.toList) (count : Nat) (tree : List Resource) :
    ∀ uri ∈ (allPlacements host count target tree).flatMap Placement.uris,
      '#' ∉ uri.toList ∧ uri ≠ "" := by
  intro uri hu
  obtain ⟨p, hp, hu⟩ := List.mem_flatMap.mp hu
  refine (minted_allPlacements host count target tree).plain names
    (walks_allPlacements host count target tree []) (fun pending hpending => ?_) p hp uri hu
  rw [List.append_nil] at hpending
  obtain ⟨_, -, rfl⟩ := List.mem_map.mp hpending
  exact plain

/-! ## Deposits -/

section Stands

variable {files : Files} {tree : List Resource} {target : String} {ps : List Placement}
  {before after : Repository}

/-- What is placed at new plain URIs stands out of its package. -/
theorem FreshPlacements.standsOut (fresh : FreshPlacements before tree ps)
    (plain : ∀ uri ∈ ps.flatMap Placement.uris, '#' ∉ uri.toList ∧ uri ≠ "")
    (placed : ∀ p ∈ ps, p.IsPlaced) {v : Visited} (hv : v ∈ ps.flatMap Placement.visited) :
    StandsOut (localIds tree) v.uri := by
  have own : v.uri ∈ ps.flatMap Placement.uris := by
    rw [← map_uri_visited placed]
    exact List.mem_map.mpr ⟨v, hv, rfl⟩
  exact ⟨(plain _ own).1, (plain _ own).2, fresh.foreign _ own⟩

/-- Every local id has a place. -/
theorem Stands.exists_place (stands : Stands files tree target ps before after) :
    ∀ id ∈ localIds tree, ∃ place, (Placement.uriMap ps).get? id = some place := by
  intro id hid
  rw [localIds, ← stands.complete, List.map_map] at hid
  obtain ⟨u, hu, rfl⟩ := List.mem_map.mp hid
  exact ⟨u.uri, (stands.known _ _).mpr ⟨u, hu, rfl, rfl⟩⟩

/-- Every place of a local id stands out. -/
theorem Stands.standsOut_place (stands : Stands files tree target ps before after)
    (given : ∀ v ∈ ps.flatMap Placement.visited, StandsOut (localIds tree) v.uri) :
    ∀ id place, (Placement.uriMap ps).get? id = some place →
      StandsOut (localIds tree) place := by
  intro id place hplace
  obtain ⟨u, hu, -, rfl⟩ := (stands.known _ _).mp hplace
  exact given u hu

/-- **Every IRI in a graph of the package leads out of it.** -/
theorem Stands.leadsOut (stands : Stands files tree target ps before after)
    (given : ∀ v ∈ ps.flatMap Placement.visited, StandsOut (localIds tree) v.uri)
    (placed : ∀ p ∈ ps, p.IsPlaced) {v : Visited} (hv : v ∈ ps.flatMap Placement.visited)
    (rdf : v.subject.isRdf = true) :
    ∃ g, after.graph? v.uri = some g ∧ ∀ i ∈ g.iris, LeadsOut (localIds tree) i := by
  have places := stands.standsOut_place given
  have rewritten (g : Graph) : ∀ i ∈ (g.rewrite (Placement.uriMap ps) v.uri).iris,
      LeadsOut (localIds tree) i := by
    intro i hi
    obtain ⟨t, ht⟩ := Graph.iris_rewrite hi
    exact leadsOut_rewrite stands.exists_place places (given v hv) ht
  obtain ⟨p, hp, hvp⟩ := List.mem_flatMap.mp hv
  rw [(placed p hp).visited_eq] at hvp
  rcases List.mem_cons.mp hvp with rfl | hvp
  · -- the graph of the resource, with the statements about its children
    rcases p.resource.graph?_or_binary? with ⟨g, hg⟩ | ⟨b, hb⟩
    · refine ⟨_, stands.graphs p hp g hg, fun i hi => ?_⟩
      rcases Graph.mem_iris_union.mp hi with hi | hi
      · exact rewritten g i hi
      · rcases iris_childStatements hi with rfl | ⟨id, hid⟩
        · exact (given _ hv).leadsOut
        · exact (places id i hid).leadsOut
    · rw [Subject.isRdf, Resource.subject, Resource.kind_of_binary? hb] at rdf
      cases rdf
  · -- the graph of its description
    obtain ⟨d, hd, rfl⟩ := List.mem_map.mp hvp
    exact ⟨_, stands.descriptions p hp d (Option.mem_toList.mp hd), rewritten d.graph⟩

end Stands

/-- **No local link survives a deposit.** On a repository in memory whose root has no `#`, after
whatever sessions have done, a deposit that succeeds leaves every graph of its package without a link
to a local id that can be looked up: one whose part before its first `#` is a local id, as every id
without `#` is. Neither is there a link to an id that begins with `#`, since all relative references
are resolved. -/
theorem deposit_unlinks {τ : Type} (host : Host) (root name : String)
    (schedule : List (String × SessionCall)) (observe : Event → τ → τ) (tree : List Resource)
    (target : String) (x : τ) (report : Report) (y : Workspace × τ)
    (rooted : '#' ∉ root.toList) (names : ∀ count, '#' ∉ (host.freshName count).toList)
    (minted : Workspace.MintsFresh host schedule (Workspace.new root)) :
    let w := (Workspace.run host schedule (Workspace.new root)).2
    let ps := allPlacements host w.deposits target tree
    w.transaction name = Transaction.idle →
    FreshPlacements w.repository tree ps →
    (depositTree ((Workspace.session host name).beside τ) (watching observe) tree target).run
      (w, x) = (.ok report, y) →
    (ps.flatMap Placement.visited).map (·.subject) = Resource.allSubjects tree ∧
    ∀ v ∈ ps.flatMap Placement.visited, v.subject.isRdf = true →
      ∃ g, y.1.repository.graph? v.uri = some g ∧
        ∀ i ∈ g.iris, ∀ id ∈ localIds tree,
          (splitFragment id).1 = "" ∨ (splitFragment id).1 ∈ localIds tree → ¬ LinksTo id i := by
  intro w ps opened fresh done
  cases tree with
  | nil => exact ⟨rfl, fun v hv => nomatch hv⟩
  | cons resource rest =>
  have committed := committed_of_run opened (List.cons_ne_nil resource rest) done
  have plain := plain_allPlacements names
    ((Workspace.plain_run rooted names minted).committed target committed) w.deposits
    (resource :: rest)
  obtain ⟨deposited, t, prepared, merged⟩ := prepared_of_run opened fresh.distinct done
  have stands := prepared.stands fresh committed plain
  rw [← merged] at stands
  refine ⟨stands.complete, fun v hv rdf => ?_⟩
  have given : ∀ u ∈ ps.flatMap Placement.visited, StandsOut (localIds (resource :: rest)) u.uri :=
    fun u hu => fresh.standsOut plain prepared.placed hu
  obtain ⟨g, hg, out⟩ := stands.leadsOut given prepared.placed hv rdf
  refine ⟨g, hg, fun i hi id hid begins links => ?_⟩
  rw [← links.fst_splitFragment] at begins
  rcases begins with relative | looked
  · exact (out i hi).1 relative
  · exact (out i hi).2 looked

theorem deposit_unlinks_linkedPackage :
    let schedule : List (String × SessionCall) :=
      [("b", .deposit (.container "c" Graph.empty []) "r"), ("b", .commit)]
    let w := (Workspace.run .numbering schedule (Workspace.new "r")).2
    let ps := allPlacements .numbering w.deposits "r" linkedPackage
    Workspace.MintsFresh .numbering schedule (Workspace.new "r") ∧
    w.transaction "a" = Transaction.idle ∧ FreshPlacements w.repository linkedPackage ps ∧
      ∃ y : Workspace × List Event,
        (depositTree ((Workspace.session .numbering "a").beside (List Event))
          (watching List.cons) linkedPackage "r").run (w, []) = (.ok ⟨3, 1, 3, 0⟩, y) ∧
        (ps.flatMap Placement.visited).map (·.subject) = Resource.allSubjects linkedPackage ∧
        ∀ v ∈ ps.flatMap Placement.visited, v.subject.isRdf = true →
          ∃ g, y.1.repository.graph? v.uri = some g ∧
            ∀ i ∈ g.iris, ∀ id ∈ localIds linkedPackage,
              (splitFragment id).1 = "" ∨ (splitFragment id).1 ∈ localIds linkedPackage →
                ¬ LinksTo id i := by
  intro schedule w ps
  have minted : Workspace.MintsFresh .numbering schedule (Workspace.new "r") := by decide +kernel
  have fresh : FreshPlacements w.repository linkedPackage ps := by decide +kernel
  have pair {α β : Type} (p : α × β) (a : α) (h : p.1 = a) : ∃ y, p = (a, y) :=
    ⟨p.2, Prod.ext h rfl⟩
  obtain ⟨y, done⟩ := pair ((depositTree ((Workspace.session .numbering "a").beside (List Event))
    (watching List.cons) linkedPackage "r").run (w, [])) (.ok ⟨3, 1, 3, 0⟩) (by decide +kernel)
  exact ⟨minted, rfl, fresh, y, done, deposit_unlinks .numbering "r" "a" schedule List.cons
    linkedPackage "r" [] ⟨3, 1, 3, 0⟩ y (by decide) Host.freshName_numbering minted rfl fresh done⟩

/-- A source with a `#` in its id, and another one that links to it. -/
def fragmentIdManifest : String :=
  "\x7b\"resources\":[\x7b\"id\":\"a#b\",\"kind\":\"rdf-source\",\"graph\":[]\x7d," ++
    "\x7b\"id\":\"c\",\"kind\":\"rdf-source\",\"graph\":[\x7b\"@id\":\"c\"," ++
    "\"p\":\x7b\"@id\":\"a#b\"\x7d\x7d]\x7d]\x7d"

/-- **A link to an id with a `#` survives**: the id is looked up by its part before the `#`, and that
part is no id. -/
theorem fragment_id_survives :
    ∃ tree, treeOfManifest fragmentIdManifest = .ok tree ∧
      FreshPlacements (Repository.root "r") tree (allPlacements .numbering 0 "r" tree) ∧
      ∃ y : Workspace × List Event,
        (depositTree ((Workspace.session .numbering "a").beside (List Event))
          (watching List.cons) tree "r").run (Workspace.new "r", []) = (.ok ⟨2, 0, 0, 2⟩, y) ∧
        ∃ g, y.1.repository.graph? "r/2" = some g ∧
          ∃ i ∈ g.iris, ∃ id ∈ localIds tree, LinksTo id i := by
  let run (tree : List Resource) :=
    (depositTree ((Workspace.session .numbering "a").beside (List Event))
      (watching List.cons) tree "r").run (Workspace.new "r", ([] : List Event))
  have checked : (match treeOfManifest fragmentIdManifest with
      | .ok tree => decide (
          FreshPlacements (Repository.root "r") tree (allPlacements .numbering 0 "r" tree) ∧
          (run tree).1 = .ok ⟨2, 0, 0, 2⟩ ∧
          (run tree).2.1.repository.graph? "r/2" =
            some (Graph.ofList [⟨.iri "r/2", "p", .iri "a#b"⟩]) ∧
          "a#b" ∈ localIds tree)
      | .error _ => false) = true := by decide +kernel
  rcases found : treeOfManifest fragmentIdManifest with e | tree
  · rw [found] at checked
    cases checked
  rw [found] at checked
  obtain ⟨fresh, done, kept, named⟩ := of_decide_eq_true checked
  refine ⟨tree, rfl, fresh, (run tree).2, Prod.ext done rfl, _, kept, "a#b", by decide +kernel,
    "a#b", named, .inl rfl⟩

end LinkedDeposit
