import Mathlib.Data.List.Basic
import LinkedDeposit.Proofs.Deposit.Placement

/-!
# The transcript of a walk

Whatever the session answers, a walk makes placements from the resources that are pending until none
is left, or until one deposit goes wrong (`Stumbles`): the session refuses it, an id was recorded
before, or a binary's description was given no URI. In the second case nothing follows.

Results:
* `notes_depositNode`: one deposit is a placement or goes wrong.
* `notes_walk`: a walk follows `WalkTranscript`.
-/

namespace LinkedDeposit

theorem Walked.record_eq_ok_iff {w w' : Walked} {id uri : String} :
    w.record id uri = .ok w' ↔ w.uris.get? id = none ∧
      w' = { w with uris := w.uris.insert id uri, order := w.order ++ [id] } := by
  unfold Walked.record UriMap.record
  cases h : w.uris.get? id with
  | none => simp [Table.contains, h, bind, Except.bind, pure, Except.pure, eq_comm]
  | some v => simp [Table.contains, h, bind, Except.bind]

theorem Walked.record_eq_error_iff {w : Walked} {id uri : String} {e : DepositError} :
    w.record id uri = .error e ↔ w.uris.contains id = true ∧ e = .repeatedLocalId id := by
  unfold Walked.record UriMap.record
  cases h : w.uris.contains id with
  | true => simp [bind, Except.bind, eq_comm]
  | false => simp [bind, Except.bind, pure, Except.pure]

/-- The ways in which a deposit goes wrong after `w`, with what the transcript says of it. -/
inductive Stumbles (w : Walked) (r : Resource) (parent : String) :
    Transcript → DepositError → Prop where
  | refused (e : DepositError) : Stumbles w r parent [.call (.deposit r parent) (.error e)] e
  | repeated (d : Deposited) (known : w.uris.contains r.id = true) :
    Stumbles w r parent [.call (.deposit r parent) (.ok (.deposited d))] (.repeatedLocalId r.id)
  | undescribed (d : Deposited) (description : Description)
      (new : w.uris.contains r.id = false) (described : r.description? = some description)
      (unnamed : d.description = none) :
    Stumbles w r parent [.call (.deposit r parent) (.ok (.deposited d)),
      .event (.deposit d.uri r.subject)] (.missingDescription d.uri)
  | repeatedDescription (d : Deposited) (description : Description) (uri : String)
      (new : w.uris.contains r.id = false) (described : r.description? = some description)
      (named : d.description = some uri)
      (known : description.id = r.id ∨ w.uris.contains description.id = true) :
    Stumbles w r parent [.call (.deposit r parent) (.ok (.deposited d)),
      .event (.deposit d.uri r.subject)] (.repeatedLocalId description.id)

/-- What a walk has gained by some placements. -/
structure Gains (w : Walked) (ps : List Placement) (w' : Walked) : Prop where
  complete : ∀ p ∈ ps, p.IsComplete
  recorded : w.uris.recordAll (ps.flatMap Placement.visited) = .ok w'.uris
  order : w'.order = w.order ++ (ps.flatMap Placement.visited).map (·.subject.id)
  deposits : w'.deposits = w.deposits + ps.length
  visited : w'.deposits + w'.descriptions =
    w.deposits + w.descriptions + (ps.flatMap Placement.visited).length

theorem Gains.refl (w : Walked) : Gains w [] w where
  complete := by simp
  recorded := rfl
  order := by simp
  deposits := rfl
  visited := rfl

theorem Gains.trans {w w' w'' : Walked} {ps qs : List Placement} (h : Gains w ps w')
    (k : Gains w' qs w'') : Gains w (ps ++ qs) w'' where
  complete p hp := (List.mem_append.mp hp).elim (h.complete p) (k.complete p)
  recorded := by
    rw [List.flatMap_append]
    exact recordAll_append_eq_ok_iff.mpr ⟨w'.uris, h.recorded, k.recorded⟩
  order := by rw [k.order, h.order, List.flatMap_append, List.map_append, List.append_assoc]
  deposits := by rw [k.deposits, h.deposits, List.length_append, Nat.add_assoc]
  visited := by
    rw [k.visited, h.visited, List.flatMap_append, List.length_append, Nat.add_assoc]

/-- After a whole walk, the nodes that were given a URI are those of its placements. -/
theorem Gains.visited_eq {tree : List Resource} {target : String} {ps : List Placement}
    {w : Walked} (hg : Gains Walked.nothing ps w) (hw : Walks (tree.map (·, target)) ps []) :
    w.visited tree = ps.flatMap Placement.visited := by
  have subjects : Resource.allSubjects tree = (ps.flatMap Placement.visited).map (·.subject) :=
    (hw.subjects_of_whole hg.complete).symm
  have known (v : Visited) (hv : v ∈ ps.flatMap Placement.visited) :
      (w.uris.get? v.subject.id).map (⟨v.subject, ·⟩) = some v := by
    rw [(get?_recordAll hg.recorded v.subject.id v.uri).mpr (.inl ⟨v, hv, rfl, rfl⟩)]
    rfl
  rw [Walked.visited, subjects, List.filterMap_map]
  exact (List.filterMap_congr known).trans List.filterMap_some

/-- The transcript of a walk through `pending` after `w`. -/
def WalkTranscript (pending : List (Resource × String)) (w : Walked) (t : Transcript) :
    Except DepositError Walked → Prop
  | .ok w' => ∃ ps, Walks pending ps [] ∧ t = ps.flatMap Placement.lines ∧ Gains w ps w'
  | .error e => ∃ ps r parent left w' last, Walks pending ps ((r, parent) :: left) ∧
      t = ps.flatMap Placement.lines ++ last ∧ Gains w ps w' ∧ Stumbles w' r parent last e

/-- A walk continues after placements were made. -/
theorem WalkTranscript.after {pending left : List (Resource × String)} {ps : List Placement}
    {w w' : Walked} {t : Transcript} {result : Except DepositError Walked}
    (hw : Walks pending ps left) (hg : Gains w ps w') (h : WalkTranscript left w' t result) :
    WalkTranscript pending w (ps.flatMap Placement.lines ++ t) result := by
  cases result with
  | ok w'' =>
    obtain ⟨qs, hq, rfl, hg'⟩ := h
    exact ⟨ps ++ qs, walks_append.mpr ⟨left, hw, hq⟩, by rw [List.flatMap_append], hg.trans hg'⟩
  | error e =>
    obtain ⟨qs, r, parent, left', w'', last, hq, rfl, hg', hs⟩ := h
    exact ⟨ps ++ qs, r, parent, left', w'', last, walks_append.mpr ⟨left, hw, hq⟩,
      by rw [List.flatMap_append, List.append_assoc], hg.trans hg', hs⟩

/-- What goes wrong with some resources pending goes wrong with more behind them. -/
theorem WalkTranscript.frame {pending : List (Resource × String)} {w : Walked} {t : Transcript}
    {e : DepositError} (h : WalkTranscript pending w t (.error e))
    (behind : List (Resource × String)) : WalkTranscript (pending ++ behind) w t (.error e) := by
  obtain ⟨ps, r, parent, left, w', last, hw, ht, hg, hs⟩ := h
  exact ⟨ps, r, parent, left ++ behind, w', last, hw.frame behind, ht, hg, hs⟩

section Walk

variable {σ : Type} {s : Session (StateM σ)} {notify : Event → StateM σ Unit}

/-- One deposit is a placement or goes wrong. -/
theorem notes_depositNode (r : Resource) (parent : String) (w : Walked) :
    Notes s notify (depositNode s.noted (noteEvent notify) r parent w)
      (depositNode s notify r parent w) fun t result =>
        match result with
        | .ok (d, w') => t = Placement.lines ⟨r, parent, d⟩ ∧ Gains w [⟨r, parent, d⟩] w'
        | .error e => Stumbles w r parent t e := by
  unfold depositNode
  refine Notes.bind (Notes.deposit r parent) ?_ ?_
  · rintro t e rfl
    exact .refused e
  rintro t d rfl
  refine Notes.bind (Notes.compute _) ?_ ?_
  · rintro t e ⟨rfl, he⟩
    obtain ⟨known, rfl⟩ := Walked.record_eq_error_iff.mp he.symm
    exact .repeated d known
  rintro t w₁ ⟨rfl, hw₁⟩
  obtain ⟨new, rfl⟩ := Walked.record_eq_ok_iff.mp hw₁.symm
  refine Notes.announceThen ?_
  cases hd : r.description? with
  | none =>
    have visited : Placement.visited ⟨r, parent, d⟩ = [⟨r.subject, d.uri⟩] := by
      simp [Placement.visited, hd]
    refine Notes.pure ⟨by rw [Placement.lines, visited]; rfl, ?_, ?_, ?_, rfl, ?_⟩
    · simp [Placement.IsComplete, hd]
    · simpa [visited] using recordAll_cons_eq_ok_iff.mpr ⟨new, rfl⟩
    · simp [visited, Resource.subject]
    · simp [visited]; omega
  | some description =>
    have unknown : w.uris.contains r.id = false := by simpa [Table.contains] using new
    cases hu : d.description with
    | none => exact Notes.throw (.undescribed d description unknown hd hu)
    | some uri =>
      have visited : Placement.visited ⟨r, parent, d⟩ =
          [⟨r.subject, d.uri⟩, ⟨description.subject, uri⟩] := by
        simp [Placement.visited, hd, hu]
      refine Notes.bind (Notes.compute _) ?_ ?_
      · rintro t e ⟨rfl, he⟩
        obtain ⟨known, rfl⟩ := Walked.record_eq_error_iff.mp he.symm
        refine .repeatedDescription d description uri unknown hd hu ?_
        simpa [Table.contains_insert] using known
      rintro t w₂ ⟨rfl, hw₂⟩
      obtain ⟨newDescription, rfl⟩ := Walked.record_eq_ok_iff.mp hw₂.symm
      refine Notes.announceThen ?_
      refine Notes.pure ⟨by rw [Placement.lines, visited]; rfl, ?_, ?_, ?_, rfl, ?_⟩
      · simp [Placement.IsComplete, hu]
      · simpa [visited] using recordAll_cons_eq_ok_iff.mpr
          ⟨new, recordAll_cons_eq_ok_iff.mpr ⟨newDescription, rfl⟩⟩
      · simp [visited, Resource.subject, Description.subject]
      · simp [visited]; omega

/-- A resource of which nothing is below counts as walked once it is placed. -/
theorem walkTranscript_leaf {r : Resource} {parent : String} {d : Deposited} {w w' : Walked}
    (hr : r.children = []) (hg : Gains w [⟨r, parent, d⟩] w') :
    WalkTranscript [(r, parent)] w (Placement.lines ⟨r, parent, d⟩ ++ []) (.ok w') :=
  ⟨[⟨r, parent, d⟩], ⟨rfl, rfl, by simp [Walks, Placement.below, hr]⟩, by simp, hg⟩

mutual

theorem notes_walkNode (r : Resource) (parent : String) (w : Walked) :
    Notes s notify (walkNode s.noted (noteEvent notify) r parent w) (walkNode s notify r parent w)
      (WalkTranscript [(r, parent)] w) := by
  unfold walkNode
  refine Notes.bind (notes_depositNode r parent w) ?_ ?_
  · intro t e hs
    exact ⟨[], r, parent, [], w, t, rfl, rfl, Gains.refl w, hs⟩
  rintro t ⟨d, w'⟩ ⟨rfl, hg⟩
  cases r with
  | rdfSource id g => exact Notes.pure (walkTranscript_leaf rfl hg)
  | binary id b description => exact Notes.pure (walkTranscript_leaf rfl hg)
  | container id g children =>
    refine (notes_walkNodes children d.uri w').mono fun more result h => ?_
    have placed : Walks [(.container id g children, parent)] [⟨.container id g children, parent, d⟩]
        (children.map (·, d.uri)) := by
      refine ⟨rfl, rfl, ?_⟩
      simp [Walks, Placement.below, Resource.children]
    simpa using h.after placed hg

theorem notes_walkNodes (tree : List Resource) (parent : String) (w : Walked) :
    Notes s notify (walkNodes s.noted (noteEvent notify) tree parent w)
      (walkNodes s notify tree parent w) (WalkTranscript (tree.map (·, parent)) w) := by
  cases tree with
  | nil =>
    unfold walkNodes
    exact Notes.pure ⟨[], rfl, rfl, Gains.refl w⟩
  | cons r rest =>
    unfold walkNodes
    refine Notes.bind (notes_walkNode r parent w) ?_ ?_
    · intro t e h
      exact h.frame (rest.map (·, parent))
    rintro t w' ⟨ps, hw, rfl, hg⟩
    refine (notes_walkNodes rest parent w').mono fun more result h => ?_
    exact h.after (hw.frame (rest.map (·, parent))) hg

end

/-- **A walk makes placements until no resource is pending**, or until a deposit goes wrong, which
ends it. -/
theorem notes_walk (tree : List Resource) (target : String) :
    Notes s notify (walk s.noted (noteEvent notify) tree target) (walk s notify tree target)
      (WalkTranscript (tree.map (·, target)) Walked.nothing) :=
  notes_walkNodes tree target Walked.nothing

end Walk

end LinkedDeposit
