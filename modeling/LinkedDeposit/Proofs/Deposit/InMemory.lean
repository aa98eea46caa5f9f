import LinkedDeposit.Proofs.Deposit.Finish
import LinkedDeposit.Proofs.Deposit.Minted
import LinkedDeposit.Proofs.Link.Rewrite
import LinkedDeposit.Proofs.Repository.Coherence

/-!
# The calls of a deposit, made on a repository in memory

The transcript of a deposit lists calls and answers. Here the session that gave them is one of a
workspace, with a notifier that keeps a state of its own beside it (`Session.beside`), and the
question is what the calls do to its transaction, part by part.

Results:
* `places_of_answers`: deposits stage their resources one beside the other.
* `relinks_of_answers`: fetches and patches remap what is staged, and nothing else.
* `answers_commit`: the commit merges it.
-/

namespace LinkedDeposit

/-! ## A session beside a notifier -/

section Beside

variable {σ τ : Type}

/-- A session that leaves the second of two states alone. -/
def Session.beside (τ : Type) (s : Session (StateM σ)) : Session (StateM (σ × τ)) :=
  @Session.lift (StateM σ) (StateM (σ × τ)) _ ⟨onFirst⟩ s

/-- A notifier that works on the second of two states. -/
def watching (observe : Event → τ → τ) (e : Event) : StateM (σ × τ) Unit := fun x =>
  ((), (x.1, observe e x.2))

theorem answer_beside (s : Session (StateM σ)) (c : SessionCall) (x : σ × τ) :
    ((s.beside τ).answer c).run x =
      (((s.answer c).run x.1).1, (((s.answer c).run x.1).2, x.2)) := by
  have shown {α : Type} (f : α → SessionAnswer) (m : ExceptT DepositError (StateM σ) α) :
      (f <$> (ExceptT.mk (onFirst m.run) : ExceptT DepositError (StateM (σ × τ)) α)).run.run x =
        (((f <$> m).run.run x.1).1, (((f <$> m).run.run x.1).2, x.2)) := by
    rw [ExceptT.run_map, ExceptT.run_map]
    rfl
  cases c <;> exact shown _ _

/-- From state `x` the session gives these answers and ends in state `y`. -/
def Answers (s : Session (StateM σ)) : σ → List Answered → σ → Prop
  | x, [], y => x = y
  | x, (c, answer) :: rest, y =>
    ((s.answer c).run x).1 = answer ∧ Answers s ((s.answer c).run x).2 rest y

theorem answers_append {s : Session (StateM σ)} {cs ds : List Answered} {x z : σ} :
    Answers s x (cs ++ ds) z ↔ ∃ y, Answers s x cs y ∧ Answers s y ds z := by
  induction cs generalizing x with
  | nil => simp [Answers]
  | cons c cs ih =>
    obtain ⟨c, answer⟩ := c
    simp only [List.cons_append, Answers, ih, and_assoc, exists_and_left]

/-- Beside a notifier, a session gives the answers that it gives alone. -/
theorem answers_of_plays {s : Session (StateM σ)} {observe : Event → τ → τ} {t : Transcript}
    {x y : σ × τ} (h : Plays (s.beside τ) (watching observe) x t y) :
    Answers s x.1 t.calls y.1 := by
  induction t generalizing x with
  | nil => exact congrArg Prod.fst h
  | cons line t ih =>
    cases line with
    | event e => exact ih (x := (x.1, observe e x.2)) h
    | call c answer =>
      obtain ⟨ha, hrest⟩ := h
      rw [answer_beside] at ha hrest
      exact ⟨ha, ih hrest⟩

end Beside

namespace Workspace

variable {host : Host} {name : String} {w w' : Workspace}

/-- What the first answer says of the session's transaction. -/
theorem performs_of_answers {c : SessionCall} {answer : Except DepositError SessionAnswer}
    {rest : List Answered} (h : Answers (session host name) w ((c, answer) :: rest) w') :
    ∃ r t, Transaction.Performs host.files (host.freshName (w.deposits + 1)) w.repository
        (w.transaction name) c answer r t ∧
      Answers (session host name) (w.after name c (answer, r, t)) rest w' := by
  obtain ⟨ha, hrest⟩ := h
  change (w.step host name c).1 = answer at ha
  change Answers _ (w.step host name c).2 rest w' at hrest
  obtain ⟨answer', r, t, hstep, performed⟩ := step_performs host name c w
  rw [hstep] at ha hrest
  obtain rfl : answer' = answer := ha
  exact ⟨r, t, performed, hrest⟩

/-! ## Deposits -/

/-- What deposits do to the transaction of their session. -/
structure Places (host : Host) (name : String) (w : Workspace) (ps : List Placement)
    (w' : Workspace) : Prop where
  minted : Minted host w.deposits ps
  repository : w'.repository = w.repository
  contained : (w'.transaction name).contained =
    (w.transaction name).contained ++ ps.map fun p => (p.parent, p.uri)
  /-- What is stored for a resource is staged. -/
  staged : (ps.flatMap Placement.uris).Nodup → ∀ p ∈ ps, ∃ new,
    p.resource.stored host.files p.uri = .ok new ∧
      ∀ uri ∈ p.uris, (w'.transaction name).staged.get? uri = new.get? uri
  frame : ∀ uri, uri ∉ ps.flatMap Placement.uris →
    (w'.transaction name).staged.get? uri = (w.transaction name).staged.get? uri

/-- A deposit places its resource and stages it at its URIs. -/
theorem places_cons {p : Placement} {ps : List Placement}
    (h : Answers (session host name) w ((p :: ps).map Placement.call) w') :
    ∃ new, p.answer = p.resource.placed
        (Transaction.childUri p.parent (host.freshName (w.deposits + 1))) ∧
      p.resource.stored host.files p.uri = .ok new ∧
      Answers (session host name)
        { w.keep name ((w.transaction name).place p.parent p.uri new) with
          deposits := w.deposits + 1 } (ps.map Placement.call) w' := by
  obtain ⟨resource, parent, answer⟩ := p
  change Answers _ w ((.deposit resource parent, .ok (.deposited answer)) :: _) w' at h
  obtain ⟨r, t, performed, rest⟩ := performs_of_answers h
  cases performed with
  | placed _ _ container new unfinished seen isContainer stored =>
    exact ⟨new, rfl, stored, rest⟩

/-- The transaction of a session after a deposit. -/
theorem transaction_deposited (w : Workspace) (name : String) (t : Transaction) (deposits : Nat) :
    ({ w.keep name t with deposits } : Workspace).transaction name = t :=
  (transaction_keep w name name t).trans (if_pos rfl)

/-- **Deposits stage their resources**, one beside the other. -/
theorem places_of_answers {ps : List Placement}
    (h : Answers (session host name) w (ps.map Placement.call) w') :
    Places host name w ps w' := by
  induction ps generalizing w with
  | nil =>
    obtain rfl : w = w' := h
    exact ⟨trivial, rfl, (List.append_nil _).symm, by simp, fun _ _ => rfl⟩
  | cons p ps ih =>
    obtain ⟨new, named, stored, rest⟩ := places_cons h
    have after := ih rest
    have kept := transaction_deposited w name
      ((w.transaction name).place p.parent p.uri new) (w.deposits + 1)
    have placed := (Placement.isPlaced_of_answer named).uris_eq
    refine ⟨⟨named, after.minted⟩, after.repository, ?_, fun distinct q hq => ?_,
      fun uri hu => ?_⟩
    · rw [after.contained, kept, List.map_cons]
      exact List.append_assoc _ [_] _
    · rw [List.flatMap_cons, List.nodup_append] at distinct
      rcases List.mem_cons.mp hq with rfl | hq
      · refine ⟨new, stored, fun uri hu => ?_⟩
        rw [after.frame uri fun hn => distinct.2.2 uri hu uri hn rfl, kept]
        obtain ⟨s, hs⟩ := Option.isSome_iff_exists.mp
          ((Resource.get?_stored_isSome stored uri).mpr (placed ▸ hu))
        rw [Transaction.place, Table.get?_union, hs]
        rfl
      · exact after.staged distinct.2.1 q hq
    · rw [List.flatMap_cons, List.mem_append, not_or] at hu
      rw [after.frame uri hu.2, kept]
      have unplaced := Resource.get?_stored_eq_none stored (placed ▸ hu.1)
      rw [Transaction.place, Table.get?_union, unplaced]
      rfl

/-! ## Fetches and patches -/

/-- What relinking does to the transaction of a session. -/
structure Relinks (name : String) (w : Workspace) (uris : UriMap) (ls : List Relink)
    (w' : Workspace) : Prop where
  repository : w'.repository = w.repository
  contained : (w'.transaction name).contained = (w.transaction name).contained
  /-- What the session sees at the URI of a node is remapped. -/
  relinked : (ls.map (·.node.uri)).Nodup → ∀ l ∈ ls, ∀ staged,
    (w.transaction name).staged.get? l.node.uri = some staged →
      ∃ remapped, (w'.transaction name).staged.get? l.node.uri = some remapped ∧
        remapped.kind = staged.kind ∧
        ((w.transaction name).shown l.node.uri remapped).graph =
          (((w.transaction name).shown l.node.uri staged).graph.remap uris).union
            (Repository.containments l.node.uri (w.transaction name).contained)
  frame : ∀ uri, uri ∉ ls.map (·.node.uri) →
    (w'.transaction name).staged.get? uri = (w.transaction name).staged.get? uri

/-- One node is fetched and, if its links change, patched. -/
theorem relinks_cons {uris : UriMap} {l : Relink} {rest : List Answered}
    (h : Answers (session host name) w (Transcript.calls (l.lines uris) ++ rest) w') :
    ∃ v, Relinks name w uris [l] v ∧ Answers (session host name) v rest w' := by
  rw [Relink.calls_lines] at h
  obtain ⟨r, t, fetched, h⟩ := performs_of_answers h
  obtain ⟨-, rfl, rfl, seen, hl, hg, -⟩ := fetched.fetched_inv
  have visible (staged : Stored)
      (hs : (w.transaction name).staged.get? l.node.uri = some staged) :
      seen = (w.transaction name).shown l.node.uri staged := by
    obtain ⟨found, hf, rfl⟩ := Transaction.found_of_lookup hl
    rw [hs, Option.some_or] at hf
    rw [Option.some.inj hf]
  cases hp : (l.patch uris).isEmpty with
  | true =>
    rw [if_pos hp] at h
    refine ⟨_, ?_, h⟩
    refine ⟨rfl, by rw [transaction_after_self]; rfl, fun _ m hm staged hs => ?_,
      fun uri _ => by rw [transaction_after_self]; rfl⟩
    obtain rfl := List.mem_singleton.mp hm
    refine ⟨staged, by rw [transaction_after_self]; exact hs, rfl, ?_⟩
    have same : m.graph = m.graph.remap uris := Patch.isEmpty_between.mp hp
    rw [visible staged hs] at hg
    rw [← hg, ← same, hg]
    exact (Graph.union_union_self _ _).symm
  | false =>
    rw [if_neg (by rw [hp]; exact Bool.false_ne_true)] at h
    obtain ⟨r, t, patched, h⟩ := performs_of_answers h
    rw [transaction_after_self] at patched
    obtain ⟨rfl, seen', hl', -, rfl⟩ := patched.patched_inv hp
    obtain rfl : seen = seen' := Option.some.inj (hl.symm.trans hl')
    refine ⟨_, ?_, h⟩
    refine ⟨rfl, by rw [transaction_after_self]; rfl, fun _ m hm staged hs => ?_, fun uri hu => ?_⟩
    · obtain rfl := List.mem_singleton.mp hm
      rw [transaction_after_self]
      refine ⟨_, Transaction.get?_staged_amend.trans (if_pos rfl), ?_, ?_⟩
      · rw [visible staged hs]
        rfl
      · have patched : (m.patch uris).applyTo m.graph = m.graph.remap uris :=
          Patch.applyTo_between m.graph (m.graph.remap uris)
        rw [Transaction.shown, ← hg, patched, hg, visible staged hs]
    · rw [transaction_after_self]
      exact Transaction.get?_staged_amend.trans (if_neg (by simpa using hu))

/-- **Relinking remaps what is staged**, node by node. -/
theorem relinks_of_answers {uris : UriMap} {ls : List Relink}
    (h : Answers (session host name) w (Transcript.calls (ls.flatMap (Relink.lines uris))) w') :
    Relinks name w uris ls w' := by
  induction ls generalizing w with
  | nil =>
    obtain rfl : w = w' := h
    exact ⟨rfl, rfl, by simp, fun _ _ => rfl⟩
  | cons l ls ih =>
    rw [List.flatMap_cons, Transcript.calls_append] at h
    obtain ⟨v, first, rest⟩ := relinks_cons h
    have after := ih rest
    refine ⟨after.repository.trans first.repository, after.contained.trans first.contained,
      fun distinct m hm staged hs => ?_, fun uri hu => ?_⟩
    · obtain ⟨hl, distinct⟩ := List.nodup_cons.mp distinct
      rcases List.mem_cons.mp hm with rfl | hm
      · obtain ⟨remapped, hr, rest⟩ :=
          first.relinked (by simp) m List.mem_cons_self staged hs
        exact ⟨remapped, (after.frame _ hl).trans hr, rest⟩
      · have elsewhere : m.node.uri ∉ [l].map (·.node.uri) := fun he =>
          hl (List.mem_map.mpr ⟨m, hm, List.mem_singleton.mp he⟩)
        rw [← first.frame _ elsewhere] at hs
        have := after.relinked distinct m hm staged hs
        unfold Transaction.shown at this ⊢
        rwa [first.contained] at this
    · rw [List.map_cons, List.mem_cons, not_or] at hu
      rw [after.frame uri hu.2, first.frame uri (by simpa using hu.1)]

/-! ## The commit -/

theorem answers_commit {rest : List Answered}
    (h : Answers (session host name) w ((.commit, .ok .done) :: rest) w') :
    ∃ v, v.repository = (w.transaction name).merge w.repository ∧
      Answers (session host name) v rest w' := by
  obtain ⟨r, t, committed, h⟩ := performs_of_answers h
  obtain ⟨-, -, rfl⟩ := committed.committed_inv
  exact ⟨_, rfl, h⟩

end Workspace

end LinkedDeposit
