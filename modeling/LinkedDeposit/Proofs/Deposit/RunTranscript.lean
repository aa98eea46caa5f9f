import LinkedDeposit.Deposit.Run
import LinkedDeposit.Proofs.Deposit.WalkTranscript

/-!
# The transcript of a deposit

After the walk, the graph of each node that has one is fetched, and patched if its links change
(`Relink`); a call that the session refuses ends this (`Misses`). Then the session is finished
(`Finishes`). Whatever the session answers, a deposit goes through these three parts in order.

Results:
* `notes_remapNodes`, `notes_walkAndRemap`: the parts before the end.
* `notes_depositTree`: the whole deposit follows `DepositTranscript`.
-/

namespace LinkedDeposit

/-- A node whose graph was fetched and, if its links changed, patched. -/
structure Relink where
  node : Visited
  graph : Graph
  token : Token

namespace Relink

/-- What the new URIs change in the graph. -/
def patch (uris : UriMap) (l : Relink) : Patch := .between l.graph (l.graph.remap uris)

/-- What a transcript says of it. -/
def lines (uris : UriMap) (l : Relink) : Transcript :=
  .call (.fetch l.node.uri) (.ok (.fetched l.graph l.token)) ::
    if (l.patch uris).isEmpty then []
    else [.call (.patch l.node.uri (l.patch uris) l.token) (.ok .done),
      .event (.remap l.node.uri l.node.subject (l.patch uris).extent)]

theorem calls_lines (uris : UriMap) (l : Relink) :
    Transcript.calls (l.lines uris) = (.fetch l.node.uri, .ok (.fetched l.graph l.token)) ::
      if (l.patch uris).isEmpty then []
      else [(.patch l.node.uri (l.patch uris) l.token, .ok .done)] := by
  unfold lines
  split <;> rfl

end Relink

/-- The ways in which a node is missed, with what the transcript says of it. -/
inductive Misses (uris : UriMap) (v : Visited) : Transcript → DepositError → Prop where
  | unfetched (e : DepositError) : Misses uris v [.call (.fetch v.uri) (.error e)] e
  | unpatched (l : Relink) (hv : l.node = v) (changed : (l.patch uris).isEmpty = false)
      (e : DepositError) :
    Misses uris v [.call (.fetch v.uri) (.ok (.fetched l.graph l.token)),
      .call (.patch v.uri (l.patch uris) l.token) (.error e)] e

/-- A report after some nodes were relinked. -/
def Report.relinked (uris : UriMap) (ls : List Relink) (report : Report) : Report :=
  { report with
    remapped := report.remapped + ls.countP fun l => !(l.patch uris).isEmpty
    unchanged := report.unchanged + ls.countP fun l => (l.patch uris).isEmpty }

/-- The transcript of remapping some nodes. -/
def RemapTranscript (uris : UriMap) (vs : List Visited) (report : Report) (t : Transcript) :
    Except DepositError Report → Prop
  | .ok report' => ∃ ls : List Relink, ls.map (·.node) = vs ∧ t = ls.flatMap (Relink.lines uris) ∧
      report' = report.relinked uris ls
  | .error e => ∃ (ls : List Relink) (v : Visited) (rest : List Visited) (last : Transcript),
      vs = ls.map (·.node) ++ v :: rest ∧ t = ls.flatMap (Relink.lines uris) ++ last ∧
        Misses uris v last e

/-- A node is relinked before the others. -/
theorem RemapTranscript.cons {uris : UriMap} {l : Relink} {vs : List Visited} {report : Report}
    {t : Transcript} {result : Except DepositError Report}
    (h : RemapTranscript uris vs (report.relinked uris [l]) t result) :
    RemapTranscript uris (l.node :: vs) report (l.lines uris ++ t) result := by
  cases result with
  | ok report' =>
    obtain ⟨ls, rfl, rfl, rfl⟩ := h
    refine ⟨l :: ls, rfl, rfl, ?_⟩
    simp only [Report.relinked, List.countP_cons, List.countP_nil, Nat.zero_add]
    congr 1 <;> omega
  | error e =>
    obtain ⟨ls, v, rest, last, rfl, rfl, hm⟩ := h
    exact ⟨l :: ls, v, rest, last, rfl, by rw [List.flatMap_cons, List.append_assoc], hm⟩

/-- The transcript of a deposit up to its end. -/
def WorkTranscript (tree : List Resource) (target : String) (t : Transcript)
    (result : Except DepositError Report) : Prop :=
  (∃ e, result = .error e ∧ WalkTranscript (tree.map (·, target)) Walked.nothing t (.error e)) ∨
    ∃ w walked remapped, t = walked ++ remapped ∧
      WalkTranscript (tree.map (·, target)) Walked.nothing walked (.ok w) ∧
      RemapTranscript w.uris ((w.visited tree).filter (·.subject.isRdf))
        ⟨w.deposits, w.descriptions, 0, 0⟩ remapped result

/-- How a deposit ends after its work, with what the transcript says of it. -/
inductive Finishes (target : String) :
    Except DepositError Report → Transcript → Except DepositError Report → Prop where
  | committed (report : Report) : Finishes target (.ok report)
    [.call .commit (.ok .done), .event (.success target report.summary)] (.ok report)
  | refused (report : Report) (e : DepositError) : Finishes target (.ok report)
    [.call .commit (.error e), .event (.error e.message)] (.error e)
  | rolledBack (e : DepositError) (legal : e.isIllegalState = false)
      (answer : Except DepositError SessionAnswer) : Finishes target (.error e)
    [.call .rollback answer, .event (.error e.message)] (.error e)
  | broken (e : DepositError) (illegal : e.isIllegalState = true) :
    Finishes target (.error e) [] (.error e)

/-- The transcript of a deposit. -/
def DepositTranscript (tree : List Resource) (target : String) (t : Transcript)
    (result : Except DepositError Report) : Prop :=
  ∃ work done finish, t = done ++ finish ∧ WorkTranscript tree target done work ∧
    Finishes target work finish result

section Run

variable {σ : Type} {s : Session (StateM σ)} {notify : Event → StateM σ Unit}

/-- One node is relinked or missed. -/
theorem notes_remapNode (uris : UriMap) (v : Visited) :
    Notes s notify (remapNode s.noted (noteEvent notify) uris v) (remapNode s notify uris v)
      fun t result =>
        match result with
        | .ok changed => ∃ l : Relink, l.node = v ∧ t = l.lines uris ∧
            changed = !(l.patch uris).isEmpty
        | .error e => Misses uris v t e := by
  unfold remapNode
  refine Notes.bind (Notes.fetch v.uri) ?_ ?_
  · rintro t e rfl
    exact .unfetched e
  rintro t ⟨g, token⟩ rfl
  let l : Relink := ⟨v, g, token⟩
  change Notes s notify (if (l.patch uris).isEmpty then _ else _)
    (if (l.patch uris).isEmpty then _ else _) _
  cases h : (l.patch uris).isEmpty with
  | true =>
    refine Notes.pure ⟨l, rfl, ?_, by rw [h]; rfl⟩
    rw [Relink.lines, if_pos h]
    rfl
  | false =>
    refine Notes.bind (Notes.patch v.uri (l.patch uris) token) ?_ ?_
    · rintro t e rfl
      exact .unpatched l rfl h e
    rintro t _ rfl
    refine Notes.announceThen ?_
    refine Notes.pure ⟨l, rfl, ?_, by rw [h]; rfl⟩
    rw [Relink.lines, if_neg (by rw [h]; exact Bool.false_ne_true)]
    rfl

theorem notes_remapNodes (uris : UriMap) (vs : List Visited) (report : Report) :
    Notes s notify (remapNodes s.noted (noteEvent notify) uris vs report)
      (remapNodes s notify uris vs report) (RemapTranscript uris vs report) := by
  induction vs generalizing report with
  | nil => exact Notes.pure ⟨[], rfl, rfl, rfl⟩
  | cons v vs ih =>
    unfold remapNodes
    refine Notes.bind (notes_remapNode uris v) ?_ ?_
    · intro t e hm
      exact ⟨[], v, vs, t, rfl, rfl, hm⟩
    rintro t changed ⟨l, rfl, rfl, rfl⟩
    cases h : (l.patch uris).isEmpty with
    | true =>
      refine (ih _).mono fun more result hm => RemapTranscript.cons (l := l) ?_
      simpa [Report.relinked, h] using hm
    | false =>
      refine (ih _).mono fun more result hm => RemapTranscript.cons (l := l) ?_
      simpa [Report.relinked, h] using hm

theorem notes_walkAndRemap (tree : List Resource) (target : String) :
    Notes s notify (walkAndRemap s.noted (noteEvent notify) tree target)
      (walkAndRemap s notify tree target) (WorkTranscript tree target) := by
  unfold walkAndRemap
  refine Notes.bind (notes_walk tree target) ?_ ?_
  · intro t e h
    exact .inl ⟨e, rfl, h⟩
  intro t w h
  refine (notes_remapNodes w.uris _ _).mono fun more result hr => ?_
  exact .inr ⟨w, t, more, rfl, h, hr⟩

/-- Announcing a failure is the last thing that a deposit does. -/
theorem notes_failWith (e : DepositError) :
    Notes s notify (ExceptT.mk (failWith (noteEvent notify) e)) (ExceptT.mk (failWith notify e))
      fun t result => t = [.event (.error e.message)] ∧ result = .error e := by
  unfold failWith
  exact Notes.announceFirst (Notes.throw ⟨rfl, rfl⟩)

/-- **A deposit walks, remaps and finishes its session**, whatever the session answers. -/
theorem notes_depositTree (tree : List Resource) (target : String) :
    Notes s notify (ExceptT.mk (depositTree s.noted (noteEvent notify) tree target))
      (ExceptT.mk (depositTree s notify tree target)) (DepositTranscript tree target) := by
  unfold depositTree
  refine Notes.handle (notes_walkAndRemap tree target) ?_
  intro t work hw
  cases work with
  | ok report =>
    refine Notes.handle Notes.commit ?_
    rintro _ (e | _) rfl
    · refine (notes_failWith e).mono ?_
      rintro _ _ ⟨rfl, rfl⟩
      exact ⟨.ok report, t, _, rfl, hw, .refused report e⟩
    · exact Notes.announceFirst (Notes.pure ⟨.ok report, t, _, rfl, hw, .committed report⟩)
  | error e =>
    cases he : e.isIllegalState with
    | true =>
      simp only [he]
      exact Notes.throw ⟨.error e, t, [], rfl, hw, .broken e he⟩
    | false =>
      simp only [he]
      refine Notes.handle Notes.rollback ?_
      rintro _ answer rfl
      refine (notes_failWith e).mono ?_
      rintro _ _ ⟨rfl, rfl⟩
      exact ⟨.error e, t, _, rfl, hw, .rolledBack e he _⟩

end Run

end LinkedDeposit
