import LinkedDeposit.Proofs.Repository.Schedule

/-!
# Coherence of the sessions on one repository

Between the committed resources and what the sessions have staged there is an invariant, whatever
the schedule. A resource that a session patched is committed, in the version noted for it or a later
one, and the staged one is newer than that version. Anything else that it staged it has created, so
nothing is committed there (`Transaction.Fits`), and no other session has staged anything there
(`Workspace.Coherent`).

Results:
* `coherent_step`: every step keeps the invariant and lets the repository evolve.
* `coherent_run`, `evolves_run`: so does every schedule. A committed version never decreases, grows
  with every change of its graph, and names one state.
-/

namespace LinkedDeposit

namespace Transaction

/-- The session has created a resource at the URI. -/
def Creates (t : Transaction) (uri : String) : Prop :=
  (t.staged.get? uri).isSome = true ∧ t.baseVersions.get? uri = none

/-- What a session has staged fits the committed resources. -/
structure Fits (t : Transaction) (r : Repository) : Prop where
  /-- What it patched is committed, not in an earlier version than it was. -/
  patched : ∀ uri version, t.baseVersions.get? uri = some version →
    ∃ staged committed, t.staged.get? uri = some staged ∧ r.get? uri = some committed ∧
      version ≤ committed.version ∧ version < staged.version ∧
      staged.kind = committed.kind ∧ staged.binary = committed.binary
  /-- What it created is not committed. -/
  created : ∀ uri, t.Creates uri → r.get? uri = none

theorem Fits.congr {t u : Transaction} {r : Repository} (h : t.Fits r)
    (hs : u.staged = t.staged) (hb : u.baseVersions = t.baseVersions) : u.Fits r where
  patched uri version hv := by
    rw [hs]
    exact h.patched uri version (hb ▸ hv)
  created uri hc := h.created uri (by unfold Creates at hc ⊢; rwa [hs, hb] at hc)

/-- Nothing staged fits everything. -/
theorem fits_finish (t : Transaction) (isCommit : Bool) (r : Repository) :
    (t.finish isCommit).Fits r where
  patched _ _ hv := by cases hv
  created _ hc := by cases hc.1

theorem not_creates_finish (t : Transaction) (isCommit : Bool) (uri : String) :
    ¬ (t.finish isCommit).Creates uri := fun h => by cases h.1

/-- What fits a repository fits a later one that has nothing where the session created something. -/
theorem Fits.evolves {t : Transaction} {r q : Repository} (h : t.Fits r) (hr : r.Evolves q)
    (hq : ∀ uri, t.Creates uri → q.get? uri = none) : t.Fits q where
  patched uri version hv := by
    obtain ⟨staged, committed, hs, hc, hle, hlt, hk, hb⟩ := h.patched uri version hv
    obtain ⟨later, hl, becomes⟩ := hr uri committed hc
    exact ⟨staged, later, hs, hl, Nat.le_trans hle becomes.version, hlt,
      hk.trans becomes.kind.symm, hb.trans becomes.binary.symm⟩
  created := hq

/-- Where a session has staged something that is committed too, it has patched it. -/
theorem Fits.noted {t : Transaction} {r : Repository} (h : t.Fits r) {uri : String}
    {staged committed : Stored} (hs : t.staged.get? uri = some staged)
    (hc : r.get? uri = some committed) : ∃ version, t.baseVersions.get? uri = some version := by
  cases hb : t.baseVersions.get? uri with
  | some version => exact ⟨version, rfl⟩
  | none =>
    have := h.created uri ⟨by rw [hs]; rfl, hb⟩
    rw [hc] at this
    cases this

/-! ## New resources -/

theorem get?_staged_place (t : Transaction) (parent uri : String) (new : Table String Stored)
    (k : String) : (t.place parent uri new).staged.get? k =
      (new.get? k).or (t.staged.get? k) := Table.get?_union _ _ k

/-! ## Patches -/

theorem get?_staged_amend {t : Transaction} {uri k : String} {p : Patch} {seen : Stored} :
    (t.amend uri p seen).staged.get? k =
      if k = uri then some { seen with graph := p.applyTo seen.graph, version := seen.version + 1 }
      else t.staged.get? k :=
  Table.get?_insert ..

/-- The first patch of a resource notes its version. -/
theorem get?_baseVersions_amend {t : Transaction} {uri k : String} {p : Patch} {seen : Stored} :
    (t.amend uri p seen).baseVersions.get? k =
      if k = uri ∧ t.staged.get? uri = none then some seen.version else t.baseVersions.get? k := by
  unfold amend Table.contains
  cases t.staged.get? uri with
  | some s => simp
  | none =>
    simp only [Option.isSome_none, Bool.false_eq_true, if_false, Table.get?_insert, and_true]

theorem creates_amend {t : Transaction} {uri k : String} {p : Patch} {seen : Stored} :
    (t.amend uri p seen).Creates k ↔ t.Creates k := by
  unfold Creates
  rw [get?_staged_amend, get?_baseVersions_amend]
  by_cases hk : k = uri
  · subst hk
    cases t.staged.get? k <;> simp
  · simp [hk]

/-- A patch of a resource that the session saw fits. -/
theorem Fits.amend {t : Transaction} {r : Repository} (h : t.Fits r) {uri : String} (p : Patch)
    {seen : Stored} (hl : t.lookup r uri = some seen) : (t.amend uri p seen).Fits r where
  patched k version hv := by
    rw [get?_baseVersions_amend] at hv
    rw [get?_staged_amend]
    obtain ⟨found, hf, rfl⟩ := found_of_lookup hl
    by_cases hk : k = uri
    · subst hk
      rw [if_pos rfl]
      cases hs : t.staged.get? k with
      | none =>
        -- patched for the first time, as it is committed
        rw [hs, Option.none_or] at hf
        rw [if_pos ⟨rfl, hs⟩] at hv
        obtain rfl := Option.some.inj hv
        exact ⟨_, found, rfl, hf, Nat.le_refl _, Nat.lt_succ_self _, rfl, rfl⟩
      | some s =>
        rw [hs, Option.some_or] at hf
        obtain rfl := Option.some.inj hf
        rw [hs, if_neg (by simp)] at hv
        obtain ⟨s', committed, hs', hc, hle, hlt, rest⟩ := h.patched k version hv
        obtain rfl := Option.some.inj (hs.symm.trans hs')
        exact ⟨_, committed, rfl, hc, hle, Nat.lt_succ_of_lt hlt, rest⟩
    · rw [if_neg fun e => hk e.1] at hv
      rw [if_neg hk]
      exact h.patched k version hv
  created k hc := h.created k (creates_amend.mp hc)

/-! ## Commits -/

theorem conflict?_eq_none_iff {r : Repository} {t : Transaction} :
    t.conflict? r = none ↔ ∀ uri version, t.baseVersions.get? uri = some version →
      ∃ committed, r.get? uri = some committed ∧ committed.version = version := by
  simp only [conflict?, Option.map_eq_none_iff, List.find?_eq_none, decide_eq_true_eq, not_not,
    Option.map_eq_some_iff, Prod.forall, Table.mem_entries_iff]

/-- **A commit without conflict lets the repository evolve.** -/
theorem Fits.evolves_merge {t : Transaction} {r : Repository} (h : t.Fits r)
    (agreed : t.conflict? r = none) : r.Evolves (t.merge r) := by
  intro uri committed hc
  rw [t.get?_merge r uri, hc]
  cases hs : t.staged.get? uri with
  | none => exact ⟨_, rfl, committed.becomes_containAll uri t.contained⟩
  | some staged =>
    refine ⟨_, rfl, .trans ?_ (staged.becomes_containAll uri t.contained)⟩
    obtain ⟨version, hv⟩ := h.noted hs hc
    obtain ⟨staged', committed', hs', hc', -, hlt, hk, hb⟩ := h.patched uri version hv
    obtain rfl : staged = staged' := Option.some.inj (hs.symm.trans hs')
    obtain rfl : committed = committed' := Option.some.inj (hc.symm.trans hc')
    -- no other session has changed it since it was first patched
    obtain ⟨committed', hc', rfl⟩ := conflict?_eq_none_iff.mp agreed uri version hv
    obtain rfl : committed = committed' := Option.some.inj (hc.symm.trans hc')
    exact .of_lt hk hb hlt

/-- A commit brings nothing where the session has staged nothing. -/
theorem get?_merge_eq_none {r : Repository} {t : Transaction} {uri : String}
    (hs : t.staged.get? uri = none) (hr : r.get? uri = none) : (t.merge r).get? uri = none := by
  rw [t.get?_merge r uri, hs, hr]
  rfl

end Transaction

/-! ## The invariant -/

/-- What the sessions have staged fits the committed resources, and what one has created stands
apart from the others. -/
structure Workspace.Coherent (w : Workspace) : Prop where
  fits : ∀ name, (w.transaction name).Fits w.repository
  apart : ∀ name other, other ≠ name → ∀ uri, (w.transaction name).Creates uri →
    (w.transaction other).staged.get? uri = none

namespace Workspace

/-- A repository without sessions. -/
theorem coherent_idle (r : Repository) (deposits : Nat) : Coherent ⟨r, Table.empty, deposits⟩ where
  fits _ := ⟨fun _ _ h => (nomatch h), fun _ h => (nomatch h.1)⟩
  apart _ _ _ _ h := by cases h.1

variable {w : Workspace} {name : String} {t : Transaction}

/-- The invariant is kept when one session stages something that fits, apart from the others. -/
theorem Coherent.keep (h : w.Coherent) (fits : t.Fits w.repository)
    (creates : ∀ other, other ≠ name → ∀ uri, t.Creates uri →
      (w.transaction other).staged.get? uri = none)
    (leaves : ∀ other, other ≠ name → ∀ uri, (w.transaction other).Creates uri →
      t.staged.get? uri = none) : (w.keep name t).Coherent where
  fits other := by
    rw [transaction_keep]
    split
    case isTrue => exact fits
    case isFalse => exact h.fits other
  apart one other hne uri hc := by
    rw [transaction_keep] at hc ⊢
    by_cases h1 : one = name
    · rw [if_pos h1] at hc
      rw [if_neg fun e => hne (e.trans h1.symm)]
      exact creates other (fun e => hne (e.trans h1.symm)) uri hc
    · rw [if_neg h1] at hc
      split
      case isTrue => exact leaves one h1 uri hc
      case isFalse => exact h.apart one other hne uri hc

/-- A call that stages nothing keeps the invariant. -/
theorem Coherent.keep_same (h : w.Coherent) (hs : t.staged = (w.transaction name).staged)
    (hb : t.baseVersions = (w.transaction name).baseVersions) : (w.keep name t).Coherent := by
  have creates (uri : String) : t.Creates uri ↔ (w.transaction name).Creates uri := by
    unfold Transaction.Creates
    rw [hs, hb]
  refine h.keep ((h.fits name).congr hs hb) ?_ ?_
  · intro other hne uri hc
    exact h.apart name other hne uri ((creates uri).mp hc)
  · intro other hne uri hc
    rw [hs]
    exact h.apart other name (Ne.symm hne) uri hc

/-- A resource that is created at unused URIs fits, apart from the others. -/
theorem Coherent.keep_place (h : w.Coherent) {parent uri : String} {new : Table String Stored}
    (fresh : ∀ k, (new.get? k).isSome = true → w.Unused k) :
    (w.keep name ((w.transaction name).place parent uri new)).Coherent := by
  have created {k : String} (hc : ((w.transaction name).place parent uri new).Creates k) :
      w.Unused k ∨ (w.transaction name).Creates k := by
    obtain ⟨hs, hb⟩ := hc
    rw [Transaction.get?_staged_place] at hs
    cases hn : new.get? k with
    | some s => exact .inl (fresh k (by rw [hn]; rfl))
    | none => exact .inr ⟨by rwa [hn, Option.none_or] at hs, hb⟩
  have old {k : String} (hk : ¬ w.Unused k) : new.get? k = none := by
    cases hn : new.get? k with
    | some s => exact absurd (fresh k (by rw [hn]; rfl)) hk
    | none => rfl
  refine h.keep ⟨?_, ?_⟩ ?_ ?_
  · intro k version hv
    obtain ⟨s, committed, hs, hc, rest⟩ := (h.fits name).patched k version hv
    refine ⟨s, committed, ?_, hc, rest⟩
    rw [Transaction.get?_staged_place, old fun hu => by simp [hu.1] at hc, Option.none_or, hs]
  · intro k hc
    exact (created hc).elim (·.1) ((h.fits name).created k)
  · intro other hne k hc
    exact (created hc).elim (·.2 other) (h.apart name other hne k)
  · intro other hne k hc
    rw [Transaction.get?_staged_place,
      old fun hu => by simp [Transaction.Creates, hu.2 other] at hc, Option.none_or]
    exact h.apart other name (Ne.symm hne) k hc

/-- A patch of a resource that the session saw fits, apart from the others. -/
theorem Coherent.keep_amend (h : w.Coherent) {uri : String} (p : Patch) {seen : Stored}
    (hl : (w.transaction name).lookup w.repository uri = some seen) :
    (w.keep name ((w.transaction name).amend uri p seen)).Coherent := by
  refine h.keep ((h.fits name).amend p hl) ?_ ?_
  · intro other hne k hc
    exact h.apart name other hne k (Transaction.creates_amend.mp hc)
  · intro other hne k hc
    have apart := h.apart other name (Ne.symm hne) k hc
    rw [Transaction.get?_staged_amend, apart]
    -- the session sees nothing where another one has created something
    refine if_neg fun e => ?_
    obtain ⟨found, hf, -⟩ := Transaction.found_of_lookup hl
    rw [← e, apart, (h.fits other).created k hc] at hf
    cases hf

/-- A finished session has staged nothing. -/
theorem Coherent.keep_finish (h : w.Coherent) (isCommit : Bool) :
    (w.keep name ((w.transaction name).finish isCommit)).Coherent := by
  refine h.keep (Transaction.fits_finish _ _ _) ?_ ?_
  · intro other hne uri hc
    exact absurd hc (Transaction.not_creates_finish _ _ _)
  · intro other hne uri hc
    rfl

/-- A call that commits nothing only changes the transaction of its session. -/
theorem Coherent.after {c : SessionCall} {answer : Except DepositError SessionAnswer}
    (h : (w.keep name t).Coherent) : (w.after name c (answer, w.repository, t)).Coherent :=
  ⟨h.fits, h.apart⟩

/-- A later repository that has nothing where the sessions created something keeps the
invariant. -/
theorem Coherent.evolves {v : Workspace} (h : w.Coherent) (hr : w.repository.Evolves v.repository)
    (ht : v.transactions = w.transactions)
    (new : ∀ name uri, (w.transaction name).Creates uri → v.repository.get? uri = none) :
    v.Coherent := by
  have ht (name : String) : v.transaction name = w.transaction name := by
    unfold transaction
    rw [ht]
  refine ⟨fun name => ?_, fun name other hne uri hc => ?_⟩
  · rw [ht]
    exact (h.fits name).evolves hr (new name)
  · rw [ht] at hc ⊢
    exact h.apart name other hne uri hc

/-! ## Steps and runs -/

/-- **A step keeps the invariant and lets the repository evolve.** -/
theorem coherent_step {host : Host} {c : SessionCall} (h : w.Coherent)
    (fresh : w.CreatesFresh host name c) :
    (w.step host name c).2.Coherent ∧ w.repository.Evolves (w.step host name c).2.repository := by
  obtain ⟨answer, r, t, hstep, performed⟩ := step_performs host name c w
  unfold CreatesFresh at fresh
  rw [hstep] at fresh ⊢
  have evolved := Repository.Evolves.refl w.repository
  cases performed with
  | refused | conflicting | failed | fetched | unasked =>
    exact ⟨Coherent.after (h.keep_same rfl rfl), evolved⟩
  | placed resource parent container new unfinished seen isContainer stored =>
    refine ⟨Coherent.after (h.keep_place fun k hk => ?_), evolved⟩
    exact fresh k ((Resource.get?_stored_isSome stored k).mp hk)
  | patched uri p stored unfinished proper seen =>
    exact ⟨Coherent.after (h.keep_amend p seen), evolved⟩
  | rolledBack => exact ⟨Coherent.after (h.keep_finish false), evolved⟩
  | committed unfinished agreed =>
    have evolved := (h.fits name).evolves_merge agreed
    refine ⟨(h.keep_finish true).evolves evolved rfl fun other uri hc => ?_, evolved⟩
    rw [transaction_keep] at hc
    by_cases hne : other = name
    · rw [if_pos hne] at hc
      exact absurd hc (Transaction.not_creates_finish _ _ _)
    · rw [if_neg hne] at hc
      exact Transaction.get?_merge_eq_none (h.apart other name (Ne.symm hne) uri hc)
        ((h.fits other).created uri hc)

section Run

variable {host : Host} {schedule : List (String × SessionCall)}

/-- **Every schedule keeps the invariant.** -/
theorem coherent_run (h : w.Coherent) (fresh : MintsFresh host schedule w) :
    (run host schedule w).2.Coherent :=
  run_induction (P := fun _ w => w.Coherent) h
    (fun _ _ _ _ h fresh => (coherent_step h fresh).1) fresh

/-- What coherent steps keep holds after a run from a coherent workspace. -/
theorem Coherent.run_induction {P : Workspace → Prop} (h : w.Coherent) (init : P w)
    (step : ∀ v name c, v.Coherent → v.CreatesFresh host name c → P v →
      P (v.step host name c).2)
    (fresh : MintsFresh host schedule w) : P (run host schedule w).2 :=
  (Workspace.run_induction (P := fun _ v => v.Coherent ∧ P v) ⟨h, init⟩
    (fun _ v name c hv fresh =>
      ⟨(coherent_step hv.1 fresh).1, step v name c hv.1 fresh hv.2⟩) fresh).2

/-- **Along every schedule the repository evolves.** -/
theorem evolves_run (h : w.Coherent) (fresh : MintsFresh host schedule w) :
    w.repository.Evolves (run host schedule w).2.repository :=
  h.run_induction (P := fun v => w.repository.Evolves v.repository) (.refl _)
    (fun _ _ _ coherent fresh evolved => evolved.trans (coherent_step coherent fresh).2) fresh

end Run

end Workspace

end LinkedDeposit
