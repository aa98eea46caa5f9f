import Mathlib.Data.List.Induction
import LinkedDeposit.Proofs.Repository.Operation

/-!
# Schedules

A schedule lists calls of any number of sessions on one repository, in the order in which they are
made. `Workspace.run` makes them and records how each went.

A repository takes the names of new resources from its host. `MintsFresh` is what such names
promise: at no URI that is given out stands a resource, committed or staged. Nothing else is assumed
of them.

Results:
* `run_append`, `run_concat`: a schedule is run part by part.
* `last_or_before`: where a call stands in a schedule with one call more.
* `run_induction`: what holds at the start and is kept by every step holds after a run.
-/

namespace LinkedDeposit

/-- A host without files that numbers new resources. -/
def Host.numbering : Host := ⟨fun _ => .failure "no such file", toString⟩

theorem Host.isDigit_of_mem_freshName {count : Nat} {c : Char}
    (h : c ∈ (numbering.freshName count).toList) : c.isDigit = true := by
  have digits : (numbering.freshName count).toList = Nat.toDigits 10 count := Nat.toList_repr
  rw [digits] at h
  exact Nat.isDigit_of_mem_toDigits (by decide) (by decide) h

theorem Host.freshName_numbering (count : Nat) : '#' ∉ (numbering.freshName count).toList :=
  fun h => absurd (isDigit_of_mem_freshName h) (by decide)

/-- A call of a schedule, as it went. -/
structure Performed where
  session : String
  /-- The name for a new resource that was at hand. -/
  name : String
  call : SessionCall
  answer : Except DepositError SessionAnswer

namespace Performed

def succeeded (p : Performed) : Bool := p.answer.toBool

/-- Whether the call created or patched something. -/
def isWrite (p : Performed) : Bool :=
  p.succeeded && (p.call.kind = .deposit || p.call.kind = .patch)

/-- Whether the call made a session's work visible. -/
def isCommit (p : Performed) : Bool := p.succeeded && p.call.kind = .commit

end Performed

/-- The URIs that an answer gives out. -/
def newUris : Except DepositError SessionAnswer → List String
  | .ok (.deposited d) => d.uris
  | _ => []

/-- Where a list has one more element, any of them is the last one, or is among those before. -/
theorem last_or_before {α : Type} {l earlier later : List α} {last x : α}
    (split : l ++ [last] = earlier ++ x :: later) :
    (earlier = l ∧ x = last) ∨ ∃ later, l = earlier ++ x :: later := by
  rcases later.eq_nil_or_concat with rfl | ⟨later, last', rfl⟩
  · obtain ⟨rfl, same⟩ := List.append_inj' split rfl
    exact .inl ⟨rfl, (List.head_eq_of_cons_eq same).symm⟩
  · rw [List.concat_eq_append, ← List.cons_append, ← List.append_assoc] at split
    exact .inr ⟨later, (List.append_inj' split rfl).1⟩

namespace Workspace

/-- How a call goes. -/
def performed (host : Host) (w : Workspace) (name : String) (c : SessionCall) : Performed :=
  ⟨name, host.freshName (w.deposits + 1), c, (w.step host name c).1⟩

/-- Makes the calls of a schedule and records how they went. -/
def run (host : Host) : List (String × SessionCall) → Workspace → List Performed × Workspace
  | [], w => ([], w)
  | (name, c) :: rest, w =>
    let (trace, w') := run host rest (w.step host name c).2
    (w.performed host name c :: trace, w')

theorem run_append (host : Host) (before after : List (String × SessionCall)) (w : Workspace) :
    run host (before ++ after) w =
      ((run host before w).1 ++ (run host after (run host before w).2).1,
        (run host after (run host before w).2).2) := by
  induction before generalizing w with
  | nil => rfl
  | cons first rest ih =>
    obtain ⟨name, c⟩ := first
    simp only [List.cons_append, run, ih]

theorem run_concat (host : Host) (schedule : List (String × SessionCall)) (name : String)
    (c : SessionCall) (w : Workspace) :
    run host (schedule ++ [(name, c)]) w =
      ((run host schedule w).1 ++ [(run host schedule w).2.performed host name c],
        ((run host schedule w).2.step host name c).2) := by
  rw [run_append]
  rfl

/-! ## Fresh names -/

/-- No resource stands at the URI, committed or staged. -/
def Unused (w : Workspace) (uri : String) : Prop :=
  w.repository.get? uri = none ∧ ∀ name, (w.transaction name).staged.get? uri = none

theorem unused_iff {w : Workspace} {uri : String} : w.Unused uri ↔
    w.repository.get? uri = none ∧ ∀ t ∈ w.transactions.values, t.staged.get? uri = none := by
  unfold Unused
  refine and_congr_right fun _ => ⟨fun h t ht => ?_, fun h name => ?_⟩
  · obtain ⟨⟨name, t'⟩, hm, rfl⟩ := List.mem_map.mp ht
    have := h name
    rwa [transaction, Table.mem_entries_iff.mp hm] at this
  · unfold transaction
    cases ht : w.transactions.get? name with
    | none => rfl
    | some t => exact h t (List.mem_map.mpr ⟨(name, t), Table.mem_entries_iff.mpr ht, rfl⟩)

instance (w : Workspace) (uri : String) : Decidable (w.Unused uri) :=
  decidable_of_iff _ unused_iff.symm

/-- Whatever the call creates, it creates at unused URIs. -/
def CreatesFresh (host : Host) (w : Workspace) (name : String) (c : SessionCall) : Prop :=
  ∀ uri ∈ newUris (w.step host name c).1, w.Unused uri

instance (host : Host) (w : Workspace) (name : String) (c : SessionCall) :
    Decidable (w.CreatesFresh host name c) :=
  inferInstanceAs (Decidable (∀ uri ∈ newUris (w.step host name c).1, w.Unused uri))

/-- Every URI that a schedule gives out is unused. -/
def MintsFresh (host : Host) : List (String × SessionCall) → Workspace → Prop
  | [], _ => True
  | (name, c) :: rest, w =>
    w.CreatesFresh host name c ∧ MintsFresh host rest (w.step host name c).2

instance decidableMintsFresh (host : Host) :
    (schedule : List (String × SessionCall)) → (w : Workspace) →
      Decidable (MintsFresh host schedule w)
  | [], _ => isTrue trivial
  | (name, c) :: rest, w =>
    have := decidableMintsFresh host rest (w.step host name c).2
    inferInstanceAs (Decidable (w.CreatesFresh host name c ∧
      MintsFresh host rest (w.step host name c).2))

theorem mintsFresh_append {host : Host} {before after : List (String × SessionCall)}
    {w : Workspace} :
    MintsFresh host (before ++ after) w ↔
      MintsFresh host before w ∧ MintsFresh host after (run host before w).2 := by
  induction before generalizing w with
  | nil => simp [MintsFresh, run]
  | cons first rest ih =>
    obtain ⟨name, c⟩ := first
    simp only [List.cons_append, MintsFresh, run, ih, and_assoc]

/-- **Induction along a schedule**: what holds at the start and is kept by every step holds after
the run. -/
theorem run_induction {host : Host} {start : Workspace} {P : List Performed → Workspace → Prop}
    (init : P [] start)
    (step : ∀ trace w name c, P trace w → w.CreatesFresh host name c →
      P (trace ++ [w.performed host name c]) (w.step host name c).2)
    {schedule : List (String × SessionCall)} (fresh : MintsFresh host schedule start) :
    P (run host schedule start).1 (run host schedule start).2 := by
  induction schedule using List.reverseRecOn with
  | nil => exact init
  | append_singleton schedule last ih =>
    obtain ⟨name, c⟩ := last
    obtain ⟨fresh, freshLast, -⟩ := mintsFresh_append.mp fresh
    rw [run_concat]
    exact step _ _ name c (ih fresh) freshLast

end Workspace

end LinkedDeposit
