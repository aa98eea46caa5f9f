import LinkedDeposit.Rdf.JsonLd
import Mathlib.Data.List.Nodup
import Mathlib.Data.List.Perm.Subperm
import Mathlib.Logic.Equiv.Basic
import Mathlib.Tactic.Common

/-!
# The labels that a reader generates

A reader numbers the blank nodes that it generates and passes over the labels of its document.
`Draws used n labels m` says which labels come next after number `n`, and that the last of them has
number `m`.

Results:
* `nextFresh_spec`: the next number is the least one whose label the document does not use. In
  particular it depends on which labels are used, not on how they are listed (`nextFresh_congr`).
* `Draws.nodup`: no label comes twice.
* `exists_perm_map_eq`: if the same labels are given out in another order, a bijection of labels
  tells who has which, and it moves no other label.
-/

namespace LinkedDeposit.JsonLd

theorem generatedLabel_injective : Function.Injective generatedLabel := by
  intro m n h
  have digits (k : Nat) : Nat.ofDigitChars 10 ((generatedLabel k).toList.drop 1) 0 = k := by
    rw [generatedLabel, String.toList_append]
    change Nat.ofDigitChars 10 k.repr.toList 0 = k
    rw [Nat.toList_repr, Nat.ofDigitChars_toDigits (by decide) (by decide)]
  rw [← digits m, h, digits n]

/-! ## The next label -/

/-- The search stops at the first label that is not used, unless it runs out of candidates. -/
theorem go_spec (used : List String) (fuel n : Nat) :
    n ≤ nextFresh.go used fuel n ∧
      (∀ m, n ≤ m → m < nextFresh.go used fuel n → generatedLabel m ∈ used) ∧
      (generatedLabel (nextFresh.go used fuel n) ∈ used →
        nextFresh.go used fuel n = n + fuel) := by
  induction fuel generalizing n with
  | zero =>
    refine ⟨Nat.le_refl _, fun m low high => ?_, fun _ => rfl⟩
    exact absurd high (by simpa [nextFresh.go] using low)
  | succ fuel ih =>
    rw [nextFresh.go]
    split
    · case isTrue taken =>
      obtain ⟨low, passed, last⟩ := ih (n + 1)
      refine ⟨by omega, fun m hm high => ?_, fun h => by rw [last h]; omega⟩
      rcases Nat.eq_or_lt_of_le hm with rfl | hm
      · exact taken
      · exact passed m hm high
    · case isFalse free =>
      exact ⟨Nat.le_refl _, fun m low high => absurd high (by omega), fun h => absurd h free⟩

/-- Among one candidate more than there are used labels, one is free. -/
theorem exists_free (used : List String) (n : Nat) :
    ∃ m, n ≤ m ∧ m < n + (used.length + 1) ∧ generatedLabel m ∉ used := by
  by_contra none
  push Not at none
  let candidates := (List.range' n (used.length + 1)).map generatedLabel
  have distinct : candidates.Nodup := List.Nodup.map generatedLabel_injective List.nodup_range'
  have inside : candidates ⊆ used := by
    intro l hl
    obtain ⟨m, hm, rfl⟩ := List.mem_map.mp hl
    obtain ⟨low, high⟩ := List.mem_range'_1.mp hm
    exact none m low high
  have count := (List.Nodup.subperm distinct inside).length_le
  simp only [candidates, List.length_map, List.length_range'] at count
  omega

/-- **The next number is the least one with a free label.** -/
theorem nextFresh_spec (used : List String) (n : Nat) :
    n < nextFresh used n ∧ generatedLabel (nextFresh used n) ∉ used ∧
      ∀ m, n < m → m < nextFresh used n → generatedLabel m ∈ used := by
  obtain ⟨low, passed, last⟩ := go_spec used (used.length + 1) (n + 1)
  refine ⟨low, fun taken => ?_, passed⟩
  obtain ⟨m, hm, near, free⟩ := exists_free used (n + 1)
  exact free (passed m hm (by rw [last taken]; exact near))

/-- The next number depends on which labels are used, not on how they are listed. -/
theorem nextFresh_congr {used used' : List String} (same : ∀ l, l ∈ used ↔ l ∈ used') (n : Nat) :
    nextFresh used n = nextFresh used' n := by
  obtain ⟨low, free, least⟩ := nextFresh_spec used n
  obtain ⟨low', free', least'⟩ := nextFresh_spec used' n
  rw [same] at free
  rw [← same] at free'
  rcases Nat.lt_trichotomy (nextFresh used n) (nextFresh used' n) with h | h | h
  · exact absurd (least' _ low h) free
  · exact h
  · exact absurd (least _ low' h) free'

/-! ## A sequence of labels -/

/-- The labels that come next after a number, and the number of the last of them. -/
inductive Draws (used : List String) : Nat → List String → Nat → Prop where
  | nil (n : Nat) : Draws used n [] n
  | cons {n m : Nat} {labels : List String} (rest : Draws used (nextFresh used n) labels m) :
      Draws used n (generatedLabel (nextFresh used n) :: labels) m

namespace Draws

variable {used : List String} {n m : Nat} {labels : List String}

theorem append_iff {before after : List String} :
    Draws used n (before ++ after) m ↔ ∃ k, Draws used n before k ∧ Draws used k after m := by
  constructor
  · intro h
    induction before generalizing n with
    | nil => exact ⟨n, .nil n, h⟩
    | cons l before ih =>
      cases h with
      | cons rest =>
        obtain ⟨k, first, second⟩ := ih rest
        exact ⟨k, .cons first, second⟩
  · rintro ⟨k, first, second⟩
    induction first with
    | nil => exact second
    | cons _ ih => exact .cons (ih second)

/-- Every label is generated, with a number after `n`, and free. -/
theorem mem (h : Draws used n labels m) {l : String} (hl : l ∈ labels) :
    l ∉ used ∧ ∃ k, n < k ∧ l = generatedLabel k := by
  induction h with
  | nil => cases hl
  | @cons n m labels rest ih =>
    obtain ⟨low, free, -⟩ := nextFresh_spec used n
    rcases List.mem_cons.mp hl with rfl | hl
    · exact ⟨free, _, low, rfl⟩
    · obtain ⟨free, k, hk, rfl⟩ := ih hl
      exact ⟨free, k, by omega, rfl⟩

theorem nodup (h : Draws used n labels m) : labels.Nodup := by
  induction h with
  | nil => exact List.nodup_nil
  | cons rest ih =>
    refine List.nodup_cons.mpr ⟨fun again => ?_, ih⟩
    obtain ⟨-, k, hk, same⟩ := rest.mem again
    exact absurd (generatedLabel_injective same) (by omega)

theorem congr {used' : List String} (same : ∀ l, l ∈ used ↔ l ∈ used')
    (h : Draws used n labels m) : Draws used' n labels m := by
  induction h with
  | nil => exact .nil _
  | cons _ ih =>
    rw [nextFresh_congr same]
    exact .cons (nextFresh_congr same _ ▸ ih)

end Draws

/-! ## The same labels in another order -/

/-- Lists of the same labels differ by a bijection that moves no other label. -/
theorem exists_perm_map_eq {α : Type} [DecidableEq α] {l l' : List α} (same : l.Perm l')
    (distinct : l.Nodup) : ∃ σ : Equiv.Perm α, l.map σ = l' ∧ ∀ a ∉ l, σ a = a := by
  induction same with
  | nil => exact ⟨Equiv.refl α, rfl, fun _ _ => rfl⟩
  | cons a _ ih =>
    obtain ⟨new, distinct⟩ := List.nodup_cons.mp distinct
    obtain ⟨σ, image, fixed⟩ := ih distinct
    refine ⟨σ, by rw [List.map_cons, image, fixed a new], fun b hb => fixed b ?_⟩
    exact fun h => hb (List.mem_cons_of_mem _ h)
  | swap a b l =>
    obtain ⟨⟨ne, newb⟩, newa, -⟩ := by simpa [not_or] using distinct
    refine ⟨Equiv.swap b a, ?_, fun c hc => ?_⟩
    · have others : l.map (Equiv.swap b a) = l.map id :=
        List.map_congr_left fun c hc => Equiv.swap_apply_of_ne_of_ne
          (fun h => newb (h ▸ hc)) (fun h => newa (h ▸ hc))
      rw [List.map_cons, List.map_cons, Equiv.swap_apply_left, Equiv.swap_apply_right, others,
        List.map_id]
    · exact Equiv.swap_apply_of_ne_of_ne (fun h => hc (by simp [h])) (fun h => hc (by simp [h]))
  | trans first _ ih₁ ih₂ =>
    obtain ⟨σ, image, fixed⟩ := ih₁ distinct
    obtain ⟨τ, image', fixed'⟩ := ih₂ (first.nodup_iff.mp distinct)
    refine ⟨σ.trans τ, by rw [← image', ← image, List.map_map]; rfl, fun a ha => ?_⟩
    rw [Equiv.trans_apply, fixed a ha, fixed' a (fun h => ha (first.mem_iff.mpr h))]

end LinkedDeposit.JsonLd
