/-!
# Ascending lists

A finite set is kept as a list whose members ascend strictly in a linear order, so that equal
sets are equal lists and the order of a listing needs no further sorting.

* `insert` puts a member at its place and leaves a present one alone.
* `pairwise_insert`: insertion keeps the order.
* `ext`: two ascending lists with the same members are the same list.
-/

namespace LinkedDeposit.Ascending

variable {α : Type} [Ord α]

/-- The members ascend strictly. -/
abbrev IsAscending (l : List α) : Prop := l.Pairwise fun a b => compare a b = .lt

/-- Puts `a` before the first greater member. -/
def insert (a : α) : List α → List α
  | [] => [a]
  | b :: l =>
    match compare a b with
    | .lt => a :: b :: l
    | .eq => b :: l
    | .gt => b :: insert a l

/-- The ascending list of the members of any list. -/
def ofList (l : List α) : List α := l.foldr insert []

variable [Std.TransOrd α] [Std.LawfulEqOrd α]

omit [Std.TransOrd α] in
theorem mem_insert {x a : α} {l : List α} : x ∈ insert a l ↔ x = a ∨ x ∈ l := by
  induction l with
  | nil => simp [insert]
  | cons b l ih =>
    unfold insert
    cases h : compare a b with
    | lt => simp
    | eq =>
      have : a = b := Std.LawfulEqOrd.eq_of_compare h
      simp [this]
    | gt => simp [ih]; grind

theorem pairwise_insert {a : α} {l : List α} (h : IsAscending l) : IsAscending (insert a l) := by
  induction l with
  | nil => simp [insert, IsAscending]
  | cons b l ih =>
    obtain ⟨hb, hl⟩ := List.pairwise_cons.mp h
    unfold insert
    cases hab : compare a b with
    | lt =>
      refine List.pairwise_cons.mpr ⟨fun c hc => ?_, h⟩
      rcases List.mem_cons.mp hc with rfl | hc
      · exact hab
      · exact Std.TransCmp.lt_trans hab (hb c hc)
    | eq => exact h
    | gt =>
      refine List.pairwise_cons.mpr ⟨fun c hc => ?_, ih hl⟩
      rcases mem_insert.mp hc with rfl | hc
      · exact Std.OrientedCmp.gt_iff_lt.mp hab
      · exact hb c hc

omit [Std.TransOrd α] in
theorem mem_ofList {x : α} {l : List α} : x ∈ ofList l ↔ x ∈ l := by
  induction l with
  | nil => simp [ofList]
  | cons a l ih => simp only [ofList, List.foldr_cons, mem_insert] at ih ⊢; simp [ih]

theorem pairwise_ofList (l : List α) : IsAscending (ofList l) := by
  induction l with
  | nil => exact List.Pairwise.nil
  | cons a l ih => exact pairwise_insert ih

omit [Std.TransOrd α] in
theorem not_mem_of_lt {a : α} {l : List α} (h : ∀ b ∈ l, compare a b = .lt) : a ∉ l := by
  intro ha
  have := h a ha
  simp at this

/-- An ascending list is determined by its members. -/
theorem ext {l k : List α} (hl : IsAscending l) (hk : IsAscending k)
    (h : ∀ x, x ∈ l ↔ x ∈ k) : l = k := by
  induction l generalizing k with
  | nil =>
    cases k with
    | nil => rfl
    | cons b k => exact absurd ((h b).mpr List.mem_cons_self) (by simp)
  | cons a l ih =>
    cases k with
    | nil => exact absurd ((h a).mp List.mem_cons_self) (by simp)
    | cons b k =>
      obtain ⟨ha, hl'⟩ := List.pairwise_cons.mp hl
      obtain ⟨hb, hk'⟩ := List.pairwise_cons.mp hk
      have hab : a = b := by
        rcases List.mem_cons.mp ((h a).mp List.mem_cons_self) with e | hak
        · exact e
        · rcases List.mem_cons.mp ((h b).mpr List.mem_cons_self) with e | hbl
          · exact e.symm
          · have h1 := ha b hbl
            have h2 := hb a hak
            rw [Std.OrientedOrd.eq_swap, h1] at h2
            cases h2
      subst hab
      rw [ih hl' hk' fun x => ?_]
      have hx := h x
      simp only [List.mem_cons] at hx
      constructor
      · intro hxl
        rcases hx.mp (Or.inr hxl) with rfl | hxk
        · exact absurd hxl (not_mem_of_lt ha)
        · exact hxk
      · intro hxk
        rcases hx.mpr (Or.inr hxk) with rfl | hxl
        · exact absurd hxk (not_mem_of_lt hb)
        · exact hxl

end LinkedDeposit.Ascending
