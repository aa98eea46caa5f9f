/-!
# Finite tables

A table holds at most one value per key and lists its entries by ascending key. The order is part
of the type, so two tables that answer every look-up alike are equal.

* `get?_insert`, `get?_union`: what a write does to every look-up.
* `ext`: a table is determined by its look-ups.
-/

namespace LinkedDeposit

/-- At most one value per key, listed by ascending key. -/
structure Table (κ ν : Type) [Ord κ] where
  entries : List (κ × ν)
  ascending : entries.Pairwise fun a b => compare a.1 b.1 = .lt

namespace Table

variable {κ ν : Type} [Ord κ]

/-- The table without entries. -/
def empty : Table κ ν := ⟨[], List.Pairwise.nil⟩

instance : Inhabited (Table κ ν) := ⟨empty⟩
instance : EmptyCollection (Table κ ν) := ⟨empty⟩

/-- The value of the first entry whose key compares equal. -/
def find? (k : κ) : List (κ × ν) → Option ν
  | [] => none
  | (k', v) :: l => if compare k k' = .eq then some v else find? k l

/-- The value kept under a key. -/
def get? (t : Table κ ν) (k : κ) : Option ν := find? k t.entries

/-- Whether a key has a value. -/
def contains (t : Table κ ν) (k : κ) : Bool := (t.get? k).isSome

def size (t : Table κ ν) : Nat := t.entries.length

def isEmpty (t : Table κ ν) : Bool := t.entries.isEmpty

/-- The keys, ascending. -/
def keys (t : Table κ ν) : List κ := t.entries.map (·.1)

/-- The values in the order of their keys. -/
def values (t : Table κ ν) : List ν := t.entries.map (·.2)

/-- Puts an entry at its place, replacing one with the same key. -/
def insertEntry (k : κ) (v : ν) : List (κ × ν) → List (κ × ν)
  | [] => [(k, v)]
  | (k', v') :: l =>
    match compare k k' with
    | .lt => (k, v) :: (k', v') :: l
    | .eq => (k, v) :: l
    | .gt => (k', v') :: insertEntry k v l

theorem key_of_mem_insertEntry [Std.LawfulEqOrd κ] {k : κ} {v : ν} {l : List (κ × ν)} {e : κ × ν}
    (h : e ∈ insertEntry k v l) : e = (k, v) ∨ e ∈ l := by
  induction l with
  | nil => simpa [insertEntry] using h
  | cons a l ih =>
    unfold insertEntry at h
    split at h <;> grind

variable [Std.TransOrd κ] [Std.LawfulEqOrd κ]

theorem ascending_insertEntry {k : κ} {v : ν} {l : List (κ × ν)}
    (h : l.Pairwise fun a b => compare a.1 b.1 = .lt) :
    (insertEntry k v l).Pairwise fun a b => compare a.1 b.1 = .lt := by
  induction l with
  | nil => simp [insertEntry]
  | cons a l ih =>
    obtain ⟨ha, hl⟩ := List.pairwise_cons.mp h
    unfold insertEntry
    cases hk : compare k a.1 with
    | lt =>
      refine List.pairwise_cons.mpr ⟨fun e he => ?_, h⟩
      rcases List.mem_cons.mp he with rfl | he
      · exact hk
      · exact Std.TransCmp.lt_trans hk (ha e he)
    | eq =>
      have hka : k = a.1 := Std.LawfulEqOrd.eq_of_compare hk
      exact List.pairwise_cons.mpr ⟨fun e he => hka ▸ ha e he, hl⟩
    | gt =>
      refine List.pairwise_cons.mpr ⟨fun e he => ?_, ih hl⟩
      rcases key_of_mem_insertEntry he with rfl | he
      · exact Std.OrientedCmp.gt_iff_lt.mp hk
      · exact ha e he

/-- Keeps `v` under `k`, whatever stood there. -/
def insert (t : Table κ ν) (k : κ) (v : ν) : Table κ ν :=
  ⟨insertEntry k v t.entries, ascending_insertEntry t.ascending⟩

/-- Adds every entry of `u`, whose values win. -/
def union (t u : Table κ ν) : Table κ ν := u.entries.foldl (fun t e => t.insert e.1 e.2) t

/-- The table of a list of entries, the last one of a key winning. -/
def ofList (l : List (κ × ν)) : Table κ ν := l.foldl (fun t e => t.insert e.1 e.2) empty

/-! ## Look-ups after a write -/

omit [Std.TransOrd κ] [Std.LawfulEqOrd κ] in
@[simp] theorem get?_empty (k : κ) : (empty : Table κ ν).get? k = none := rfl

omit [Std.TransOrd κ] in
theorem find?_insertEntry [DecidableEq κ] (k k' : κ) (v : ν) (l : List (κ × ν)) :
    find? k' (insertEntry k v l) = if k' = k then some v else find? k' l := by
  induction l with
  | nil => simp [insertEntry, find?]
  | cons a l ih =>
    obtain ⟨ak, av⟩ := a
    unfold insertEntry
    cases hk : compare k ak with
    | lt => simp [find?]
    | eq =>
      have : k = ak := Std.LawfulEqOrd.eq_of_compare hk
      subst this
      simp only [find?, Std.compare_eq_iff_eq]
      grind
    | gt =>
      have hne : k ≠ ak := by
        rintro rfl
        simp at hk
      simp only [find?, ih, Std.compare_eq_iff_eq]
      grind

theorem get?_insert [DecidableEq κ] (t : Table κ ν) (k k' : κ) (v : ν) :
    (t.insert k v).get? k' = if k' = k then some v else t.get? k' :=
  find?_insertEntry k k' v t.entries

@[simp] theorem get?_insert_self (t : Table κ ν) (k : κ) (v : ν) :
    (t.insert k v).get? k = some v := by
  classical simp [get?_insert]

/-- Whether a key has a value after a write. -/
theorem contains_insert [DecidableEq κ] (t : Table κ ν) (k k' : κ) (v : ν) :
    (t.insert k v).contains k' = (decide (k' = k) || t.contains k') := by
  by_cases h : k' = k <;> simp [contains, get?_insert, h]

/-! ## Entries and look-ups -/

omit [Std.TransOrd κ] in
theorem find?_eq_some_of_mem {k : κ} {v : ν} {l : List (κ × ν)}
    (h : l.Pairwise fun a b => compare a.1 b.1 = .lt) (hm : (k, v) ∈ l) : find? k l = some v := by
  induction l with
  | nil => cases hm
  | cons a l ih =>
    obtain ⟨ha, hl⟩ := List.pairwise_cons.mp h
    rcases List.mem_cons.mp hm with rfl | hml
    · simp [find?]
    · have hne : k ≠ a.1 := by
        rintro rfl
        have := ha _ hml
        simp at this
      obtain ⟨ak, av⟩ := a
      rw [find?, if_neg fun e => hne (Std.LawfulEqOrd.eq_of_compare e)]
      exact ih hl hml

omit [Std.TransOrd κ] in
theorem mem_of_find?_eq_some {k : κ} {v : ν} {l : List (κ × ν)} (h : find? k l = some v) :
    (k, v) ∈ l := by
  induction l with
  | nil => cases h
  | cons a l ih =>
    obtain ⟨ak, av⟩ := a
    rw [find?] at h
    split at h
    case isTrue hk =>
      have : k = ak := Std.LawfulEqOrd.eq_of_compare hk
      grind
    case isFalse => exact List.mem_cons_of_mem _ (ih h)

omit [Std.TransOrd κ] in
theorem mem_entries_iff {t : Table κ ν} {k : κ} {v : ν} :
    (k, v) ∈ t.entries ↔ t.get? k = some v :=
  ⟨find?_eq_some_of_mem t.ascending, mem_of_find?_eq_some⟩

omit [Std.TransOrd κ] in
/-- A key before every key of a list is not in the list. -/
theorem find?_eq_none_of_lt {k : κ} {l : List (κ × ν)} (h : ∀ e ∈ l, compare k e.1 = .lt) :
    find? k l = none := by
  cases hf : find? k l with
  | none => rfl
  | some v =>
    have := h _ (mem_of_find?_eq_some hf)
    simp at this

omit [Std.TransOrd κ] in
theorem mem_keys {t : Table κ ν} {k : κ} : k ∈ t.keys ↔ (t.get? k).isSome = true := by
  rw [keys, List.mem_map, Option.isSome_iff_exists]
  constructor
  · rintro ⟨⟨k, v⟩, he, rfl⟩
    exact ⟨v, mem_entries_iff.mp he⟩
  · rintro ⟨v, hv⟩
    exact ⟨(k, v), mem_entries_iff.mpr hv, rfl⟩

omit [Std.TransOrd κ] in
theorem nodup_keys (t : Table κ ν) : t.keys.Nodup := by
  refine List.pairwise_map.mpr (t.ascending.imp fun {a b} h he => ?_)
  rw [he, Std.compare_self] at h
  cases h

theorem get?_foldl_insert [DecidableEq κ] {l : List (κ × ν)}
    (hl : l.Pairwise fun a b => compare a.1 b.1 = .lt) (t : Table κ ν) (k : κ) :
    (l.foldl (fun t e => t.insert e.1 e.2) t).get? k = (find? k l).or (t.get? k) := by
  induction l generalizing t with
  | nil => simp [find?]
  | cons a l ih =>
    obtain ⟨ha, hl⟩ := List.pairwise_cons.mp hl
    rw [List.foldl_cons, ih hl, get?_insert, find?]
    by_cases hk : k = a.1
    · subst hk
      simp [find?_eq_none_of_lt ha]
    · simp [hk]

/-- What a union holds: the values of the second table win. -/
theorem get?_union [DecidableEq κ] (t u : Table κ ν) (k : κ) :
    (t.union u).get? k = (u.get? k).or (t.get? k) :=
  get?_foldl_insert u.ascending t k

/-- Tables that answer every look-up alike are equal. -/
theorem ext {t u : Table κ ν} (h : ∀ k, t.get? k = u.get? k) : t = u := by
  obtain ⟨l, hl⟩ := t
  obtain ⟨m, hm⟩ := u
  congr
  induction l generalizing m with
  | nil =>
    cases m with
    | nil => rfl
    | cons b m =>
      have := h b.1
      simp [get?, find?] at this
  | cons a l ih =>
    obtain ⟨ha, hl'⟩ := List.pairwise_cons.mp hl
    cases m with
    | nil =>
      have := h a.1
      simp [get?, find?] at this
    | cons b m =>
      obtain ⟨hb, hm'⟩ := List.pairwise_cons.mp hm
      have ha' : b = a ∨ a ∈ m := by
        have : (a.1, a.2) ∈ (⟨b :: m, hm⟩ : Table κ ν).entries := by
          rw [mem_entries_iff, ← h a.1, ← mem_entries_iff]
          exact List.mem_cons_self
        grind
      have hb' : a = b ∨ b ∈ l := by
        have : (b.1, b.2) ∈ (⟨a :: l, hl⟩ : Table κ ν).entries := by
          rw [mem_entries_iff, h b.1, ← mem_entries_iff]
          exact List.mem_cons_self
        grind
      have hab : a = b := by
        rcases ha' with e | ham
        · exact e.symm
        · rcases hb' with e | hbl
          · exact e
          · have h1 := ha b hbl
            rw [Std.OrientedOrd.eq_swap, hb a ham] at h1
            cases h1
      subst hab
      congr 1
      refine ih hl' m hm' fun k => ?_
      have hk := h k
      simp only [get?, find?] at hk ⊢
      by_cases hka : k = a.1
      · rw [hka, find?_eq_none_of_lt ha, find?_eq_none_of_lt hb]
      · simpa [hka] using hk

end Table

end LinkedDeposit
