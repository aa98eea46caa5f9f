import LinkedDeposit.Rdf.Patch

/-!
# The least patch

Many patches turn one graph into another. A patch may remove what is not there, add what is there
already, or add again what it has removed; `applyTo_eq_iff` says which of them do it all the same.
The patch between two graphs is the least one: whatever it names, every other one names, too
(`Patch.Within`). So it leaves alone what does not have to change, also where others have changed
something in the meantime.

Results:
* `applyTo_eq_iff`: which patches turn one graph into another.
* `applyTo_between_union`: the patch between two graphs on a graph that others have added to.
* `between_least`.
-/

namespace LinkedDeposit.Patch

variable {g h : Graph} {p : Patch} {t : Triple}

/-- What the first patch adds or removes, so does the second. -/
structure Within (p q : Patch) : Prop where
  added : ∀ t ∈ p.added, t ∈ q.added
  removed : ∀ t ∈ p.removed, t ∈ q.removed

theorem mem_added_between : t ∈ (between g h).added ↔ t ∈ h ∧ t ∉ g := Graph.mem_diff

theorem mem_removed_between : t ∈ (between g h).removed ↔ t ∈ g ∧ t ∉ h := Graph.mem_diff

/-- **Which patches turn one graph into another.** They name at least what the patch between the
graphs names, add nothing foreign to the second graph, and add again what they remove of it. -/
theorem applyTo_eq_iff : p.applyTo g = h ↔ (between g h).Within p ∧ (∀ t ∈ p.added, t ∈ h) ∧
    ∀ t ∈ p.removed, t ∈ h → t ∈ p.added := by
  constructor
  · rintro rfl
    refine ⟨⟨fun t new => ?_, fun t old => ?_⟩, fun t added => ?_, fun t removed kept => ?_⟩
    · obtain ⟨there, absent⟩ := mem_added_between.mp new
      exact (mem_applyTo.mp there).resolve_left fun stayed => absent stayed.1
    · obtain ⟨there, gone⟩ := mem_removed_between.mp old
      exact Decidable.byContradiction fun spared => gone (mem_applyTo.mpr (.inl ⟨there, spared⟩))
    · exact mem_applyTo.mpr (.inr added)
    · exact (mem_applyTo.mp kept).resolve_left fun stayed => stayed.2 removed
  · rintro ⟨least, inside, restored⟩
    refine Graph.ext fun t => ?_
    rw [mem_applyTo]
    constructor
    · rintro (⟨there, spared⟩ | added)
      · exact Decidable.byContradiction fun gone =>
          spared (least.removed t (mem_removed_between.mpr ⟨there, gone⟩))
      · exact inside t added
    · intro wanted
      by_cases there : t ∈ g
      · by_cases removed : t ∈ p.removed
        · exact .inr (restored t removed wanted)
        · exact .inl ⟨there, removed⟩
      · exact .inr (least.added t (mem_added_between.mpr ⟨wanted, there⟩))

/-- The patch between two graphs, on the first graph with something added to it, gives the second
graph with the same added, as far as it is not removed. -/
theorem applyTo_between_union (g h c : Graph) :
    (between g h).applyTo (g.union c) = h.union (c.diff (between g h).removed) := by
  refine Graph.ext fun t => ?_
  simp only [mem_applyTo, Graph.mem_union, Graph.mem_diff, mem_added_between, mem_removed_between]
  by_cases there : t ∈ g <;> by_cases wanted : t ∈ h <;> simp [there, wanted]

/-- **The patch between two graphs is the least one** that turns the first into the second. It
removes only what is there and adds only what is not, and it is empty exactly if the graphs are
equal. -/
theorem between_least (g h : Graph) :
    (between g h).applyTo g = h ∧
      (∀ p : Patch, p.applyTo g = h → (between g h).Within p) ∧
      (∀ t ∈ (between g h).added, t ∉ (between g h).removed) ∧
      (∀ t ∈ (between g h).removed, t ∈ g) ∧
      (∀ t ∈ (between g h).added, t ∉ g) ∧
      ((between g h).isEmpty = true ↔ g = h) := by
  refine ⟨applyTo_between g h, fun p turns => (applyTo_eq_iff.mp turns).1,
    fun t added removed => ?_, fun t removed => (mem_removed_between.mp removed).1,
    fun t added => (mem_added_between.mp added).2, isEmpty_between⟩
  exact (mem_added_between.mp added).2 (mem_removed_between.mp removed).1

/-- A patch that removes and adds more than it has to. -/
theorem between_least_wasteful :
    let triple (s : String) : Triple := ⟨.iri s, "p", .plain ""⟩
    let g := Graph.ofList [triple "a", triple "b"]
    let h := Graph.ofList [triple "b", triple "c"]
    let p : Patch := ⟨.ofList [triple "b", triple "c"],
      .ofList [triple "a", triple "b", triple "d"]⟩
    p.applyTo g = h ∧ (between g h).Within p ∧ ¬ p.Within (between g h) := by
  intro triple g h p
  have turns : p.applyTo g = h := by decide +kernel
  refine ⟨turns, (between_least g h).2.1 p turns, fun within => ?_⟩
  have added : triple "b" ∈ (between g h).added := within.added _ (by decide +kernel)
  revert added
  decide +kernel

end LinkedDeposit.Patch
