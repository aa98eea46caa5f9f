import LinkedDeposit.Ldp.Session
import LinkedDeposit.Proofs.Link.Rebase
import LinkedDeposit.Proofs.Url.Below

/-!
# Addresses and URIs

A session with a transaction moves the URI of a resource below the transaction when it sends a
request, and the addresses that come back below the repository. Each move is a partial bijection:
what it takes along comes back by the other one. The functions of a session are total, so they also
meet what a move does not take along. A URI outside the repository stays as it is, and comes back
unless it was below the transaction all the while; the transaction may itself be below the
repository.

Results:
* `rebase?_symm`: what is moved to another base is moved back.
* `isSome_rebase?_iff`: what is moved is the base with a path or a fragment behind it, or alone.
* `fromWire_toWire`, `toWire_fromWire`: which URIs and which addresses come back.
* `moves_undo_each_other`: all of it, for graphs too.
-/

namespace LinkedDeposit

/-- **What is moved to another base is moved back.** -/
theorem rebase?_symm {source destination uri moved : String}
    (h : rebase? source destination uri = some moved) :
    rebase? destination source moved = some uri := by
  obtain ⟨rest, ends, hu, hm⟩ := rebase?_eq_some_iff.mp h
  exact rebase?_eq_some_iff.mpr ⟨rest, ends, hm, hu⟩

/-- A rest leaves the last segment of a base whole if it is empty, a path or a fragment. -/
theorem endsSegment_iff {rest : String} : endsSegment rest.toList = true ↔
    rest = "" ∨ (∃ path, rest = "/" ++ path) ∨ ∃ fragment, rest = "#" ++ fragment := by
  have behind (c : Char) (s : List Char) :
      String.singleton c ++ String.ofList s = rest ↔ c :: s = rest.toList := by
    rw [← String.toList_inj, String.toList_append, String.toList_ofList, String.toList_singleton]
    rfl
  constructor
  · intro h
    cases hr : rest.toList with
    | nil => exact .inl (String.toList_eq_nil_iff.mp hr)
    | cons c s =>
      have split := (behind c s).mpr hr.symm
      rw [hr] at h
      rcases (by simpa [endsSegment] using h : c = '/' ∨ c = '#') with rfl | rfl
      · exact .inr (.inl ⟨_, split.symm⟩)
      · exact .inr (.inr ⟨_, split.symm⟩)
  · rintro (rfl | ⟨path, rfl⟩ | ⟨fragment, rfl⟩)
    · rfl
    · simp [endsSegment]
    · simp [endsSegment]

/-- **What is moved is the base**, alone or with a path or a fragment behind it. -/
theorem isSome_rebase?_iff {source destination uri : String} :
    (rebase? source destination uri).isSome = true ↔ ∃ rest, uri = Text.trimSlashes source ++ rest ∧
      (rest = "" ∨ (∃ path, rest = "/" ++ path) ∨ ∃ fragment, rest = "#" ++ fragment) := by
  simp only [Option.isSome_iff_exists, rebase?_eq_some_iff]
  constructor
  · rintro ⟨moved, rest, ends, hu, -⟩
    refine ⟨String.ofList rest, hu, endsSegment_iff.mp ?_⟩
    rwa [String.toList_ofList]
  · rintro ⟨rest, hu, ends⟩
    refine ⟨_, rest.toList, endsSegment_iff.mpr ends, ?_, rfl⟩
    rwa [String.ofList_toList]

/-- What lands below the second base is below the first. -/
theorem Lands.known {base tx uri : String} (h : Lands base tx uri) (below : isBelow tx uri = true) :
    isBelow base uri = true := by
  rcases h with h | h
  · exact h
  · rw [h] at below
    cases below

namespace Ldp

section Addresses

variable {base tx uri address : String} {g : Graph}

theorem isBelow_trimSlashes (base uri : String) :
    isBelow (Text.trimSlashes base) uri = isBelow base uri := by
  unfold isBelow
  rw [Text.trimSlashes_trimSlashes]

theorem toWire_some (base tx uri : String) : toWire base (some tx) uri = rebase base tx uri := by
  simp only [toWire, Option.elim_some]

theorem fromWire_some (base tx uri : String) :
    fromWire base (some tx) uri = rebase tx base uri := by
  simp only [fromWire, Option.elim_some]

/-- A URI below the repository is addressed below the transaction. -/
theorem isBelow_toWire (h : isBelow base uri = true) :
    isBelow tx (toWire base (some tx) uri) = true := by
  obtain ⟨rest, ends, rfl⟩ := exists_of_isBelow h
  rw [toWire_some, rebase_append ends base tx]
  exact isBelow_append ends tx

/-- **An address comes back when it is used**, if it is below the transaction or outside the
repository. -/
theorem toWire_fromWire (h : Lands tx base address) :
    toWire base (some tx) (fromWire base (some tx) address) = address := by
  rw [toWire_some, fromWire_some]
  exact rebase_rebase h.known

/-- **A URI comes back from its address**, if it is below the repository or outside the transaction.
-/
theorem fromWire_toWire (h : Lands base tx uri) :
    fromWire base (some tx) (toWire base (some tx) uri) = uri := by
  rw [toWire_some, fromWire_some]
  exact rebase_rebase h.known

theorem graphToWire_graphFromWire (h : ∀ i ∈ g.iris, Lands tx base i) :
    graphToWire base (some tx) (graphFromWire base (some tx) g) = g :=
  Graph.rebase_rebase fun i hi => (h i hi).known

theorem graphFromWire_graphToWire (h : ∀ i ∈ g.iris, Lands base tx i) :
    graphFromWire base (some tx) (graphToWire base (some tx) g) = g :=
  Graph.rebase_rebase fun i hi => (h i hi).known

end Addresses

/-- **The moves between the repository and a transaction undo each other.** Rebasing is a partial
bijection between any two bases: what it moves comes back, and it moves a base without its trailing
slashes together with what is behind it, as long as that leaves the last path segment whole. So in a
session with a transaction a URI comes back from its address if it is below the repository or
outside the transaction, an address comes back when it is used if it is below the transaction or
outside the repository, and graphs of such IRIs come back as a whole. -/
theorem moves_undo_each_other (settings : RepositorySettings) (tx : String) :
    let base := baseOf settings
    (∀ source destination uri moved, rebase? source destination uri = some moved →
      rebase? destination source moved = some uri) ∧
    (∀ source destination uri, (rebase? source destination uri).isSome = true ↔
      ∃ rest, uri = Text.trimSlashes source ++ rest ∧
        (rest = "" ∨ (∃ path, rest = "/" ++ path) ∨ ∃ fragment, rest = "#" ++ fragment)) ∧
    (∀ uri, isBelow base uri = true ∨ isBelow tx uri = false →
      fromWire base (some tx) (toWire base (some tx) uri) = uri) ∧
    (∀ address, isBelow tx address = true ∨ isBelow base address = false →
      toWire base (some tx) (fromWire base (some tx) address) = address) ∧
    (∀ g : Graph, (∀ i ∈ g.iris, isBelow base i = true ∨ isBelow tx i = false) →
      graphFromWire base (some tx) (graphToWire base (some tx) g) = g) ∧
    (∀ g : Graph, (∀ i ∈ g.iris, isBelow tx i = true ∨ isBelow base i = false) →
      graphToWire base (some tx) (graphFromWire base (some tx) g) = g) :=
  ⟨fun _ _ _ _ => rebase?_symm, fun _ _ _ => isSome_rebase?_iff, fun _ => fromWire_toWire,
    fun _ => toWire_fromWire, fun _ => graphFromWire_graphToWire,
    fun _ => graphToWire_graphFromWire⟩

/-- A graph with a link out of the repository. -/
def linkedOut : Graph :=
  Graph.ofList [⟨.iri "http://h/rest/tx:12#part", "http://v/p", .iri "http://other/a"⟩]

theorem moves_undo_each_other_nested :
    let settings : RepositorySettings := { baseUrl := "http://h/rest//" }
    let base := baseOf settings
    let tx := "http://h/rest/tx:1"
    rebase? "http://h/rest//" tx "http://h/rest" = some tx ∧
      rebase? tx "http://h/rest//" tx = some "http://h/rest" ∧
      toWire base (some tx) "http://h/rest/tx:12#part" = "http://h/rest/tx:1/tx:12#part" ∧
      fromWire base (some tx) "http://h/rest/tx:1/tx:12#part" = "http://h/rest/tx:12#part" ∧
      toWire base (some tx) (fromWire base (some tx) "http://h/rest/tx:1/a") =
        "http://h/rest/tx:1/a" ∧
      graphFromWire base (some tx) (graphToWire base (some tx) linkedOut) = linkedOut ∧
      graphToWire base (some tx) (graphFromWire base (some tx) Graph.empty) = Graph.empty := by
  intro settings base tx
  have moved : rebase? "http://h/rest//" tx "http://h/rest" = some tx := by decide +kernel
  have sibling : toWire base (some tx) "http://h/rest/tx:12#part" =
      "http://h/rest/tx:1/tx:12#part" := by decide +kernel
  obtain ⟨symm, -, uris, addresses, graphs, graphs'⟩ := moves_undo_each_other settings tx
  have back := uris "http://h/rest/tx:12#part" (.inl (by decide +kernel))
  rw [sibling] at back
  exact ⟨moved, symm _ _ _ _ moved, sibling, back, addresses _ (.inl (by decide +kernel)),
    graphs linkedOut (by decide +kernel), graphs' Graph.empty (by decide +kernel)⟩

end Ldp

end LinkedDeposit
