import LinkedDeposit.Package.Source
import Mathlib.Data.List.Basic

/-!
# Paths below a directory

A path below a directory is followed from that directory (`resolve_joinPath`). A path whose segments
all name something leads to the node that has these segments and nowhere else (`get?_of_resolve`,
`resolve_of_get?`).
-/

namespace LinkedDeposit.FileTree

/-! ## Segments -/

/-- A path is determined by its segments. -/
theorem segments_injective : Function.Injective segments := by
  intro p q h
  have lists : p.toList.splitOn '/' = q.toList.splitOn '/' :=
    List.map_injective_iff.mpr (fun _ _ => String.ofList_injective) h
  refine String.toList_injective ?_
  rw [← @List.intercalate_splitOn _ p.toList _ _ '/', lists, List.intercalate_splitOn]

theorem segments_append_slash (directory path : String) :
    segments (directory ++ "/" ++ path) = segments directory ++ segments path := by
  have text : (directory ++ "/" ++ path).toList = directory.toList ++ '/' :: path.toList := by
    simp
  rw [segments, text, List.splitOn_append_cons_self, List.map_append]
  rfl

/-! ## Following segments -/

variable {t : FileTree}

/-- Whether one can go on from a position. -/
def IsDirectory (t : FileTree) (position : List String) : Prop :=
  position = [] ∨ t.get? position = some .directory

/-- From a directory, a segment is followed if it names something, and else passed over or taken
upwards. -/
theorem resolve_cons {position : List String} (here : t.IsDirectory position) (s : String)
    (rest : List String) : t.resolve position (s :: rest) =
      if s = "" || s = "." then t.resolve position rest
      else if s = ".." then t.resolve position.dropLast rest
      else if maxName < s.utf8ByteSize then .error FileView.nameTooLong
      else t.resolve (position ++ [s]) rest := by
  have found : (if position.isEmpty then some FileNode.directory else t.get? position) =
      some .directory := by
    rcases here with rfl | h
    · rfl
    · rw [h, ite_self]
  rw [resolve, found]

/-- A segment is only followed from a directory. -/
theorem isDirectory_of_resolve {position : List String} {s : String} {rest : List String}
    {found : List String × FileNode} (h : t.resolve position (s :: rest) = .ok found) :
    t.IsDirectory position := by
  rw [resolve] at h
  cases position with
  | nil => exact .inl rfl
  | cons a position =>
    right
    cases here : t.get? (a :: position) with
    | none => simp [here] at h
    | some node =>
      cases node with
      | file bytes => simp [here] at h
      | directory => rfl

/-- No segments lead nowhere else. -/
theorem resolve_nil {position : List String} {found : List String × FileNode}
    (h : t.resolve position [] = .ok found) : found.1 = position ∧
      (position = [] ∧ found.2 = .directory ∨ t.get? position = some found.2) := by
  cases position with
  | nil =>
    cases h
    exact ⟨rfl, .inl ⟨rfl, rfl⟩⟩
  | cons a position =>
    rw [resolve] at h
    · split at h
      · case h_1 node here =>
        cases h
        exact ⟨rfl, .inr here⟩
      · cases h
    · simp

/-- Segments lead to a node. -/
theorem node_of_resolve {position : List String} {segments : List String}
    {found : List String × FileNode} (h : t.resolve position segments = .ok found) :
    found.1 = [] ∧ found.2 = .directory ∨ t.get? found.1 = some found.2 := by
  induction segments generalizing position with
  | nil =>
    obtain ⟨rfl, node⟩ := resolve_nil h
    exact node
  | cons s rest ih =>
    rw [resolve_cons (isDirectory_of_resolve h)] at h
    split at h
    · exact ih h
    · split at h
      · exact ih h
      · split at h
        · cases h
        · exact ih h

/-- Where a segment leads does not depend on what follows it. -/
theorem exists_next {position : List String} {s : String} {rest : List String}
    {found : List String × FileNode} (h : t.resolve position (s :: rest) = .ok found) :
    ∃ next, ∀ rest, t.resolve position (s :: rest) = t.resolve next rest := by
  have here := isDirectory_of_resolve h
  rw [resolve_cons here] at h
  by_cases stays : (decide (s = "") || decide (s = ".")) = true
  · exact ⟨position, fun rest => by rw [resolve_cons here, if_pos stays]⟩
  by_cases up : s = ".."
  · exact ⟨position.dropLast, fun rest => by rw [resolve_cons here, if_neg stays, if_pos up]⟩
  by_cases long : maxName < s.utf8ByteSize
  · rw [if_neg stays, if_neg up, if_pos long] at h
    cases h
  · exact ⟨position ++ [s], fun rest => by
      rw [resolve_cons here, if_neg stays, if_neg up, if_neg long]⟩

/-- Segments that lead to a directory are followed by those behind them. -/
theorem resolve_append {position base : List String} {front : List String}
    (there : t.resolve position front = .ok (base, .directory)) (rest : List String) :
    t.resolve position (front ++ rest) = t.resolve base rest := by
  induction front generalizing position with
  | nil =>
    obtain ⟨rfl, -⟩ := resolve_nil there
    rfl
  | cons s front ih =>
    obtain ⟨next, follow⟩ := exists_next there
    rw [follow] at there
    rw [List.cons_append, follow, ih there]

/-- A slash at the end of a path to a directory leads no further. -/
theorem resolve_slash {position base : List String} {front : List String}
    (there : t.resolve position (front ++ [""]) = .ok (base, .directory)) :
    t.resolve position front = .ok (base, .directory) := by
  induction front generalizing position with
  | nil =>
    have here := isDirectory_of_resolve there
    rw [List.nil_append, resolve_cons here] at there
    exact there
  | cons s front ih =>
    obtain ⟨next, follow⟩ := exists_next there
    rw [List.cons_append, follow] at there
    rw [follow, ih there]

/-- **A path behind a directory is followed from there.** -/
theorem resolve_joinPath {directory : String} {base : List String}
    (there : t.resolve [] (segments directory) = .ok (base, .directory)) (path : String) :
    t.resolve [] (segments (joinPath directory path)) = t.resolve base (segments path) := by
  unfold joinPath
  split
  · case isTrue slash =>
    obtain ⟨front, text⟩ : ∃ front : String, directory = front ++ "/" := by
      obtain ⟨letters, h⟩ := List.getLast?_eq_some_iff.mp slash
      exact ⟨String.ofList letters, String.toList_injective (by simp [h])⟩
    subst text
    have cut := segments_append_slash front ""
    rw [String.append_empty] at cut
    have empty : segments "" = [""] := by decide
    rw [cut, empty] at there
    rw [segments_append_slash, resolve_append (resolve_slash there)]
  · rw [segments_append_slash, resolve_append there]

/-! ## Names -/

/-- A segment that names a node below the directory where it stands. -/
structure IsName (s : String) : Prop where
  nonempty : s ≠ ""
  notHere : s ≠ "."
  notUp : s ≠ ".."

/-- A name goes down. -/
theorem resolve_name {position : List String} (here : t.IsDirectory position) {s : String}
    (name : IsName s) (rest : List String) : t.resolve position (s :: rest) =
      if maxName < s.utf8ByteSize then .error FileView.nameTooLong
      else t.resolve (position ++ [s]) rest := by
  rw [resolve_cons here, if_neg (by simp [name.nonempty, name.notHere]), if_neg name.notUp]

/-- Names lead to the node that has them. -/
theorem get?_of_resolve {base names : List String} (all : ∀ s ∈ names, IsName s)
    (nonempty : names ≠ []) {found : List String × FileNode}
    (h : t.resolve base names = .ok found) : t.get? (base ++ names) = some found.2 := by
  induction names generalizing base with
  | nil => exact absurd rfl nonempty
  | cons s names ih =>
    obtain ⟨name, others⟩ := List.forall_mem_cons.mp all
    rw [resolve_name (isDirectory_of_resolve h) name] at h
    split at h
    · cases h
    · rw [List.append_cons]
      by_cases last : names = []
      · subst last
        obtain ⟨-, ⟨empty, -⟩ | node⟩ := resolve_nil h
        · simp at empty
        · rwa [List.append_nil]
      · exact ih others last h

/-- Names lead there, if all directories on the way are there and no name is too long. -/
theorem resolve_of_get? {base names : List String} {node : FileNode} (here : t.IsDirectory base)
    (all : ∀ s ∈ names, IsName s ∧ s.utf8ByteSize ≤ maxName) (nonempty : names ≠ [])
    (way : ∀ front rest, names = front ++ rest → front ≠ [] → rest ≠ [] →
      t.get? (base ++ front) = some .directory)
    (there : t.get? (base ++ names) = some node) :
    t.resolve base names = .ok (base ++ names, node) := by
  induction names generalizing base with
  | nil => exact absurd rfl nonempty
  | cons s names ih =>
    obtain ⟨⟨name, short⟩, others⟩ := List.forall_mem_cons.mp all
    rw [resolve_name here name, if_neg (by omega)]
    rw [List.append_cons base s names] at there ⊢
    cases names with
    | nil =>
      rw [List.append_nil] at there ⊢
      rw [resolve, there]
      simp
    | cons s' names =>
      have next : t.IsDirectory (base ++ [s]) :=
        .inr (way [s] (s' :: names) rfl (by simp) (by simp))
      refine ih next others (by simp) (fun front rest cut => ?_) there
      intro nonempty rest_nonempty
      have := way (s :: front) rest (by rw [cut]; rfl) (by simp) rest_nonempty
      rwa [List.append_cons] at this

end LinkedDeposit.FileTree
