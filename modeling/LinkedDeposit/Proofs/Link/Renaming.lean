import LinkedDeposit.Proofs.Link.Rebase
import Mathlib.Data.List.Induction
import Mathlib.Logic.Equiv.Basic

/-!
# Renaming the segments of URIs

Slashes and the `#` cut a URI into segments. A `Renaming` permutes the names that can stand as one
segment, and so it moves every URI, segment by segment. What the links of a package go through on
their way into a repository looks at where segments end and at whole segments only, so all of it
commutes with renaming.

Results:
* `Renaming.apply_slash`, `Renaming.apply_hash`: a URI is renamed part by part.
* `Renaming.splitFragment_apply`, `Renaming.trimSlashes_apply`: cutting commutes with renaming.
* `Renaming.remapIri_apply`, `Renaming.resolveIri_apply`: so do remapping and resolving.
* `Renaming.exists_of_nodup`: distinct names can be renamed to any others.
-/

namespace LinkedDeposit

/-- Whether a character stands between two segments of a URI. -/
def isDelimiter (c : Char) : Bool := c = '/' || c = '#'

/-- A name that can stand as one segment of a URI. -/
structure IsBareName (name : String) : Prop where
  nonempty : name ≠ ""
  bare : ∀ c ∈ name.toList, isDelimiter c = false

/-- A permutation of names. -/
structure Renaming where
  names : Equiv.Perm String
  /-- Only what can stand as a segment is renamed. -/
  moved : ∀ n, names n ≠ n → IsBareName n

/-- Replaces the segments of a text, of which the first one has begun with `begun`. -/
def mapSegments (f : String → String) : (begun : List Char) → List Char → List Char
  | begun, [] => (f (String.ofList begun)).toList
  | begun, c :: rest =>
    if isDelimiter c then (f (String.ofList begun)).toList ++ c :: mapSegments f [] rest
    else mapSegments f (begun ++ [c]) rest

/-- The segments of a text, of which the first one has begun with `begun`. -/
def segmentsFrom : (begun : List Char) → List Char → List String
  | begun, [] => [String.ofList begun]
  | begun, c :: rest =>
    if isDelimiter c then String.ofList begun :: segmentsFrom [] rest
    else segmentsFrom (begun ++ [c]) rest

/-- The segments of a URI. -/
def uriSegments (uri : String) : List String := segmentsFrom [] uri.toList

section Segments

variable {f h : String → String}

theorem mapSegments_delimiter {d : Char} (hd : isDelimiter d = true) (begun a b : List Char) :
    mapSegments f begun (a ++ d :: b) = mapSegments f begun a ++ d :: mapSegments f [] b := by
  induction a generalizing begun with
  | nil =>
    rw [List.nil_append, mapSegments.eq_def f begun (d :: b), mapSegments]
    exact if_pos hd
  | cons c a ih =>
    rw [List.cons_append, mapSegments, mapSegments]
    split
    · rw [ih, List.append_assoc, List.cons_append]
    · rw [ih]

theorem mapSegments_bare {a : List Char} (bare : ∀ c ∈ a, isDelimiter c = false)
    (begun : List Char) : mapSegments f begun a = (f (String.ofList (begun ++ a))).toList := by
  induction a generalizing begun with
  | nil => rw [mapSegments, List.append_nil]
  | cons c a ih =>
    obtain ⟨hc, bare⟩ := List.forall_mem_cons.mp bare
    rw [mapSegments, if_neg (by rw [hc]; exact Bool.false_ne_true), ih bare, List.append_assoc]
    rfl

/-- Replacing segments twice is replacing them by both functions. -/
theorem mapSegments_mapSegments
    (keeps : ∀ s : List Char, (∀ c ∈ s, isDelimiter c = false) →
      ∀ c ∈ (f (String.ofList s)).toList, isDelimiter c = false)
    {begun : List Char} (hb : ∀ c ∈ begun, isDelimiter c = false) (a : List Char) :
    mapSegments h [] (mapSegments f begun a) = mapSegments (fun s => h (f s)) begun a := by
  induction a generalizing begun with
  | nil =>
    rw [mapSegments, mapSegments, mapSegments_bare (keeps begun hb), List.nil_append,
      String.ofList_toList]
  | cons c a ih =>
    rw [mapSegments, mapSegments]
    split
    · case isTrue hc =>
      rw [mapSegments_delimiter hc, mapSegments_bare (keeps begun hb), List.nil_append,
        String.ofList_toList, ih (List.forall_mem_nil _)]
    · case isFalse hc =>
      refine ih fun d hd => ?_
      rcases List.mem_append.mp hd with hd | hd
      · exact hb d hd
      · rw [List.mem_singleton.mp hd]
        exact Bool.eq_false_iff.mpr hc

theorem mapSegments_congr {begun a : List Char} (same : ∀ n ∈ segmentsFrom begun a, f n = h n) :
    mapSegments f begun a = mapSegments h begun a := by
  induction a generalizing begun with
  | nil => rw [mapSegments, mapSegments, same _ (List.mem_singleton.mpr rfl)]
  | cons c a ih =>
    rw [segmentsFrom] at same
    rw [mapSegments, mapSegments]
    split
    · case isTrue hc =>
      rw [if_pos hc] at same
      obtain ⟨first, others⟩ := List.forall_mem_cons.mp same
      rw [first, ih others]
    · case isFalse hc =>
      rw [if_neg hc] at same
      exact ih same

theorem mapSegments_id (begun a : List Char) : mapSegments (fun s => s) begun a = begun ++ a := by
  induction a generalizing begun with
  | nil => rw [mapSegments, String.toList_ofList, List.append_nil]
  | cons c a ih =>
    rw [mapSegments, ih, ih, String.toList_ofList, List.append_assoc]
    split <;> rfl

end Segments

theorem trimSlashes_append_slash (a : String) :
    Text.trimSlashes (a ++ "/") = Text.trimSlashes a := by
  simp [Text.trimSlashes]

/-- What ends in no slash is left as it is. -/
theorem trimSlashes_of_ne {uri : String} (h : ∀ a, uri ≠ a ++ "/") :
    Text.trimSlashes uri = uri := by
  cases reversed : uri.toList.reverse with
  | nil => simp_all [Text.trimSlashes]
  | cons last front =>
    have notSlash : last ≠ '/' := by
      rintro rfl
      refine h (String.ofList front.reverse) (String.toList_injective ?_)
      simpa using congrArg List.reverse reversed
    have kept : (last :: front).dropWhile (· = '/') = last :: front :=
      List.dropWhile_cons_of_neg (by simpa using notSlash)
    rw [Text.trimSlashes, reversed, kept, ← reversed, List.reverse_reverse, String.ofList_toList]

namespace Renaming

/-- Renames the segments of a URI. -/
def apply (ρ : Renaming) (uri : String) : String :=
  String.ofList (mapSegments ρ.names [] uri.toList)

instance : CoeFun Renaming fun _ => String → String := ⟨apply⟩

/-- The renaming back. -/
def symm (ρ : Renaming) : Renaming where
  names := ρ.names.symm
  moved n hn := ρ.moved n fun fixed => hn (by rw [Equiv.symm_apply_eq, fixed])

/-- One renaming after another. -/
def trans (ρ σ : Renaming) : Renaming where
  names := ρ.names.trans σ.names
  moved n hn := by
    by_cases h : ρ.names n = n
    · refine σ.moved n fun fixed => hn ?_
      rw [Equiv.trans_apply, h, fixed]
    · exact ρ.moved n h

variable (ρ : Renaming)

/-- A moved name goes where it can stand as a segment. -/
theorem bare_names {n : String} (bare : ∀ c ∈ n.toList, isDelimiter c = false) :
    ∀ c ∈ (ρ.names n).toList, isDelimiter c = false := by
  by_cases h : ρ.names n = n
  · rwa [h]
  · exact (ρ.moved _ fun fixed => h (ρ.names.injective fixed)).bare

@[simp] theorem names_empty : ρ.names "" = "" :=
  Classical.byContradiction fun h => (ρ.moved "" h).nonempty rfl

/-! ## Parts -/

theorem toList_apply (uri : String) : (ρ uri).toList = mapSegments ρ.names [] uri.toList :=
  String.toList_ofList

@[simp] theorem apply_empty : ρ "" = "" := by
  rw [apply]
  change String.ofList (ρ.names (String.ofList [])).toList = ""
  rw [String.ofList_toList]
  exact ρ.names_empty

theorem apply_bare {name : String} (h : ∀ c ∈ name.toList, isDelimiter c = false) :
    ρ name = ρ.names name := by
  rw [apply, mapSegments_bare h, List.nil_append, String.ofList_toList, String.ofList_toList]

theorem apply_slash (a b : String) : ρ (a ++ "/" ++ b) = ρ a ++ "/" ++ ρ b := by
  refine String.toList_injective ?_
  have text : (a ++ "/" ++ b).toList = a.toList ++ '/' :: b.toList := by simp
  rw [toList_apply, text, mapSegments_delimiter rfl, ← toList_apply, ← toList_apply]
  simp

theorem apply_hash (a b : String) : ρ (a ++ "#" ++ b) = ρ a ++ "#" ++ ρ b := by
  refine String.toList_injective ?_
  have text : (a ++ "#" ++ b).toList = a.toList ++ '#' :: b.toList := by simp
  rw [toList_apply, text, mapSegments_delimiter rfl, ← toList_apply, ← toList_apply]
  simp

/-- Segments are renamed one by one. -/
theorem apply_trans (σ : Renaming) (uri : String) : ρ.trans σ uri = σ (ρ uri) := by
  have keeps (s : List Char) (bare : ∀ c ∈ s, isDelimiter c = false) :
      ∀ c ∈ (ρ.names (String.ofList s)).toList, isDelimiter c = false :=
    ρ.bare_names (by rwa [String.toList_ofList])
  rw [apply, apply, toList_apply, mapSegments_mapSegments keeps (List.forall_mem_nil _)]
  rfl

/-- What has no moved segment stays. -/
theorem apply_eq_self {uri : String} (h : ∀ n ∈ uriSegments uri, ρ.names n = n) : ρ uri = uri := by
  rw [apply, mapSegments_congr (f := ρ.names) (h := fun n => n) h, mapSegments_id, List.nil_append,
    String.ofList_toList]

@[simp] theorem symm_apply_apply (uri : String) : ρ.symm (ρ uri) = uri := by
  have back : ((ρ.trans ρ.symm).names : String → String) = fun s => s :=
    funext fun s => ρ.names.symm_apply_apply s
  rw [← apply_trans, apply, back, mapSegments_id, List.nil_append, String.ofList_toList]

@[simp] theorem apply_symm_apply (uri : String) : ρ (ρ.symm uri) = uri :=
  ρ.symm.symm_apply_apply uri

theorem injective : Function.Injective ρ :=
  Function.LeftInverse.injective ρ.symm_apply_apply

/-! ## Cutting -/

/-- Where there is a `#`, there is one after renaming. -/
theorem hash_mem_of_mem {uri : String} (h : '#' ∈ uri.toList) : '#' ∈ (ρ uri).toList := by
  obtain ⟨a, b, text⟩ := List.append_of_mem h
  have parts : uri = String.ofList a ++ "#" ++ String.ofList b :=
    String.toList_injective (by simp [text])
  rw [parts, apply_hash]
  simp

theorem hash_mem_apply {uri : String} : '#' ∈ (ρ uri).toList ↔ '#' ∈ uri.toList := by
  refine ⟨fun h => ?_, ρ.hash_mem_of_mem⟩
  rw [← ρ.symm_apply_apply uri]
  exact ρ.symm.hash_mem_of_mem h

/-- A fragment goes on as one. -/
theorem apply_fragment {fragment : String} (h : isRelative fragment = true) (uri : String) :
    ρ (uri ++ fragment) = ρ uri ++ ρ fragment := by
  rcases isRelative_iff.mp h with rfl | ⟨rest, text⟩
  · simp
  · have parts : fragment = "" ++ "#" ++ String.ofList rest :=
      String.toList_injective (by simp [text])
    rw [parts, apply_hash, apply_empty, ← String.append_assoc, ← String.append_assoc, apply_hash,
      String.append_empty, ← String.append_assoc, ← String.append_assoc, String.append_empty]

theorem isRelative_of_isRelative {uri : String} (h : isRelative uri = true) :
    isRelative (ρ uri) = true := by
  rcases isRelative_iff.mp h with rfl | ⟨rest, text⟩
  · rw [apply_empty]
    exact h
  · have parts : uri = "" ++ "#" ++ String.ofList rest :=
      String.toList_injective (by simp [text])
    rw [parts, apply_hash, apply_empty]
    exact isRelative_iff.mpr (.inr ⟨(ρ (String.ofList rest)).toList, by simp⟩)

@[simp] theorem isRelative_apply (uri : String) : isRelative (ρ uri) = isRelative uri := by
  refine Bool.eq_iff_iff.mpr ⟨fun h => ?_, ρ.isRelative_of_isRelative⟩
  rw [← ρ.symm_apply_apply uri]
  exact ρ.symm.isRelative_of_isRelative h

/-- **A URI and its fragment are renamed apart.** -/
theorem splitFragment_apply (uri : String) :
    splitFragment (ρ uri) = (ρ (splitFragment uri).1, ρ (splitFragment uri).2) := by
  have relative := isRelative_fragment uri
  have plain := plain_fst_splitFragment uri
  have parts := ρ.apply_fragment relative (splitFragment uri).1
  rw [splitFragment_append] at parts
  rw [parts]
  exact splitFragment_append_relative (fun h => plain (ρ.hash_mem_apply.mp h))
    (ρ.isRelative_of_isRelative relative)

/-- A URI that ends in a slash does so after renaming. -/
theorem apply_append_slash (a : String) : ρ (a ++ "/") = ρ a ++ "/" := by
  have := ρ.apply_slash a ""
  rwa [apply_empty, String.append_empty, String.append_empty] at this

/-- **Slashes at the end are trimmed alike.** -/
theorem trimSlashes_apply (uri : String) :
    Text.trimSlashes (ρ uri) = ρ (Text.trimSlashes uri) := by
  -- by the number of slashes at the end
  obtain ⟨letters, rfl⟩ : ∃ letters, uri = String.ofList letters :=
    ⟨_, String.ofList_toList.symm⟩
  induction letters using List.reverseRecOn with
  | nil =>
    change Text.trimSlashes (ρ "") = ρ (Text.trimSlashes "")
    rw [apply_empty]
    exact ρ.apply_empty.symm
  | append_singleton front last ih =>
    rw [String.ofList_append]
    by_cases slash : last = '/'
    · subst slash
      change Text.trimSlashes (ρ (_ ++ "/")) = ρ (Text.trimSlashes (_ ++ "/"))
      rw [apply_append_slash, trimSlashes_append_slash, trimSlashes_append_slash, ih]
    · have ends : ∀ a, String.ofList front ++ String.ofList [last] ≠ a ++ "/" := by
        intro a same
        have letters := congrArg (fun s => s.toList.getLast?) same
        exact slash (by simpa using letters)
      rw [trimSlashes_of_ne ends, trimSlashes_of_ne fun a same => ends (ρ.symm a) ?_]
      rw [← ρ.symm.apply_append_slash, ← same, symm_apply_apply]

/-! ## Tables -/

/-- The second table has the values of the first one, renamed by `f`, at the renamed keys. -/
def Moves {α : Type} (f : α → α) (t t' : Table String α) : Prop :=
  ∀ k, t'.get? (ρ k) = (t.get? k).map f

section Moves

variable {ρ} {α : Type} {f : α → α} {t t' u u' : Table String α}

theorem Moves.empty : ρ.Moves f Table.empty Table.empty := fun _ => rfl

theorem Moves.insert (h : ρ.Moves f t t') (k : String) (v : α) :
    ρ.Moves f (t.insert k v) (t'.insert (ρ k) (f v)) := by
  intro k'
  rw [Table.get?_insert, Table.get?_insert, h]
  by_cases same : k' = k
  · rw [if_pos same, if_pos (congrArg ρ same)]
    rfl
  · rw [if_neg same, if_neg fun moved => same (ρ.injective moved)]

theorem Moves.union (h : ρ.Moves f t t') (k : ρ.Moves f u u') :
    ρ.Moves f (t.union u) (t'.union u') := by
  intro key
  rw [Table.get?_union, Table.get?_union, h, k]
  cases u.get? key <;> rfl

end Moves

/-! ## Links -/

/-- **Remapping commutes with renaming**. -/
theorem remapIri_apply {uris uris' : UriMap} (h : ρ.Moves ρ uris uris') (iri : String) :
    uris'.remapIri (ρ iri) = ρ (uris.remapIri iri) := by
  have cut (m : UriMap) (i : String) : m.remapIri i =
      ((m.get? (splitFragment i).1).map (· ++ (splitFragment i).2)).getD i := by
    unfold UriMap.remapIri
    generalize splitFragment i = parts
    cases found : m.get? parts.1 <;> simp only [found] <;> rfl
  rw [cut, cut, splitFragment_apply, h]
  cases uris.get? (splitFragment iri).1 with
  | none => rfl
  | some uri => exact (ρ.apply_fragment (isRelative_fragment iri) uri).symm

theorem resolveIri_apply (base iri : String) :
    resolveIri (ρ base) (ρ iri) = ρ (resolveIri base iri) := by
  unfold resolveIri
  rw [isRelative_apply]
  split
  · case isTrue relative => exact (ρ.apply_fragment relative base).symm
  · rfl

/-! ## New names -/

/-- **Distinct names can be renamed to any others** of the same number, with nothing else moved. -/
theorem exists_perm_of_nodup {l l' : List String} (length : l.length = l'.length)
    (distinct : l.Nodup) (distinct' : l'.Nodup) :
    ∃ σ : Equiv.Perm String, l.map σ = l' ∧ ∀ n, n ∉ l → n ∉ l' → σ n = n := by
  induction l generalizing l' with
  | nil => exact ⟨Equiv.refl _, by simp [List.length_eq_zero_iff.mp length.symm], fun _ _ _ => rfl⟩
  | cons a l ih =>
    cases l' with
    | nil => cases length
    | cons b l' =>
      obtain ⟨new, distinct⟩ := List.nodup_cons.mp distinct
      obtain ⟨new', distinct'⟩ := List.nodup_cons.mp distinct'
      obtain ⟨σ, image, fixed⟩ := ih (Nat.succ.inj length) distinct distinct'
      -- what `a` went to and `b` change places
      refine ⟨σ.trans (Equiv.swap (σ a) b), ?_, fun n hn hn' => ?_⟩
      · rw [List.map_cons, Equiv.trans_apply, Equiv.swap_apply_left, ← image]
        congr 1
        refine List.map_congr_left fun n hn => Equiv.swap_apply_of_ne_of_ne ?_ ?_
        · exact fun same => new (σ.injective same ▸ hn)
        · rintro rfl
          exact new' (image ▸ List.mem_map_of_mem hn)
      · rw [List.mem_cons, not_or] at hn hn'
        have stays := fixed n hn.2 hn'.2
        rw [Equiv.trans_apply, stays]
        refine Equiv.swap_apply_of_ne_of_ne (fun same => hn.1 ?_) hn'.1
        exact σ.injective (stays.trans same)

theorem exists_of_nodup {l l' : List String} (length : l.length = l'.length) (distinct : l.Nodup)
    (distinct' : l'.Nodup) (bare : ∀ n ∈ l, IsBareName n) (bare' : ∀ n ∈ l', IsBareName n) :
    ∃ ρ : Renaming, l.map ρ.names = l' ∧ ∀ n, ρ.names n ≠ n → n ∈ l ∨ n ∈ l' := by
  obtain ⟨σ, image, fixed⟩ := exists_perm_of_nodup length distinct distinct'
  have moved (n : String) (hn : σ n ≠ n) : n ∈ l ∨ n ∈ l' := by
    by_contra h
    rw [not_or] at h
    exact hn (fixed n h.1 h.2)
  exact ⟨⟨σ, fun n hn => (moved n hn).elim (bare n) (bare' n)⟩, image, moved⟩

end Renaming

end LinkedDeposit
