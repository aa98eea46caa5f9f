import Mathlib.Logic.Function.Basic
import LinkedDeposit.Proofs.Deposit.Minted
import LinkedDeposit.Proofs.Repository.Schedule

/-!
# Fresh names make fresh URIs

The URI of a new resource ends in its name, and that of its description in a segment that is the
same for all of them. So a name can be read off a URI, and names that are not given twice
(`Host.NamesFresh`) make URIs that are not given twice. Nothing is asked of the target, which may
end in slashes or be empty.

Results:
* `Host.NamesFresh.eq_of_isNamed`: a URI was made with one name.
* `Host.NamesFresh.nodup_uris`: no URI is given out twice.
* `GoesOn.ne_target`: no URI is the target, since it goes on from there.
* `nodup_allPlacements`: so the target and all URIs of a package differ.
* `Host.namesFresh_numbering`: the names of a host that numbers resources are fresh.
-/

namespace LinkedDeposit

/-- One segment of a path. -/
structure IsSegment (name : String) : Prop where
  nonempty : name ≠ ""
  plain : '/' ∉ name.toList

/-- What a host promises of the names for new resources: none is given twice, and each is a segment
that has no meaning of its own. -/
structure Host.NamesFresh (host : Host) : Prop where
  injective : Function.Injective host.freshName
  segment : ∀ count, IsSegment (host.freshName count)
  unreserved : ∀ count, host.freshName count ≠ Vocabulary.descriptionSegment

theorem isSegment_descriptionSegment : IsSegment Vocabulary.descriptionSegment :=
  ⟨by decide, by decide⟩

/-- The last segment can be read off. -/
theorem append_segment_inj {a b m n : String} (hm : IsSegment m) (hn : IsSegment n)
    (h : a ++ "/" ++ m = b ++ "/" ++ n) : a = b ∧ m = n := by
  have lists : a.toList ++ '/' :: m.toList = b.toList ++ '/' :: n.toList := by
    simpa using congrArg String.toList h
  -- one side goes on from the other, by nothing or by a slash that would stand in a segment
  rcases List.append_eq_append_iff.mp lists with ⟨z, hz, hmn⟩ | ⟨z, hz, hmn⟩
  · cases z with
    | nil =>
      rw [List.append_nil] at hz
      exact ⟨String.toList_inj.mp hz.symm, String.toList_inj.mp (List.cons.inj hmn).2⟩
    | cons c z =>
      refine absurd ?_ hm.plain
      rw [(List.cons.inj hmn).2]
      exact List.mem_append_right z List.mem_cons_self
  · cases z with
    | nil =>
      rw [List.append_nil] at hz
      exact ⟨String.toList_inj.mp hz, (String.toList_inj.mp (List.cons.inj hmn).2).symm⟩
    | cons c z =>
      refine absurd ?_ hn.plain
      rw [(List.cons.inj hmn).2]
      exact List.mem_append_right z List.mem_cons_self

/-! ## Names of URIs -/

/-- A URI was made with a name: for a resource, or for the description of one. -/
def IsNamed (name uri : String) : Prop :=
  ∃ parent, uri = Transaction.childUri parent name ∨
    uri = Transaction.descriptionUri (Transaction.childUri parent name)

namespace Host.NamesFresh

variable {host : Host} (h : host.NamesFresh)

include h

/-- No child is a description. -/
theorem childUri_ne_descriptionUri (count : Nat) (parent uri : String) :
    Transaction.childUri parent (host.freshName count) ≠ Transaction.descriptionUri uri :=
  fun same => h.unreserved count
    (append_segment_inj (h.segment count) isSegment_descriptionSegment same).2

/-- **A URI was made with one name.** -/
theorem eq_of_isNamed {count count' : Nat} {uri : String}
    (named : IsNamed (host.freshName count) uri) (named' : IsNamed (host.freshName count') uri) :
    count = count' := by
  have children {parent parent' : String}
      (same : Transaction.childUri parent (host.freshName count) =
        Transaction.childUri parent' (host.freshName count')) : count = count' :=
    h.injective (append_segment_inj (h.segment count) (h.segment count') same).2
  obtain ⟨parent, rfl | rfl⟩ := named
  · obtain ⟨parent', same | same⟩ := named'
    · exact children same
    · exact absurd same (h.childUri_ne_descriptionUri count parent _)
  · obtain ⟨parent', same | same⟩ := named'
    · exact absurd same.symm (h.childUri_ne_descriptionUri count' parent' _)
    · exact children (append_segment_inj isSegment_descriptionSegment
        isSegment_descriptionSegment same).1

/-- What was named later than `count` is so named, and no URI is given out twice. -/
theorem nodup_uris {count : Nat} {ps : List Placement} (minted : Minted host count ps) :
    (∀ uri ∈ ps.flatMap Placement.uris, ∃ later, count < later ∧
      IsNamed (host.freshName later) uri) ∧ (ps.flatMap Placement.uris).Nodup := by
  induction ps generalizing count with
  | nil => simp
  | cons p ps ih =>
    obtain ⟨named, minted⟩ := minted
    obtain ⟨later, distinct⟩ := ih minted
    have own (uri : String) (hu : uri ∈ p.uris) : IsNamed (host.freshName (count + 1)) uri := by
      rw [Placement.uris, named] at hu
      exact ⟨p.parent, Resource.mem_uris_placed hu⟩
    rw [List.flatMap_cons]
    constructor
    · intro uri hu
      rcases List.mem_append.mp hu with hu | hu
      · exact ⟨count + 1, Nat.lt_succ_self count, own uri hu⟩
      · obtain ⟨k, hk, hn⟩ := later uri hu
        exact ⟨k, Nat.lt_of_succ_lt hk, hn⟩
    · have first : p.uris.Nodup := by
        rw [Placement.uris, named]
        exact Resource.nodup_uris_placed _ _
      refine List.nodup_append.mpr ⟨first, distinct, ?_⟩
      rintro uri hu _ hm rfl
      obtain ⟨k, hk, hn⟩ := later uri hm
      exact absurd (h.eq_of_isNamed (own uri hu) hn) (Nat.ne_of_lt hk)

end Host.NamesFresh

/-! ## The target -/

/-- What ends in a segment ends in no slash. -/
theorem trimSlashes_append {name : String} (h : IsSegment name) (a : String) :
    Text.trimSlashes (a ++ name) = a ++ name := by
  have reversed : (a ++ name).toList.reverse.dropWhile (· = '/') = (a ++ name).toList.reverse := by
    rw [String.toList_append, List.reverse_append]
    cases hr : name.toList.reverse with
    | nil => exact absurd (String.toList_inj.mp (List.reverse_eq_nil_iff.mp hr)) h.nonempty
    | cons c rest =>
      have hc : c ∈ name.toList := List.mem_reverse.mp (hr ▸ List.mem_cons_self)
      have noSlash : c ≠ '/' := by
        rintro rfl
        exact h.plain hc
      exact List.dropWhile_cons_of_neg (by simpa using noSlash)
  rw [Text.trimSlashes, reversed, List.reverse_reverse, String.ofList_toList]

/-- A URI goes on from another one, and not by slashes alone. -/
structure GoesOn (target uri : String) : Prop where
  longer : (Text.trimSlashes target).length < uri.length
  trimmed : Text.trimSlashes uri = uri

namespace GoesOn

variable {target uri name : String}

/-- What goes on from a target is not the target, even if that ends in slashes. -/
theorem ne_target (h : GoesOn target uri) : target ≠ uri := by
  rintro rfl
  have := h.longer
  rw [h.trimmed] at this
  exact absurd this (Nat.lt_irrefl _)

theorem child (hn : IsSegment name) {parent : String}
    (h : parent = target ∨ GoesOn target parent) :
    GoesOn target (Transaction.childUri parent name) := by
  refine ⟨?_, trimSlashes_append hn _⟩
  have parentLonger : (Text.trimSlashes target).length ≤ (Text.trimSlashes parent).length := by
    rcases h with rfl | h
    · exact Nat.le_refl _
    · rw [h.trimmed]
      exact Nat.le_of_lt h.longer
  have slash : ("/" : String).length = 1 := rfl
  rw [Transaction.childUri, String.length_append, String.length_append, slash]
  omega

theorem description (h : GoesOn target uri) : GoesOn target (Transaction.descriptionUri uri) := by
  refine ⟨?_, trimSlashes_append isSegment_descriptionSegment _⟩
  have := h.longer
  rw [Transaction.descriptionUri, String.length_append, String.length_append]
  omega

end GoesOn

/-- **Fresh names make fresh URIs**, below any target. -/
theorem nodup_allPlacements {host : Host} (h : host.NamesFresh) (count : Nat) (target : String)
    (tree : List Resource) :
    (target :: (Resource.allPlacements host count target tree).flatMap Placement.uris).Nodup := by
  have minted := minted_allPlacements host count target tree
  have walks := walks_allPlacements host count target tree []
  have goesOn : ∀ p ∈ Resource.allPlacements host count target tree, ∀ uri ∈ p.uris,
      GoesOn target uri := by
    refine minted.forall_uris (fun _ k => GoesOn.child (h.segment k))
      (fun _ => GoesOn.description) (fun _ => .inr) walks fun x hx => ?_
    rw [List.append_nil] at hx
    obtain ⟨r, -, rfl⟩ := List.mem_map.mp hx
    exact .inl rfl
  refine List.nodup_cons.mpr ⟨fun hm => ?_, (h.nodup_uris minted).2⟩
  obtain ⟨p, hp, hu⟩ := List.mem_flatMap.mp hm
  exact (goesOn p hp target hu).ne_target rfl

/-- Numbers are fresh names. -/
theorem Host.namesFresh_numbering (files : Files) :
    Host.NamesFresh { Host.numbering with files := files } where
  injective _ _ same := eq_of_toString_eq same
  segment count :=
    { nonempty := Nat.repr_ne_empty
      plain := fun hc => absurd (isDigit_of_mem_freshName hc) (by decide) }
  unreserved count same := by
    have letter : 'f' ∈ (numbering.freshName count).toList := by
      change numbering.freshName count = _ at same
      rw [same]
      decide
    exact absurd (isDigit_of_mem_freshName letter) (by decide)

end LinkedDeposit
