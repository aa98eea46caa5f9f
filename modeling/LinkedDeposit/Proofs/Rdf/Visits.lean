import LinkedDeposit.Proofs.Rdf.Flattening

/-!
# The objects that a document's reader visits

The reader of JSON-LD visits the node objects of a document and the references to nodes, each at its
position (`visits`). It passes by what stands below a keyword, while the labels that it avoids are
collected there too: they are all that the document uses, at any depth (`UsesLabel`).

Results:
* `mem_blankLabels_iff`: the labels that the reader avoids are those that the document uses.
* `at?_of_mem_visits`, `nodup_visits`: what is visited is at its position, and is visited once.
* `valueVisits_subset`: the values of the properties of a visited object are visited in turn.
-/

namespace LinkedDeposit

/-- The indices of the items and members on the way to a part of a JSON value. -/
abbrev Position := List Nat

/-- The value at a position. -/
def Json.at? : Json → Position → Option Json
  | v, [] => some v
  | .array items, i :: p => items[i]?.bind (·.at? p)
  | .object members, i :: p => members[i]?.bind (·.2.at? p)
  | _, _ :: _ => none

theorem Json.at?_append (v : Json) (p q : Position) :
    v.at? (p ++ q) = (v.at? p).bind (·.at? q) := by
  induction p generalizing v with
  | nil => simp [at?]
  | cons i p ih =>
    cases v with
    | array items => simp only [List.cons_append, at?, Option.bind_assoc, ih]
    | object members => simp only [List.cons_append, at?, Option.bind_assoc, ih]
    | _ => rfl

namespace JsonLd

/-! ## Labels that a document uses -/

/-- The document uses a label in an `@id`, at some depth. -/
def UsesLabel (doc : Json) (l : String) : Prop :=
  ∃ p members, doc.at? p = some (.object members) ∧ ("@id", .string ("_:" ++ l)) ∈ members

theorem mem_ownLabels {m : String × Json} {l : String} :
    l ∈ ownLabels m ↔ m = ("@id", .string ("_:" ++ l)) ∨ l ∈ blankLabels m.2 := by
  unfold ownLabels
  split
  case h_1 id => simp [blankLabel?, Text.dropPrefix?_eq_some_iff, blankLabels]
  case h_2 name v other =>
    refine ⟨.inr, Or.rec (fun same => ?_) id⟩
    obtain ⟨rfl, rfl⟩ := Prod.mk.inj same
    exact (other _ rfl rfl).elim

theorem usesLabel_array {items : List Json} {l : String} :
    UsesLabel (.array items) l ↔ ∃ v ∈ items, UsesLabel v l := by
  constructor
  · rintro ⟨_ | ⟨i, p⟩, members, found, used⟩
    · cases found
    · obtain ⟨v, item, found⟩ := Option.bind_eq_some_iff.mp found
      exact ⟨v, List.mem_of_getElem? item, p, members, found, used⟩
  · rintro ⟨v, mem, p, members, found, used⟩
    obtain ⟨i, item⟩ := List.getElem?_of_mem mem
    exact ⟨i :: p, members, by rw [Json.at?, item]; exact found, used⟩

theorem usesLabel_object {members : List (String × Json)} {l : String} :
    UsesLabel (.object members) l ↔
      ∃ m ∈ members, m = ("@id", .string ("_:" ++ l)) ∨ UsesLabel m.2 l := by
  constructor
  · rintro ⟨_ | ⟨i, p⟩, inner, found, used⟩
    · cases found
      exact ⟨_, used, .inl rfl⟩
    · obtain ⟨m, member, found⟩ := Option.bind_eq_some_iff.mp found
      exact ⟨m, List.mem_of_getElem? member, .inr ⟨p, inner, found, used⟩⟩
  · rintro ⟨m, mem, rfl | ⟨p, inner, found, used⟩⟩
    · exact ⟨[], members, rfl, mem⟩
    · obtain ⟨i, member⟩ := List.getElem?_of_mem mem
      exact ⟨i :: p, inner, by rw [Json.at?, member]; exact found, used⟩

theorem not_usesLabel_of_flat {doc : Json} {l : String} (noArray : ∀ items, doc ≠ .array items)
    (noObject : ∀ members, doc ≠ .object members) : ¬ UsesLabel doc l := by
  rintro ⟨_ | ⟨i, p⟩, members, found, -⟩
  · exact noObject members (Option.some.inj found)
  · cases doc with
    | array items => exact noArray items rfl
    | object members => exact noObject members rfl
    | _ => cases found

mutual

/-- The labels that the reader avoids are those that the document uses. -/
theorem mem_blankLabels_iff (doc : Json) {l : String} : l ∈ blankLabels doc ↔ UsesLabel doc l := by
  cases doc with
  | array items =>
    rw [blankLabels, mem_itemLabels, usesLabel_array]
    exact exists_congr fun v => and_congr_right fun mem => (mem_itemLabels_iff items v mem)
  | object members =>
    rw [blankLabels, mem_memberLabels, usesLabel_object]
    exact exists_congr fun m => and_congr_right fun mem => by
      rw [mem_ownLabels, mem_memberLabels_iff members m mem]
  | _ =>
    exact iff_of_false (fun h => nomatch h)
      (not_usesLabel_of_flat (fun _ h => nomatch h) fun _ h => nomatch h)

theorem mem_itemLabels_iff (items : List Json) {l : String} :
    ∀ v ∈ items, l ∈ blankLabels v ↔ UsesLabel v l := by
  cases items with
  | nil => exact fun _ h => nomatch h
  | cons v items =>
    exact List.forall_mem_cons.mpr ⟨mem_blankLabels_iff v, mem_itemLabels_iff items⟩

theorem mem_memberLabels_iff (members : List (String × Json)) {l : String} :
    ∀ m ∈ members, l ∈ blankLabels m.2 ↔ UsesLabel m.2 l := by
  cases members with
  | nil => exact fun _ h => nomatch h
  | cons m members =>
    obtain ⟨name, v⟩ := m
    exact List.forall_mem_cons.mpr ⟨mem_blankLabels_iff v, mem_memberLabels_iff members⟩

end

/-! ## Visits -/

/-- An object that the reader visits: a node, or a reference to one. -/
structure Visit where
  position : Position
  members : List (String × Json)

namespace Visit

/-- What the object gives as its identifier. -/
def id? (v : Visit) : Option Json := Json.member? "@id" v.members

end Visit

mutual

/-- The objects that are visited in a property value. A literal is not. -/
def valueVisits (p : Position) : Json → List Visit
  | .object members =>
    if (Json.member? "@value" members).isSome then []
    else ⟨p, members⟩ :: memberVisits p 0 members
  | _ => []

/-- The objects that are visited below the properties of a node, from the `j`-th member on. -/
def memberVisits (p : Position) (j : Nat) : List (String × Json) → List Visit
  | [] => []
  | (name, v) :: members =>
    (if isKeyword name then []
      else match v with
        | .array items => itemVisits (p ++ [j]) 0 items
        | v => valueVisits (p ++ [j]) v) ++ memberVisits p (j + 1) members

def itemVisits (p : Position) (i : Nat) : List Json → List Visit
  | [] => []
  | v :: items => valueVisits (p ++ [i]) v ++ itemVisits p (i + 1) items

end

/-- The objects that are visited in a node that a document lists. -/
def nodeVisits (p : Position) : Json → List Visit
  | .object members => ⟨p, members⟩ :: memberVisits p 0 members
  | _ => []

/-- The items of an array with their positions, from the `i`-th on. -/
def numbered (p : Position) (i : Nat) : List Json → List (Position × Json)
  | [] => []
  | v :: items => (p ++ [i], v) :: numbered p (i + 1) items

/-- The nodes that a document lists, with their positions. -/
def listedNodes : Json → List (Position × Json)
  | .array nodes => numbered [] 0 nodes
  | .object members =>
    match Json.member? "@graph" members with
    | some (.array nodes) => numbered [members.findIdx (·.1 = "@graph")] 0 nodes
    | some _ => []
    | none => [([], .object members)]
  | _ => []

/-- The objects that the reader visits, in its order. -/
def visits (doc : Json) : List Visit := (listedNodes doc).flatMap fun n => nodeVisits n.1 n.2

/-- The values that a member gives to its property: the items of an array, or else one value. -/
def memberValues (name : String) (p : Position) : Json → List (String × Position × Json)
  | .array items => (numbered p 0 items).map (name, ·)
  | v => [(name, p, v)]

/-- The values of the properties of a node, from the `j`-th member on. -/
def propertyValues (p : Position) (j : Nat) :
    List (String × Json) → List (String × Position × Json)
  | [] => []
  | (name, v) :: members =>
    (if isKeyword name then [] else memberValues name (p ++ [j]) v) ++
      propertyValues p (j + 1) members

/-! ## The values of a node -/

theorem itemVisits_eq (p : Position) (i : Nat) (items : List Json) :
    itemVisits p i items = (numbered p i items).flatMap fun n => valueVisits n.1 n.2 := by
  induction items generalizing i with
  | nil => rw [itemVisits, numbered, List.flatMap_nil]
  | cons v items ih => rw [itemVisits, numbered, List.flatMap_cons, ih]

section Members

variable {name : String} {p : Position} {j : Nat} {v : Json} {members : List (String × Json)}

theorem memberValues_value (single : ∀ items, v ≠ .array items) :
    memberValues name p v = [(name, p, v)] := by
  unfold memberValues
  split
  · exact absurd rfl (single _)
  · rfl

theorem propertyValues_keyword (keyword : isKeyword name = true) :
    propertyValues p j ((name, v) :: members) = propertyValues p (j + 1) members := by
  rw [propertyValues, if_pos keyword, List.nil_append]

theorem propertyValues_property (property : isKeyword name = false) :
    propertyValues p j ((name, v) :: members) =
      memberValues name (p ++ [j]) v ++ propertyValues p (j + 1) members := by
  rw [propertyValues, if_neg (Bool.eq_false_iff.mp property)]

theorem memberVisits_keyword (keyword : isKeyword name = true) :
    memberVisits p j ((name, v) :: members) = memberVisits p (j + 1) members := by
  conv_lhs => unfold memberVisits
  rw [if_pos keyword, List.nil_append]

theorem memberVisits_array {items : List Json} (property : isKeyword name = false) :
    memberVisits p j ((name, .array items) :: members) =
      itemVisits (p ++ [j]) 0 items ++ memberVisits p (j + 1) members := by
  conv_lhs => unfold memberVisits
  rw [if_neg (Bool.eq_false_iff.mp property)]

theorem memberVisits_value (property : isKeyword name = false)
    (single : ∀ items, v ≠ .array items) :
    memberVisits p j ((name, v) :: members) =
      valueVisits (p ++ [j]) v ++ memberVisits p (j + 1) members := by
  conv_lhs => unfold memberVisits
  rw [if_neg (Bool.eq_false_iff.mp property)]
  split
  · exact absurd rfl (single _)
  · rfl

end Members

/-- What is visited below the properties of a node is what is visited in their values. -/
theorem memberVisits_eq (p : Position) (j : Nat) (members : List (String × Json)) :
    memberVisits p j members =
      (propertyValues p j members).flatMap fun x => valueVisits x.2.1 x.2.2 := by
  induction members generalizing j with
  | nil => rw [memberVisits, propertyValues, List.flatMap_nil]
  | cons m members ih =>
    obtain ⟨name, v⟩ := m
    by_cases keyword : isKeyword name = true
    · rw [memberVisits_keyword keyword, propertyValues_keyword keyword, ih]
    · have property := Bool.eq_false_iff.mpr keyword
      rw [propertyValues_property property, List.flatMap_append, ← ih]
      by_cases single : ∀ items, v ≠ .array items
      · rw [memberVisits_value property single, memberValues_value single, List.flatMap_singleton]
      · obtain ⟨items, rfl⟩ := not_forall_not.mp single
        rw [memberVisits_array property, itemVisits_eq, memberValues, List.flatMap_map]

mutual

/-- Induction on a value: an object may be assumed to have the property in the values of its
properties. -/
theorem value_induction {P : Position → Json → Prop}
    (step : ∀ p v, (∀ members, v = .object members → ∀ x ∈ propertyValues p 0 members,
      P x.2.1 x.2.2) → P p v) (p : Position) (v : Json) : P p v := by
  refine step p v ?_
  cases v with
  | object members =>
    rintro _ ⟨⟩
    exact property_induction step p 0 members
  | _ => exact fun _ h => nomatch h

theorem property_induction {P : Position → Json → Prop}
    (step : ∀ p v, (∀ members, v = .object members → ∀ x ∈ propertyValues p 0 members,
      P x.2.1 x.2.2) → P p v) (p : Position) (j : Nat) (members : List (String × Json)) :
    ∀ x ∈ propertyValues p j members, P x.2.1 x.2.2 := by
  cases members with
  | nil => exact fun _ h => nomatch h
  | cons m members =>
    obtain ⟨name, v⟩ := m
    have others := property_induction step p (j + 1) members
    rw [propertyValues, List.forall_mem_append]
    refine ⟨?_, others⟩
    split
    · exact fun _ h => nomatch h
    · cases v with
      | array items => exact List.forall_mem_map.mpr (item_induction step _ 0 items)
      | _ => exact List.forall_mem_singleton.mpr (value_induction step _ _)

theorem item_induction {P : Position → Json → Prop}
    (step : ∀ p v, (∀ members, v = .object members → ∀ x ∈ propertyValues p 0 members,
      P x.2.1 x.2.2) → P p v) (p : Position) (i : Nat) (items : List Json) :
    ∀ n ∈ numbered p i items, P n.1 n.2 := by
  cases items with
  | nil => exact fun _ h => nomatch h
  | cons v items =>
    exact List.forall_mem_cons.mpr
      ⟨value_induction step _ v, item_induction step p (i + 1) items⟩

end

/-! ## The positions of what is visited -/

theorem mem_numbered {p : Position} {i : Nat} {items : List Json} {n : Position × Json}
    (h : n ∈ numbered p i items) : ∃ k, items[k]? = some n.2 ∧ n.1 = p ++ [i + k] := by
  induction items generalizing i with
  | nil => cases h
  | cons v items ih =>
    rcases List.mem_cons.mp h with rfl | h
    · exact ⟨0, rfl, rfl⟩
    · obtain ⟨k, item, position⟩ := ih h
      exact ⟨k + 1, item, by rw [position, Nat.add_right_comm, Nat.add_assoc]⟩

/-- A value of a property is at its position below the member that gives it. -/
theorem mem_memberValues {name : String} {p : Position} {v : Json}
    {x : String × Position × Json} (h : x ∈ memberValues name p v) :
    ∃ q, x.2.1 = p ++ q ∧ v.at? q = some x.2.2 := by
  unfold memberValues at h
  split at h
  case h_1 items =>
    obtain ⟨n, mem, rfl⟩ := List.mem_map.mp h
    obtain ⟨k, item, position⟩ := mem_numbered mem
    exact ⟨[0 + k], position, by rw [Json.at?, Nat.zero_add, item]; rfl⟩
  case h_2 =>
    obtain rfl := List.mem_singleton.mp h
    exact ⟨[], (List.append_nil p).symm, rfl⟩

theorem mem_propertyValues {p : Position} {j : Nat} {members : List (String × Json)}
    {x : String × Position × Json} (h : x ∈ propertyValues p j members) :
    ∃ k m q, members[k]? = some m ∧ x.2.1 = p ++ (j + k) :: q ∧ m.2.at? q = some x.2.2 := by
  induction members generalizing j with
  | nil => cases h
  | cons m members ih =>
    obtain ⟨name, v⟩ := m
    rcases List.mem_append.mp h with h | h
    · split at h
      · cases h
      · obtain ⟨q, position, found⟩ := mem_memberValues h
        exact ⟨0, _, q, rfl, by rw [position, List.append_assoc]; rfl, found⟩
    · obtain ⟨k, m, q, member, position, found⟩ := ih h
      exact ⟨k + 1, m, q, member, by rw [position, Nat.add_right_comm, Nat.add_assoc], found⟩

/-- A value of a property is at its position. -/
theorem at?_of_mem_propertyValues {doc : Json} {p : Position} {members : List (String × Json)}
    (found : doc.at? p = some (.object members)) {x : String × Position × Json}
    (h : x ∈ propertyValues p 0 members) : doc.at? x.2.1 = some x.2.2 := by
  obtain ⟨k, m, q, member, position, below⟩ := mem_propertyValues h
  rw [position, Json.at?_append, found, Nat.zero_add, Option.bind_some, Json.at?, member]
  exact below

theorem nodeVisits_object (p : Position) (members : List (String × Json)) :
    nodeVisits p (.object members) =
      ⟨p, members⟩ :: (propertyValues p 0 members).flatMap fun x => valueVisits x.2.1 x.2.2 := by
  rw [nodeVisits, memberVisits_eq]

/-- What is visited in a node: itself, and what is visited in the values of its properties. -/
theorem mem_nodeVisits {p : Position} {v : Json} {w : Visit} (h : w ∈ nodeVisits p v) :
    ∃ members, v = .object members ∧ (w = ⟨p, members⟩ ∨
      ∃ x ∈ propertyValues p 0 members, w ∈ valueVisits x.2.1 x.2.2) := by
  cases v with
  | object members =>
    rw [nodeVisits_object] at h
    exact ⟨members, rfl, (List.mem_cons.mp h).imp_right List.mem_flatMap.mp⟩
  | _ => cases h

/-- A value is visited as a node, or not at all. -/
theorem valueVisits_eq (p : Position) (v : Json) :
    valueVisits p v = [] ∨ valueVisits p v = nodeVisits p v := by
  cases v with
  | object members =>
    rw [valueVisits, nodeVisits]
    split
    · exact .inl rfl
    · exact .inr rfl
  | _ => exact .inl rfl

theorem valueVisits_subset_nodeVisits (p : Position) (v : Json) :
    valueVisits p v ⊆ nodeVisits p v := by
  rcases valueVisits_eq p v with none | same
  · rw [none]
    exact List.nil_subset _
  · rw [same]
    exact List.Subset.refl _

theorem position_of_mem_nodeVisits (p : Position) (v : Json) :
    ∀ w ∈ nodeVisits p v, ∃ q, w.position = p ++ q := by
  induction p, v using value_induction with
  | step p v ih =>
    intro w h
    obtain ⟨members, rfl, rfl | ⟨x, value, inside⟩⟩ := mem_nodeVisits h
    · exact ⟨[], (List.append_nil p).symm⟩
    · obtain ⟨q, position⟩ := ih members rfl x value w (valueVisits_subset_nodeVisits _ _ inside)
      obtain ⟨k, _, r, -, start, -⟩ := mem_propertyValues value
      exact ⟨_, by rw [position, start, List.append_assoc]⟩

theorem at?_of_mem_nodeVisits {doc : Json} {p : Position} {v : Json} (found : doc.at? p = some v) :
    ∀ w ∈ nodeVisits p v, doc.at? w.position = some (.object w.members) := by
  induction p, v using value_induction with
  | step p v ih =>
    intro w h
    obtain ⟨members, rfl, rfl | ⟨x, value, inside⟩⟩ := mem_nodeVisits h
    · exact found
    · exact ih members rfl x value (at?_of_mem_propertyValues found value) w
        (valueVisits_subset_nodeVisits _ _ inside)

/-- The values of the properties of what is visited are visited in turn. -/
theorem nodeVisits_closed (p : Position) (v : Json) :
    ∀ w ∈ nodeVisits p v, ∀ x ∈ propertyValues w.position 0 w.members,
      valueVisits x.2.1 x.2.2 ⊆ nodeVisits p v := by
  induction p, v using value_induction with
  | step p v ih =>
    intro w h x value
    obtain ⟨members, rfl, below⟩ := mem_nodeVisits h
    rw [nodeVisits_object]
    rcases below with rfl | ⟨y, value', inside⟩
    · exact fun u deep => List.mem_cons_of_mem _ (List.mem_flatMap.mpr ⟨x, value, deep⟩)
    · have closed := ih members rfl y value' w (valueVisits_subset_nodeVisits _ _ inside) x value
      have visited : nodeVisits y.2.1 y.2.2 = valueVisits y.2.1 y.2.2 :=
        ((valueVisits_eq _ _).resolve_left (List.ne_nil_of_mem inside)).symm
      rw [visited] at closed
      exact fun u deep =>
        List.mem_cons_of_mem _ (List.mem_flatMap.mpr ⟨y, value', closed deep⟩)

/-! ## No position twice -/

/-- Two positions without a common part below them. -/
def Apart (p q : Position) : Prop := ∀ r s, p ++ r ≠ q ++ s

theorem apart_of_lt (p : Position) {i k : Nat} (lt : i < k) (q r : Position) :
    Apart (p ++ i :: q) (p ++ k :: r) := by
  intro s t same
  rw [List.append_assoc, List.append_assoc] at same
  obtain ⟨rfl, -⟩ := List.cons.inj (List.append_cancel_left same)
  exact Nat.lt_irrefl _ lt

theorem pairwise_numbered (p : Position) (i : Nat) (items : List Json) :
    (numbered p i items).Pairwise fun m n => Apart m.1 n.1 := by
  induction items generalizing i with
  | nil => exact .nil
  | cons v items ih =>
    refine List.pairwise_cons.mpr ⟨fun n later => ?_, ih (i + 1)⟩
    obtain ⟨k, -, position⟩ := mem_numbered later
    rw [position]
    exact apart_of_lt p (by omega) [] []

theorem pairwise_propertyValues (p : Position) (j : Nat) (members : List (String × Json)) :
    (propertyValues p j members).Pairwise fun x y => Apart x.2.1 y.2.1 := by
  induction members generalizing j with
  | nil => exact .nil
  | cons m members ih =>
    obtain ⟨name, v⟩ := m
    refine List.pairwise_append.mpr ⟨?_, ih (j + 1), fun x own y later => ?_⟩
    · split
      · exact .nil
      · unfold memberValues
        split
        · exact List.pairwise_map.mpr (pairwise_numbered _ 0 _)
        · exact List.pairwise_singleton _ _
    · split at own
      · cases own
      · obtain ⟨q, position, -⟩ := mem_memberValues own
        obtain ⟨k, _, r, -, position', -⟩ := mem_propertyValues later
        rw [position, position', List.append_assoc]
        exact apart_of_lt p (by omega) q r

/-- What is visited in values at positions that are apart has no position in common. -/
theorem nodup_flatMap_visits {α : Type} {l : List α} {at' : α → Position} {of : α → List Visit}
    (apart : l.Pairwise fun a b => Apart (at' a) (at' b))
    (below : ∀ a ∈ l, ∀ w ∈ of a, ∃ q, w.position = at' a ++ q)
    (each : ∀ a ∈ l, ((of a).map (·.position)).Nodup) :
    ((l.flatMap of).map (·.position)).Nodup := by
  rw [List.map_flatMap, List.nodup_flatMap]
  refine ⟨each, apart.imp_of_mem fun {a b} ha hb h position inA inB => ?_⟩
  obtain ⟨w, hw, rfl⟩ := List.mem_map.mp inA
  obtain ⟨w', hw', same⟩ := List.mem_map.mp inB
  obtain ⟨q, hq⟩ := below a ha w hw
  obtain ⟨q', hq'⟩ := below b hb w' hw'
  exact h q q' (by rw [← hq, ← hq', same])

theorem nodup_nodeVisits (p : Position) (v : Json) :
    ((nodeVisits p v).map (·.position)).Nodup := by
  induction p, v using value_induction with
  | step p v ih =>
    cases v with
    | object members =>
      rw [nodeVisits_object]
      refine List.nodup_cons.mpr ⟨fun again => ?_, nodup_flatMap_visits
        (pairwise_propertyValues p 0 members) (fun x _ w inside => ?_) fun x value => ?_⟩
      · obtain ⟨w, inside, same⟩ := List.mem_map.mp again
        obtain ⟨x, value, inside⟩ := List.mem_flatMap.mp inside
        obtain ⟨q, position⟩ :=
          position_of_mem_nodeVisits _ _ w (valueVisits_subset_nodeVisits _ _ inside)
        obtain ⟨k, _, r, -, start, -⟩ := mem_propertyValues value
        rw [position, start, List.append_assoc] at same
        exact List.cons_ne_nil _ _ (List.append_right_eq_self.mp same)
      · exact position_of_mem_nodeVisits _ _ w (valueVisits_subset_nodeVisits _ _ inside)
      · rcases valueVisits_eq x.2.1 x.2.2 with none | same
        · rw [none]
          exact List.nodup_nil
        · rw [same]
          exact ih members rfl x value
    | _ => exact List.nodup_nil

/-! ## What a document visits -/

/-- The first member of a name. -/
theorem getElem?_findIdx_of_member? {name : String} {members : List (String × Json)} {v : Json}
    (h : Json.member? name members = some v) :
    members[members.findIdx (·.1 = name)]? = some (name, v) := by
  induction members with
  | nil => cases h
  | cons m members ih =>
    obtain ⟨name', v'⟩ := m
    change (if compare name name' = .eq then some v' else Json.member? name members) = some v at h
    rw [List.findIdx_cons]
    split at h
    · case isTrue same =>
      obtain rfl := Std.LawfulEqOrd.eq_of_compare same
      obtain rfl := Option.some.inj h
      simp
    · case isFalse other =>
      have differs : name' ≠ name := by
        rintro rfl
        exact other Std.ReflOrd.compare_self
      simpa [differs] using ih h

/-- A listed node is at its position. -/
theorem at?_of_mem_listedNodes {doc : Json} {n : Position × Json} (h : n ∈ listedNodes doc) :
    doc.at? n.1 = some n.2 := by
  unfold listedNodes at h
  split at h
  case h_1 nodes =>
    obtain ⟨k, item, position⟩ := mem_numbered h
    rw [position, List.nil_append, Json.at?, Nat.zero_add, item]
    rfl
  case h_2 members =>
    split at h
    · case h_1 nodes graph =>
      obtain ⟨k, item, position⟩ := mem_numbered h
      rw [position, List.singleton_append, Json.at?, getElem?_findIdx_of_member? graph,
        Option.bind_some, Json.at?, Nat.zero_add, item]
      rfl
    · cases h
    · obtain rfl := List.mem_singleton.mp h
      rfl
  case h_3 => cases h

theorem pairwise_listedNodes (doc : Json) :
    (listedNodes doc).Pairwise fun m n => Apart m.1 n.1 := by
  unfold listedNodes
  split
  · exact pairwise_numbered [] 0 _
  · split
    · exact pairwise_numbered [_] 0 _
    · exact .nil
    · exact List.pairwise_singleton _ _
  · exact .nil

/-- What is visited is at its position. -/
theorem at?_of_mem_visits {doc : Json} {w : Visit} (h : w ∈ visits doc) :
    doc.at? w.position = some (.object w.members) := by
  obtain ⟨n, listed, inside⟩ := List.mem_flatMap.mp h
  exact at?_of_mem_nodeVisits (at?_of_mem_listedNodes listed) w inside

/-- The values of the properties of what is visited are visited in turn. -/
theorem valueVisits_subset {doc : Json} {w : Visit} (h : w ∈ visits doc)
    {x : String × Position × Json} (value : x ∈ propertyValues w.position 0 w.members) :
    valueVisits x.2.1 x.2.2 ⊆ visits doc := by
  obtain ⟨n, listed, inside⟩ := List.mem_flatMap.mp h
  exact fun u deep =>
    List.mem_flatMap.mpr ⟨n, listed, nodeVisits_closed _ _ w inside x value deep⟩

/-- Nothing is visited twice. -/
theorem nodup_visits (doc : Json) : ((visits doc).map (·.position)).Nodup :=
  nodup_flatMap_visits (pairwise_listedNodes doc) (fun n _ => position_of_mem_nodeVisits n.1 n.2)
    fun n _ => nodup_nodeVisits n.1 n.2

end JsonLd

end LinkedDeposit
