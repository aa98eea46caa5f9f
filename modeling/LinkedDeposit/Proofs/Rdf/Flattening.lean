import LinkedDeposit.Proofs.Rdf.Telling

/-!
# Expanded and flattened documents read alike

A document may embed a node where a property refers to it, or list the node beside the others and
refer to it by its identifier. `Flattens` is one step from the first form to the second, or a change
of the order of the nodes.

The reader visits the nodes of the two documents in different orders, so it gives the same labels to
different anonymous nodes. That is all that changes: the rules for reading say the same of both
documents, with the labels in another order (`Flattens.tells`), and they do not depend on which
labels they are given (`TellsNodes.rename`).

Results:
* `TellsNodes.rename`: a renaming of labels that keeps those of the document carries over to what
  the nodes state.
* `Flattens.tells`, `Flattens.told`: what one document tells, the other tells, too.
* `toGraph_flattened`: both documents are refused, or both are accepted, and a bijection of the
  generated labels takes one graph to the other.
-/

namespace LinkedDeposit

/-- Applies `f` to the label of a blank node and leaves other terms alone. -/
def Term.mapBlank (f : String → String) : Term → Term
  | .blank l => .blank (f l)
  | t => t

/-- A graph with its blank nodes renamed. -/
def Graph.renameBlanks (f : String → String) (g : Graph) : Graph := g.mapTerms (Term.mapBlank f)

theorem Graph.renameBlanks_ofList (f : String → String) (ts : List Triple) :
    (Graph.ofList ts).renameBlanks f = .ofList (ts.map (Triple.mapTerms (Term.mapBlank f))) :=
  Graph.ext fun t => by simp [renameBlanks, mapTerms]

theorem Graph.ofList_perm {ts us : List Triple} (same : ts.Perm us) :
    Graph.ofList ts = .ofList us :=
  Graph.ext fun t => by simp [same.mem_iff]

namespace JsonLd

/-! ## Labels of a document -/

theorem mem_itemLabels {items : List Json} {l : String} :
    l ∈ itemLabels items ↔ ∃ v ∈ items, l ∈ blankLabels v := by
  induction items with
  | nil => simp [itemLabels]
  | cons v items ih => simp [itemLabels, ih]

/-- The labels that a member of an object uses. -/
def ownLabels : String × Json → List String
  | ("@id", .string id) => (blankLabel? id).toList
  | (_, v) => blankLabels v

theorem memberLabels_cons (m : String × Json) (members : List (String × Json)) :
    memberLabels (m :: members) = ownLabels m ++ memberLabels members := by
  unfold ownLabels
  split
  · rw [memberLabels]
  · case h_2 name v other =>
    rw [memberLabels]
    exact other

/-- The labels of a property are those of its value. -/
theorem memberLabels_property {name : String} (property : isKeyword name = false) (v : Json)
    (members : List (String × Json)) :
    memberLabels ((name, v) :: members) = blankLabels v ++ memberLabels members := by
  rw [memberLabels]
  rintro id rfl
  exact absurd property (by decide)

theorem mem_memberLabels {members : List (String × Json)} {l : String} :
    l ∈ memberLabels members ↔ ∃ m ∈ members, l ∈ ownLabels m := by
  induction members with
  | nil => simp [memberLabels]
  | cons m members ih => simp [memberLabels_cons, ih]

/-- The label of a node's own identifier is one of the labels of the node. -/
theorem mem_memberLabels_of_id {members : List (String × Json)} {id label : String}
    (named : Json.member? "@id" members = some (.string id)) (blank : blankLabel? id = some label) :
    label ∈ memberLabels members :=
  mem_memberLabels.mpr
    ⟨_, Table.mem_of_find?_eq_some named, by simp [ownLabels, blank]⟩

/-! ## Renaming -/

section Renaming

variable {f : String → String}

theorem mapBlank_idTerm {id : String} {t : Term} (names : idTerm id = .ok t)
    (fixed : ∀ l, blankLabel? id = some l → f l = l) : t.mapBlank f = t := by
  unfold idTerm at names
  split at names
  case h_1 label blank =>
    cases names
    rw [Term.mapBlank, fixed label blank]
  case h_2 =>
    cases h : checkIri id with
    | error e =>
      rw [h] at names
      cases names
    | ok u =>
      rw [h] at names
      cases names
      rfl

theorem mapBlank_literal {value : Json} {members : List (String × Json)} {t : Term}
    (h : literal value members = .ok t) : t.mapBlank f = t := by
  unfold literal at h
  dsimp only at h
  split at h
  · cases h
    rfl
  · split at h
    · case h_1 d _ =>
      cases hd : checkIri d with
      | error e =>
        rw [hd] at h
        cases h
      | ok u =>
        rw [hd] at h
        cases h
        rfl
    · cases h
      rfl

theorem mapBlank_reference {members : List (String × Json)} {t : Term}
    (bare : reference? members = some (.ok t)) (fixed : ∀ l ∈ memberLabels members, f l = l) :
    t.mapBlank f = t := by
  unfold reference? at bare
  split at bare
  · exact mapBlank_literal (Option.some.inj bare)
  · case h_2 id _ =>
    exact mapBlank_idTerm (Option.some.inj bare) fun l blank =>
      fixed l (mem_memberLabels_of_id rfl blank)
  · cases bare

theorem TellsSubject.rename {members : List (String × Json)} {labels : List String} {s : Term}
    (h : TellsSubject members labels s) (fixed : ∀ l ∈ memberLabels members, f l = l) :
    TellsSubject members (labels.map f) (s.mapBlank f) := by
  cases h with
  | named member names =>
    have same := mapBlank_idTerm names fun l blank => fixed l (mem_memberLabels_of_id member blank)
    exact same.symm ▸ .named member names
  | anonymous absent => exact .anonymous absent

mutual

theorem TellsValue.rename {v : Json} {labels : List String} {t : Term} {ts : List Triple}
    (h : TellsValue v labels t ts) (fixed : ∀ l ∈ blankLabels v, f l = l) :
    TellsValue v (labels.map f) (t.mapBlank f) (ts.map (Triple.mapTerms (Term.mapBlank f))) := by
  cases h with
  | string s => exact .string s
  | bool b => exact .bool b
  | number n =>
    have same : (numberTerm n).mapBlank f = numberTerm n := by cases n <;> rfl
    exact same.symm ▸ .number n
  | reference bare => exact (mapBlank_reference bare fixed).symm ▸ .reference bare
  | node rich node => exact .node rich (node.rename fixed)

theorem TellsNode.rename {members : List (String × Json)} {labels : List String} {s : Term}
    {ts : List Triple} (h : TellsNode members labels s ts)
    (fixed : ∀ l ∈ memberLabels members, f l = l) :
    TellsNode members (labels.map f) (s.mapBlank f)
      (ts.map (Triple.mapTerms (Term.mapBlank f))) := by
  obtain ⟨about, legal, properties⟩ := h
  rw [List.map_append, List.map_append, List.map_map]
  exact .intro (about.rename fixed) legal (properties.rename fixed)

theorem TellsMembers.rename {s : Term} {members : List (String × Json)} {labels : List String}
    {ts : List Triple} (h : TellsMembers s members labels ts)
    (fixed : ∀ l ∈ memberLabels members, f l = l) :
    TellsMembers (s.mapBlank f) members (labels.map f)
      (ts.map (Triple.mapTerms (Term.mapBlank f))) := by
  cases h with
  | nil => exact .nil _
  | keyword keyword rest =>
    refine .keyword keyword (rest.rename fun l hl => fixed l ?_)
    rw [memberLabels_cons]
    exact List.mem_append_right _ hl
  | array property legal values rest =>
    rw [memberLabels_property property] at fixed
    obtain ⟨inside, others⟩ := List.forall_mem_append.mp fixed
    rw [List.map_append, List.map_append]
    exact .array property legal (values.rename inside) (rest.rename others)
  | value property legal single rest =>
    rw [memberLabels_property property] at fixed
    obtain ⟨inside, others⟩ := List.forall_mem_append.mp fixed
    rw [List.map_append, List.map_append, List.map_cons]
    exact .value property legal (single.rename inside) (rest.rename others)

theorem TellsItems.rename {s : Term} {name : String} {items : List Json} {labels : List String}
    {ts : List Triple} (h : TellsItems s name items labels ts)
    (fixed : ∀ l ∈ itemLabels items, f l = l) :
    TellsItems (s.mapBlank f) name items (labels.map f)
      (ts.map (Triple.mapTerms (Term.mapBlank f))) := by
  cases h with
  | nil => exact .nil _ _
  | cons first rest =>
    obtain ⟨inside, others⟩ := List.forall_mem_append.mp fixed
    rw [List.map_append, List.map_append, List.map_cons]
    exact .cons (first.rename inside) (rest.rename others)

end

/-- **What nodes state does not depend on the labels that they are given.** -/
theorem TellsNodes.rename {nodes : List Json} {labels : List String} {ts : List Triple}
    (h : TellsNodes nodes labels ts) (fixed : ∀ l ∈ itemLabels nodes, f l = l) :
    TellsNodes nodes (labels.map f) (ts.map (Triple.mapTerms (Term.mapBlank f))) := by
  induction h with
  | nil => exact .nil
  | cons first _ ih =>
    obtain ⟨inside, others⟩ := List.forall_mem_append.mp fixed
    rw [List.map_append, List.map_append]
    exact .cons (first.rename inside) (ih others)

end Renaming

/-! ## Moving a node out -/

/-- The members of a reference to a node. -/
def bareReference (id : String) : List (String × Json) := [("@id", .string id)]

section Detaching

variable (id : String) (node : List (String × Json))

mutual

/-- One visited occurrence of `node` in a value is replaced by a reference. -/
inductive DetachesValue : Json → Json → Prop where
  | here : DetachesValue (.object node) (.object (bareReference id))
  | node {members members' : List (String × Json)} (rich : reference? members = none)
      (inside : DetachesMembers members members') :
      DetachesValue (.object members) (.object members')

/-- One visited occurrence below the properties of a node is replaced. -/
inductive DetachesMembers : List (String × Json) → List (String × Json) → Prop where
  | value {name : String} {v v' : Json} {members : List (String × Json)}
      (property : isKeyword name = false) (inside : DetachesValue v v') :
      DetachesMembers ((name, v) :: members) ((name, v') :: members)
  | array {name : String} {items items' : List Json} {members : List (String × Json)}
      (property : isKeyword name = false) (inside : DetachesItems items items') :
      DetachesMembers ((name, .array items) :: members) ((name, .array items') :: members)
  | later {m : String × Json} {members members' : List (String × Json)}
      (inside : DetachesMembers members members') :
      DetachesMembers (m :: members) (m :: members')

/-- One visited occurrence in an array of values is replaced. -/
inductive DetachesItems : List Json → List Json → Prop where
  | first {v v' : Json} {items : List Json} (inside : DetachesValue v v') :
      DetachesItems (v :: items) (v' :: items)
  | later {v : Json} {items items' : List Json} (inside : DetachesItems items items') :
      DetachesItems (v :: items) (v :: items')

end

end Detaching

/-- A node that a reference can stand for: it has an identifier, and it is no value. -/
structure IsDetachable (id : String) (node : List (String × Json)) : Prop where
  named : Json.member? "@id" node = some (.string id)
  noValue : Json.member? "@value" node = none

/-- One step towards a flattened document: its nodes change places, or a node that is embedded
somewhere, has an identifier and is no value is replaced by a reference and listed at the end. -/
inductive Flattens : List Json → List Json → Prop where
  | reorder {nodes nodes' : List Json} (same : nodes.Perm nodes') : Flattens nodes nodes'
  | detach {before after : List Json} {members members' node : List (String × Json)} {id : String}
      (detachable : IsDetachable id node) (inside : DetachesMembers id node members members') :
      Flattens (before ++ .object members :: after)
        (before ++ .object members' :: after ++ [.object node])

/-- Words that the reader looks up are not properties, so their members stay. -/
theorem DetachesMembers.member?_eq {id name : String} {node members members' : List (String × Json)}
    (h : DetachesMembers id node members members') (keyword : isKeyword name = true) :
    Json.member? name members' = Json.member? name members := by
  induction members generalizing members' with
  | nil => cases h
  | cons m members ih =>
    have differs {name' : String} (property : isKeyword name' = false) :
        ¬ compare name name' = .eq := by
      intro same
      cases Std.LawfulEqOrd.eq_of_compare same
      cases keyword.symm.trans property
    cases h with
    | value property _ => simp only [Json.member?, Table.find?, if_neg (differs property)]
    | array property _ => simp only [Json.member?, Table.find?, if_neg (differs property)]
    | later inside =>
      have rest := ih inside
      simp only [Json.member?] at rest
      simp only [Json.member?, Table.find?, rest]

theorem DetachesMembers.nodeTypes_eq {id : String} {node members members' : List (String × Json)}
    (h : DetachesMembers id node members members') : nodeTypes members' = nodeTypes members := by
  rw [nodeTypes, nodeTypes, h.member?_eq (by decide)]

/-- A node from which something was moved out is no mere reference, as it was none before. -/
theorem DetachesMembers.reference?_eq {id : String} {node members members' : List (String × Json)}
    (h : DetachesMembers id node members members') (rich : reference? members = none) :
    reference? members' = none := by
  have value : Json.member? "@value" members' = Json.member? "@value" members :=
    h.member?_eq (by decide)
  unfold reference? at rich ⊢
  split
  · case h_1 v member =>
    rw [value] at member
    rw [member] at rich
    cases rich
  · case h_2 =>
    cases h with
    | value property _ => cases property
    | later inside => cases inside
  · rfl

/-! ## Labels of the two documents -/

section Labels

variable {id : String} {node : List (String × Json)}

theorem IsDetachable.labels_bareReference (d : IsDetachable id node) {l : String}
    (hl : l ∈ memberLabels (bareReference id)) : l ∈ memberLabels node := by
  simp only [bareReference, memberLabels, List.append_nil, Option.mem_toList] at hl
  exact mem_memberLabels_of_id d.named hl

mutual

theorem DetachesValue.labels {v v' : Json} (h : DetachesValue id node v v')
    (d : IsDetachable id node) (l : String) :
    l ∈ blankLabels v ↔ l ∈ blankLabels v' ∨ l ∈ memberLabels node := by
  cases h with
  | here =>
    rw [blankLabels, blankLabels]
    exact ⟨.inr, fun h => h.elim d.labels_bareReference fun h => h⟩
  | node _ inside =>
    rw [blankLabels, blankLabels]
    exact inside.labels d l

theorem DetachesMembers.labels {members members' : List (String × Json)}
    (h : DetachesMembers id node members members') (d : IsDetachable id node) (l : String) :
    l ∈ memberLabels members ↔ l ∈ memberLabels members' ∨ l ∈ memberLabels node := by
  cases h with
  | value property inside =>
    simp only [memberLabels_property property, List.mem_append, inside.labels d l]
    tauto
  | array property inside =>
    simp only [memberLabels_property property, List.mem_append, blankLabels, inside.labels d l]
    tauto
  | later inside =>
    rw [memberLabels_cons, memberLabels_cons, List.mem_append, List.mem_append, inside.labels d l]
    tauto

theorem DetachesItems.labels {items items' : List Json} (h : DetachesItems id node items items')
    (d : IsDetachable id node) (l : String) :
    l ∈ itemLabels items ↔ l ∈ itemLabels items' ∨ l ∈ memberLabels node := by
  cases h with
  | first inside =>
    simp only [itemLabels, List.mem_append, inside.labels d l]
    tauto
  | later inside =>
    simp only [itemLabels, List.mem_append, inside.labels d l]
    tauto

end

end Labels

/-- **Both documents use the same labels.** -/
theorem Flattens.labels {nodes nodes' : List Json} (h : Flattens nodes nodes') (l : String) :
    l ∈ itemLabels nodes ↔ l ∈ itemLabels nodes' := by
  cases h with
  | reorder same => simp only [mem_itemLabels, same.mem_iff]
  | detach d inside =>
    simp only [mem_itemLabels, List.mem_append, List.mem_cons, or_and_right, exists_or,
      exists_eq_left, blankLabels, inside.labels d l, List.not_mem_nil, or_false]
    grind

/-! ## What both documents tell -/

section Order

variable {α : Type} {l l' out : List α}

theorem perm_out_of_left (h : l.Perm (l' ++ out)) (rest : List α) :
    (l ++ rest).Perm (l' ++ rest ++ out) := by
  refine (h.append_right rest).trans ?_
  rw [List.append_assoc, List.append_assoc]
  exact List.perm_append_comm.append_left l'

theorem perm_out_of_right (h : l.Perm (l' ++ out)) (front : List α) :
    (front ++ l).Perm (front ++ l' ++ out) := by
  rw [List.append_assoc]
  exact h.append_left front

end Order

/-- A node tells its properties, with the subject and the types of another node that has the same
identifier and the same types. -/
theorem TellsNode.congr {members members' : List (String × Json)} {own labels : List String}
    {s : Term} {ts : List Triple}
    (sameId : Json.member? "@id" members' = Json.member? "@id" members)
    (sameTypes : nodeTypes members' = nodeTypes members) (about : TellsSubject members own s)
    (legal : ∀ type ∈ nodeTypes members, checkIri type = .ok ())
    (properties : TellsMembers s members' labels ts) :
    TellsNode members' (own ++ labels) s ((nodeTypes members).map (typeTriple s) ++ ts) := by
  have about' : TellsSubject members' own s := by
    cases about with
    | named member names => exact .named (sameId.trans member) names
    | anonymous absent => exact .anonymous (sameId.trans absent)
  rw [← sameTypes] at legal ⊢
  exact .intro about' legal properties

/-- A reference is read like a node that states nothing. -/
theorem tellsNode_bareReference_iff {id : String} {labels : List String} {t : Term}
    {ts : List Triple} : TellsNode (bareReference id) labels t ts ↔
      idTerm id = .ok t ∧ labels = [] ∧ ts = [] := by
  constructor
  · rintro ⟨about, -, properties⟩
    cases properties with
    | keyword _ rest =>
      cases rest
      cases about with
      | named member names =>
        cases member
        exact ⟨names, rfl, rfl⟩
      | anonymous absent => cases absent
    | value property => cases property
  · rintro ⟨names, rfl, rfl⟩
    exact .intro (.named rfl names) (fun type h => by cases h) (.keyword rfl (.nil t))

section Detached

variable {id : String} {node : List (String × Json)}

theorem TellsNode.idTerm_eq {labels : List String} {t : Term} {ts : List Triple}
    (h : TellsNode node labels t ts) (named : Json.member? "@id" node = some (.string id)) :
    idTerm id = .ok t := by
  obtain ⟨about, -, -⟩ := h
  cases about with
  | named member names =>
    cases named.symm.trans member
    exact names
  | anonymous absent => cases named.symm.trans absent

/-- A node without a value tells the same as a property value and as a node of the document. -/
theorem tellsValue_iff_node (noValue : Json.member? "@value" node = none) {labels : List String}
    {t : Term} {ts : List Triple} :
    TellsValue (.object node) labels t ts ↔ TellsNode node labels t ts := by
  cases h : reference? node with
  | none =>
    refine ⟨fun tells => ?_, .node h⟩
    cases tells with
    | reference bare => cases h.symm.trans bare
    | node _ tells => exact tells
  | some r =>
    obtain ⟨id, rfl⟩ : ∃ id, node = bareReference id := by
      unfold reference? at h
      split at h
      · case h_1 member => cases noValue.symm.trans member
      · exact ⟨_, rfl⟩
      · cases h
    rw [tellsNode_bareReference_iff]
    constructor
    · intro tells
      cases tells with
      | reference bare => exact ⟨Option.some.inj bare, rfl, rfl⟩
      | node rich _ => cases rich
    · rintro ⟨names, rfl, rfl⟩
      exact .reference (congrArg some names)

mutual

/-- What a value tells, the value without the node and the node tell together. -/
theorem DetachesValue.split {v v' : Json} (h : DetachesValue id node v v')
    (d : IsDetachable id node) {labels : List String} {t : Term} {ts : List Triple}
    (tells : TellsValue v labels t ts) :
    ∃ labels' ts' own s us, TellsValue v' labels' t ts' ∧ TellsNode node own s us ∧
      labels.Perm (labels' ++ own) ∧ ts.Perm (ts' ++ us) := by
  cases h with
  | here =>
    have tells := (tellsValue_iff_node d.noValue).mp tells
    have bare : reference? (bareReference id) = some (.ok t) :=
      congrArg some (tells.idTerm_eq d.named)
    exact ⟨[], [], labels, t, ts, .reference bare, tells, .refl _, .refl _⟩
  | node rich inside =>
    cases tells with
    | reference bare => cases rich.symm.trans bare
    | node _ tells =>
      obtain ⟨about, legal, properties⟩ := tells
      obtain ⟨labels', ts', own, s, us, tells', out, order, order'⟩ := inside.split d properties
      have node' := TellsNode.congr (inside.member?_eq (by decide)) inside.nodeTypes_eq about legal
        tells'
      exact ⟨_, _, own, s, us, .node (inside.reference?_eq rich) node', out,
        perm_out_of_right order _, perm_out_of_right order' _⟩

theorem DetachesMembers.split {members members' : List (String × Json)}
    (h : DetachesMembers id node members members') (d : IsDetachable id node) {s : Term}
    {labels : List String} {ts : List Triple} (tells : TellsMembers s members labels ts) :
    ∃ labels' ts' own s' us, TellsMembers s members' labels' ts' ∧ TellsNode node own s' us ∧
      labels.Perm (labels' ++ own) ∧ ts.Perm (ts' ++ us) := by
  cases h with
  | value property inside =>
    cases tells with
    | keyword keyword => cases property.symm.trans keyword
    | array => cases inside
    | value _ legal single rest =>
      obtain ⟨labels', ts', own, s', us, tells', out, order, order'⟩ := inside.split d single
      exact ⟨_, _, own, s', us, .value property legal tells' rest, out, perm_out_of_left order _,
        perm_out_of_left order' _⟩
  | array property inside =>
    cases tells with
    | keyword keyword => cases property.symm.trans keyword
    | array _ legal values rest =>
      obtain ⟨labels', ts', own, s', us, tells', out, order, order'⟩ := inside.split d values
      exact ⟨_, _, own, s', us, .array property legal tells' rest, out, perm_out_of_left order _,
        perm_out_of_left order' _⟩
    | value _ _ single => cases single
  | later inside =>
    cases tells with
    | keyword keyword rest =>
      obtain ⟨labels', ts', own, s', us, tells', out, order, order'⟩ := inside.split d rest
      exact ⟨_, _, own, s', us, .keyword keyword tells', out, order, order'⟩
    | array property legal values rest =>
      obtain ⟨labels', ts', own, s', us, tells', out, order, order'⟩ := inside.split d rest
      exact ⟨_, _, own, s', us, .array property legal values tells', out,
        perm_out_of_right order _, perm_out_of_right order' _⟩
    | value property legal single rest =>
      obtain ⟨labels', ts', own, s', us, tells', out, order, order'⟩ := inside.split d rest
      exact ⟨_, _, own, s', us, .value property legal single tells', out,
        perm_out_of_right order _, perm_out_of_right (order'.cons _) _⟩

theorem DetachesItems.split {items items' : List Json} (h : DetachesItems id node items items')
    (d : IsDetachable id node) {s : Term} {name : String} {labels : List String} {ts : List Triple}
    (tells : TellsItems s name items labels ts) :
    ∃ labels' ts' own s' us, TellsItems s name items' labels' ts' ∧ TellsNode node own s' us ∧
      labels.Perm (labels' ++ own) ∧ ts.Perm (ts' ++ us) := by
  cases tells with
  | nil => cases h
  | cons first rest =>
    cases h with
    | first inside =>
      obtain ⟨labels', ts', own, s', us, tells', out, order, order'⟩ := inside.split d first
      exact ⟨_, _, own, s', us, .cons tells' rest, out, perm_out_of_left order _,
        perm_out_of_left order' _⟩
    | later inside =>
      obtain ⟨labels', ts', own, s', us, tells', out, order, order'⟩ := inside.split d rest
      exact ⟨_, _, own, s', us, .cons first tells', out, perm_out_of_right order _,
        perm_out_of_right (order'.cons _) _⟩

end

section Join

variable {own : List String} {o : Term} {us : List Triple}

mutual

/-- What a value without the node and the node tell, the whole value tells. -/
theorem DetachesValue.join {v v' : Json} (h : DetachesValue id node v v')
    (d : IsDetachable id node) (out : TellsNode node own o us) {labels' : List String} {t : Term}
    {ts' : List Triple} (tells : TellsValue v' labels' t ts') :
    ∃ labels ts, TellsValue v labels t ts ∧ labels.Perm (labels' ++ own) ∧
      ts.Perm (ts' ++ us) := by
  cases h with
  | here =>
    have reference : TellsNode (bareReference id) labels' t ts' :=
      (tellsValue_iff_node rfl).mp tells
    obtain ⟨names, rfl, rfl⟩ := tellsNode_bareReference_iff.mp reference
    cases names.symm.trans (out.idTerm_eq d.named)
    exact ⟨own, us, (tellsValue_iff_node d.noValue).mpr out, .refl _, .refl _⟩
  | node rich inside =>
    cases tells with
    | reference bare => cases (inside.reference?_eq rich).symm.trans bare
    | node _ tells =>
      obtain ⟨about, legal, properties⟩ := tells
      obtain ⟨labels, ts, tells, order, order'⟩ := inside.join d out properties
      have node := TellsNode.congr (inside.member?_eq (by decide)).symm inside.nodeTypes_eq.symm
        about legal tells
      exact ⟨_, _, .node rich node, perm_out_of_right order _, perm_out_of_right order' _⟩

theorem DetachesMembers.join {members members' : List (String × Json)}
    (h : DetachesMembers id node members members') (d : IsDetachable id node)
    (out : TellsNode node own o us) {s : Term} {labels' : List String} {ts' : List Triple}
    (tells : TellsMembers s members' labels' ts') :
    ∃ labels ts, TellsMembers s members labels ts ∧ labels.Perm (labels' ++ own) ∧
      ts.Perm (ts' ++ us) := by
  cases h with
  | value property inside =>
    cases tells with
    | keyword keyword => cases property.symm.trans keyword
    | array => cases inside
    | value _ legal single rest =>
      obtain ⟨labels, ts, tells, order, order'⟩ := inside.join d out single
      exact ⟨_, _, .value property legal tells rest, perm_out_of_left order _,
        perm_out_of_left order' _⟩
  | array property inside =>
    cases tells with
    | keyword keyword => cases property.symm.trans keyword
    | array _ legal values rest =>
      obtain ⟨labels, ts, tells, order, order'⟩ := inside.join d out values
      exact ⟨_, _, .array property legal tells rest, perm_out_of_left order _,
        perm_out_of_left order' _⟩
    | value _ _ single => cases single
  | later inside =>
    cases tells with
    | keyword keyword rest =>
      obtain ⟨labels, ts, tells, order, order'⟩ := inside.join d out rest
      exact ⟨_, _, .keyword keyword tells, order, order'⟩
    | array property legal values rest =>
      obtain ⟨labels, ts, tells, order, order'⟩ := inside.join d out rest
      exact ⟨_, _, .array property legal values tells, perm_out_of_right order _,
        perm_out_of_right order' _⟩
    | value property legal single rest =>
      obtain ⟨labels, ts, tells, order, order'⟩ := inside.join d out rest
      exact ⟨_, _, .value property legal single tells, perm_out_of_right order _,
        perm_out_of_right (order'.cons _) _⟩

theorem DetachesItems.join {items items' : List Json} (h : DetachesItems id node items items')
    (d : IsDetachable id node) (out : TellsNode node own o us) {s : Term} {name : String}
    {labels' : List String} {ts' : List Triple} (tells : TellsItems s name items' labels' ts') :
    ∃ labels ts, TellsItems s name items labels ts ∧ labels.Perm (labels' ++ own) ∧
      ts.Perm (ts' ++ us) := by
  cases h with
  | first inside =>
    cases tells with
    | cons first rest =>
      obtain ⟨labels, ts, tells, order, order'⟩ := inside.join d out first
      exact ⟨_, _, .cons tells rest, perm_out_of_left order _, perm_out_of_left order' _⟩
  | later inside =>
    cases tells with
    | cons first rest =>
      obtain ⟨labels, ts, tells, order, order'⟩ := inside.join d out rest
      exact ⟨_, _, .cons first tells, perm_out_of_right order _,
        perm_out_of_right (order'.cons _) _⟩

end

end Join

end Detached

/-! ## Nodes of a document -/

theorem tellsNodes_append_iff {before after : List Json} {labels : List String} {ts : List Triple} :
    TellsNodes (before ++ after) labels ts ↔ ∃ own labels' us ts', TellsNodes before own us ∧
      TellsNodes after labels' ts' ∧ labels = own ++ labels' ∧ ts = us ++ ts' := by
  constructor
  · intro h
    induction before generalizing labels ts with
    | nil => exact ⟨[], labels, [], ts, .nil, h, rfl, rfl⟩
    | cons node before ih =>
      cases h with
      | cons first rest =>
        obtain ⟨own, labels', us, ts', inside, others, rfl, rfl⟩ := ih rest
        exact ⟨_, labels', _, ts', .cons first inside, others, (List.append_assoc ..).symm,
          (List.append_assoc ..).symm⟩
  · rintro ⟨own, labels', us, ts', inside, others, rfl, rfl⟩
    induction inside with
    | nil => exact others
    | cons first _ ih =>
      rw [List.append_assoc, List.append_assoc]
      exact .cons first ih

theorem TellsNodes.perm {nodes nodes' : List Json} (same : nodes.Perm nodes') {labels : List String}
    {ts : List Triple} (tells : TellsNodes nodes labels ts) :
    ∃ labels' ts', TellsNodes nodes' labels' ts' ∧ labels.Perm labels' ∧ ts.Perm ts' := by
  induction same generalizing labels ts with
  | nil => exact ⟨labels, ts, tells, .refl _, .refl _⟩
  | cons node _ ih =>
    cases tells with
    | cons first rest =>
      obtain ⟨labels', ts', tells', order, order'⟩ := ih rest
      exact ⟨_, _, .cons first tells', order.append_left _, order'.append_left _⟩
  | swap a b nodes =>
    cases tells with
    | cons first rest =>
      cases rest with
      | cons second rest =>
        refine ⟨_, _, .cons second (.cons first rest), ?_, ?_⟩
        all_goals
          rw [← List.append_assoc, ← List.append_assoc]
          exact List.perm_append_comm.append_right _
  | trans _ _ ih₁ ih₂ =>
    obtain ⟨labels₁, ts₁, tells₁, order₁, order₁'⟩ := ih₁ tells
    obtain ⟨labels₂, ts₂, tells₂, order₂, order₂'⟩ := ih₂ tells₁
    exact ⟨labels₂, ts₂, tells₂, order₁.trans order₂, order₁'.trans order₂'⟩

/-- **What a document tells, it tells after a step of flattening**, in another order. -/
theorem Flattens.tells {nodes nodes' : List Json} (h : Flattens nodes nodes') {labels : List String}
    {ts : List Triple} (tells : TellsNodes nodes labels ts) :
    ∃ labels' ts', TellsNodes nodes' labels' ts' ∧ labels.Perm labels' ∧ ts.Perm ts' := by
  cases h with
  | reorder same => exact tells.perm same
  | detach d inside =>
    obtain ⟨own₁, _, us₁, _, before, others, rfl, rfl⟩ := tellsNodes_append_iff.mp tells
    cases others with
    | cons first after =>
      obtain ⟨about, legal, properties⟩ := first
      obtain ⟨labels', ts', own, o, us, tells', out, order, order'⟩ := inside.split d properties
      have first' := TellsNode.congr (inside.member?_eq (by decide)) inside.nodeTypes_eq about legal
        tells'
      have listed := tellsNodes_append_iff.mpr
        ⟨_, _, _, _, tellsNodes_append_iff.mpr ⟨_, _, _, _, before, .cons first' after, rfl, rfl⟩,
          .cons out .nil, rfl, rfl⟩
      rw [List.append_nil, List.append_nil] at listed
      exact ⟨_, _, listed, perm_out_of_right (perm_out_of_left (perm_out_of_right order _) _) _,
        perm_out_of_right (perm_out_of_left (perm_out_of_right order' _) _) _⟩

/-- **What a document tells after a step of flattening, it told before**, in another order. -/
theorem Flattens.told {nodes nodes' : List Json} (h : Flattens nodes nodes') {labels' : List String}
    {ts' : List Triple} (tells : TellsNodes nodes' labels' ts') :
    ∃ labels ts, TellsNodes nodes labels ts ∧ labels.Perm labels' ∧ ts.Perm ts' := by
  cases h with
  | reorder same =>
    obtain ⟨labels, ts, tells, order, order'⟩ := tells.perm same.symm
    exact ⟨labels, ts, tells, order.symm, order'.symm⟩
  | detach d inside =>
    obtain ⟨_, _, _, _, listed, last, rfl, rfl⟩ := tellsNodes_append_iff.mp tells
    obtain ⟨own₁, _, us₁, _, before, others, rfl, rfl⟩ := tellsNodes_append_iff.mp listed
    cases last with
    | cons out none =>
      cases none
      cases others with
      | cons first after =>
        obtain ⟨about, legal, properties⟩ := first
        obtain ⟨labels, ts, tells, order, order'⟩ := inside.join d out properties
        have first := TellsNode.congr (inside.member?_eq (by decide)).symm inside.nodeTypes_eq.symm
          about legal tells
        rw [List.append_nil, List.append_nil]
        exact ⟨_, _, tellsNodes_append_iff.mpr ⟨_, _, _, _, before, .cons first after, rfl, rfl⟩,
          perm_out_of_right (perm_out_of_left (perm_out_of_right order _) _) _,
          perm_out_of_right (perm_out_of_left (perm_out_of_right order' _) _) _⟩

/-! ## Graphs -/

/-- A renaming of labels that keeps those of the document and moves only generated ones. -/
structure RenamesGenerated (nodes : List Json) (ρ : Equiv.Perm String) : Prop where
  document : ∀ l ∈ itemLabels nodes, ρ l = l
  generated : ∀ l, ρ l ≠ l → ∃ n, l = generatedLabel n

/-- **A step of flattening changes the graph of a document by a renaming of generated labels at
most**, and whether the document is accepted not at all. -/
theorem toGraph_flattened {nodes nodes' : List Json} (h : Flattens nodes nodes') :
    (∃ g ρ, toGraph (.array nodes) = .ok g ∧ RenamesGenerated nodes ρ ∧
        toGraph (.array nodes') = .ok (g.renameBlanks ρ)) ∨
      ∃ e e', toGraph (.array nodes) = .error e ∧ toGraph (.array nodes') = .error e' := by
  cases first : toGraph (.array nodes) with
  | ok g =>
    obtain ⟨_, labels, ts, n, listed, tells, draws, rfl⟩ := toGraph_eq_ok_iff.mp first
    cases listed
    obtain ⟨labels', ts', tells', order, order'⟩ := h.tells tells
    -- the labels as the second document needs them are those that the reader draws
    obtain ⟨ρ, image, fixed⟩ := exists_perm_map_eq order.symm (order.nodup_iff.mp draws.nodup)
    have renames : RenamesGenerated nodes ρ := by
      constructor
      · intro l hl
        exact fixed l fun drawn => (draws.mem (order.mem_iff.mpr drawn)).1 hl
      · intro l moved
        have drawn : l ∈ labels' := by
          by_contra new
          exact moved (fixed l new)
        obtain ⟨-, k, -, rfl⟩ := draws.mem (order.mem_iff.mpr drawn)
        exact ⟨k, rfl⟩
    have renamed := tells'.rename (f := ρ) fun l hl => renames.document l ((h.labels l).mpr hl)
    rw [image] at renamed
    refine .inl ⟨.ofList ts, ρ, rfl, renames, toGraph_eq_ok_iff.mpr ⟨nodes', labels, _, n, rfl,
      renamed, draws.congr fun l => ?_, ?_⟩⟩
    · exact h.labels l
    · rw [Graph.renameBlanks_ofList]
      exact Graph.ofList_perm (order'.map _)
  | error e =>
    cases second : toGraph (.array nodes') with
    | error e' => exact .inr ⟨e, e', rfl, rfl⟩
    | ok g' =>
      obtain ⟨_, labels', ts', n, listed, tells', draws, rfl⟩ := toGraph_eq_ok_iff.mp second
      cases listed
      obtain ⟨labels, ts, tells, order, -⟩ := h.told tells'
      obtain ⟨ρ, image, fixed⟩ := exists_perm_map_eq order (order.nodup_iff.mpr draws.nodup)
      have renamed := tells.rename (f := ρ) fun l hl => fixed l fun drawn =>
        (draws.mem (order.mem_iff.mp drawn)).1 ((h.labels l).mp hl)
      rw [image] at renamed
      have draws' : Draws (itemLabels nodes) 0 labels' n :=
        draws.congr fun l => (h.labels l).symm
      have accepted : toGraph (.array nodes) = .ok _ :=
        toGraph_eq_ok_iff.mpr ⟨nodes, labels', _, n, rfl, renamed, draws', rfl⟩
      cases first.symm.trans accepted

/-- A song, and the one who sings it, who has no identifier. -/
def embeddedSong : List (String × Json) :=
  [("@id", .string "_:b1"), ("urn:by", .object [("urn:name", .string "Ann")])]

/-- An album with a song and a sleeve that has no identifier. -/
def albumWith (song : List (String × Json)) : List (String × Json) :=
  [("@id", .string "urn:album"), ("urn:songs", .array [.string "intro", .object song]),
    ("urn:wrap", .object [])]

/-- The song in its place. -/
def nestedAlbum : List Json := [.object (albumWith embeddedSong)]

/-- The song detached. -/
def flatAlbum : List Json := [.object (albumWith (bareReference "_:b1")), .object embeddedSong]

/-- What the nested album states: `b2` sings, `b3` is the sleeve. -/
def albumTriples : List Triple :=
  [⟨.iri "urn:album", "urn:songs", .plain "intro"⟩,
    ⟨.blank "b2", "urn:name", .plain "Ann"⟩, ⟨.blank "b1", "urn:by", .blank "b2"⟩,
    ⟨.iri "urn:album", "urn:songs", .blank "b1"⟩, ⟨.iri "urn:album", "urn:wrap", .blank "b3"⟩]

theorem toGraph_flattened_album :
    Flattens nestedAlbum flatAlbum ∧
      toGraph (.array nestedAlbum) = .ok (.ofList albumTriples) ∧
      ∃ ρ, RenamesGenerated nestedAlbum ρ ∧
        toGraph (.array flatAlbum) = .ok ((Graph.ofList albumTriples).renameBlanks ρ) := by
  have inside : DetachesMembers "_:b1" embeddedSong (albumWith embeddedSong)
      (albumWith (bareReference "_:b1")) :=
    .later (.array (by decide) (.later (.first .here)))
  have step : Flattens nestedAlbum flatAlbum := @Flattens.detach [] [] _ _ _ _ ⟨rfl, rfl⟩ inside
  have tells : TellsNodes nestedAlbum ["b2", "b3"] albumTriples :=
    .cons (.intro (.named rfl rfl) (List.forall_mem_nil _) (.keyword rfl
      (.array rfl rfl (.cons (.string "intro") (.cons (.node rfl
          (.intro (.named rfl rfl) (List.forall_mem_nil _) (.keyword rfl
            (.value rfl rfl (.node rfl (.intro (.anonymous rfl) (List.forall_mem_nil _)
              (.value rfl rfl (.string "Ann") (.nil _)))) (.nil _))))) (.nil _ _)))
        (.value rfl rfl (.node rfl (.intro (.anonymous rfl) (List.forall_mem_nil _) (.nil _)))
          (.nil _))))) .nil
  have draws : Draws (itemLabels nestedAlbum) 0 ["b2", "b3"] 3 := .cons (.cons (.nil 3))
  have accepted : toGraph (.array nestedAlbum) = .ok (.ofList albumTriples) :=
    toGraph_eq_ok_iff.mpr ⟨_, _, _, 3, rfl, tells, draws, rfl⟩
  rcases toGraph_flattened step with ⟨g, ρ, first, renames, second⟩ | ⟨e, _, failed, _⟩
  · obtain rfl := Except.ok.inj (first.symm.trans accepted)
    exact ⟨step, accepted, ρ, renames, second⟩
  · cases failed.symm.trans accepted

end JsonLd

end LinkedDeposit
