import LinkedDeposit.Proofs.Rdf.Visits

/-!
# Naming the anonymous nodes

If the node objects without an identifier are named by their position, each visited object states
triples on its own (`Visit.states`), and a document states what these do, whatever the order in
which they are visited. The reader's labels are such a naming, and one that keeps the nodes apart
(`KeepsApart`).

Results:
* `TellsNodes.labelled`: the rules of the reader say what the visited objects state, if the labels
  that they are given name the objects without an identifier.
* `toGraph_keepsApart`: the graph of a document is what the visited objects state under names that
  keep them apart, so a blank node stands for one anonymous object, or for the objects of one label.
-/

namespace LinkedDeposit.JsonLd

/-! ## What an object states -/

namespace Visit

/-- What the object is about, if those without an identifier are named by their position. -/
def term? (name : Position → String) (v : Visit) : Option Term :=
  match v.id? with
  | some (.string id) => (idTerm id).toOption
  | some _ => none
  | none => some (.blank (name v.position))

end Visit

/-- What a property value stands for. -/
def valueTerm? (name : Position → String) (p : Position) : Json → Option Term
  | .string s => some (.plain s)
  | .bool b => some (.typed (if b then "true" else "false") Vocabulary.xsdBoolean)
  | .number n => some (numberTerm n)
  | .object members =>
    match Json.member? "@value" members with
    | some value => (literal value members).toOption
    | none => Visit.term? name ⟨p, members⟩
  | .null => none
  | .array _ => none

/-- What the properties of `s` state. -/
def stated (name : Position → String) (s : Term) (values : List (String × Position × Json)) :
    List Triple :=
  values.filterMap fun (predicate, p, v) => (valueTerm? name p v).map (⟨s, predicate, ·⟩)

/-- What an object states: its types and its properties. -/
def Visit.states (name : Position → String) (v : Visit) : List Triple :=
  (v.term? name).toList.flatMap fun s =>
    (nodeTypes v.members).map (typeTriple s) ++
      stated name s (propertyValues v.position 0 v.members)

/-! ## The rules of the reader, object by object -/

/-- The positions of the objects without an identifier. -/
def unnamed (vs : List Visit) : List Position := (vs.filter (·.id?.isNone)).map (·.position)

theorem unnamed_append (vs ws : List Visit) :
    unnamed (vs ++ ws) = unnamed vs ++ unnamed ws := by
  rw [unnamed, List.filter_append, List.map_append]
  rfl

/-- There are as many labels as objects without an identifier, and `P` holds of every name that
gives them these labels. -/
structure Labelled (vs : List Visit) (labels : List String) (P : (Position → String) → Prop) :
    Prop where
  length : labels.length = (unnamed vs).length
  holds : ∀ name, (unnamed vs).map name = labels → P name

namespace Labelled

variable {vs ws : List Visit} {labels labels' : List String} {P Q : (Position → String) → Prop}

theorem of_nil (h : ∀ name, P name) : Labelled [] [] P := ⟨rfl, fun name _ => h name⟩

theorem imp (h : Labelled vs labels P) (k : ∀ name, P name → Q name) : Labelled vs labels Q :=
  ⟨h.length, fun name named => k name (h.holds name named)⟩

theorem append (h : Labelled vs labels P) (k : Labelled ws labels' Q) :
    Labelled (vs ++ ws) (labels ++ labels') fun name => P name ∧ Q name where
  length := by rw [List.length_append, h.length, k.length, unnamed_append, List.length_append]
  holds name named := by
    rw [unnamed_append, List.map_append] at named
    obtain ⟨first, second⟩ := List.append_inj named (by rw [List.length_map, h.length])
    exact ⟨h.holds name first, k.holds name second⟩

end Labelled

/-- What the objects of a list state together. -/
def statedBy (name : Position → String) (vs : List Visit) : List Triple :=
  vs.flatMap (·.states name)

theorem statedBy_append (name : Position → String) (vs ws : List Visit) :
    statedBy name (vs ++ ws) = statedBy name vs ++ statedBy name ws := List.flatMap_append

theorem toOption_eq_some_iff {α : Type} {e : Except DepositError α} {a : α} :
    e.toOption = some a ↔ e = .ok a := by
  cases e <;> simp [Except.toOption]

theorem TellsSubject.labelled {members : List (String × Json)} {labels : List String} {s : Term}
    (h : TellsSubject members labels s) (p : Position) :
    Labelled [⟨p, members⟩] labels fun name => Visit.term? name ⟨p, members⟩ = some s := by
  cases h with
  | named member names =>
    have known : Visit.id? ⟨p, members⟩ = some _ := member
    refine ⟨by simp [unnamed, known], fun name _ => ?_⟩
    rw [Visit.term?, known]
    exact toOption_eq_some_iff.mpr names
  | anonymous absent =>
    have unknown : Visit.id? ⟨p, members⟩ = none := absent
    refine ⟨by simp [unnamed, unknown], fun name named => ?_⟩
    rw [Visit.term?, unknown]
    simpa [unnamed, unknown] using named

/-- A reference states nothing; a literal is not visited. -/
theorem labelled_reference {members : List (String × Json)} {t : Term}
    (bare : reference? members = some (.ok t)) (p : Position) :
    Labelled (valueVisits p (.object members)) [] fun name =>
      valueTerm? name p (.object members) = some t ∧
        ∀ x, x ∈ [] ↔ x ∈ statedBy name (valueVisits p (.object members)) := by
  by_cases literal : Json.member? "@value" members = none
  · have shape : ∃ id, members = [("@id", .string id)] ∧ idTerm id = .ok t := by
      unfold reference? at bare
      split at bare
      case h_1 value => cases literal.symm.trans value
      case h_2 id _ => exact ⟨id, rfl, Option.some.inj bare⟩
      case h_3 => cases bare
    obtain ⟨id, rfl, names⟩ := shape
    refine ⟨rfl, fun name _ => ⟨toOption_eq_some_iff.mpr names, fun x => ?_⟩⟩
    have nothing : statedBy name (valueVisits p (.object [("@id", .string id)])) = [] := by
      change Visit.states name ⟨p, [("@id", .string id)]⟩ ++ [] = []
      have known : Visit.term? name ⟨p, [("@id", .string id)]⟩ = some t :=
        toOption_eq_some_iff.mpr names
      rw [Visit.states, known]
      rfl
    rw [nothing]
  · obtain ⟨value, literal⟩ := Option.ne_none_iff_exists'.mp literal
    have none : valueVisits p (.object members) = [] := by simp [valueVisits, literal]
    rw [none]
    refine .of_nil fun name => ⟨?_, fun x => Iff.rfl⟩
    unfold reference? at bare
    rw [literal] at bare
    simpa only [valueTerm?, literal] using toOption_eq_some_iff.mpr (Option.some.inj bare)

theorem value_eq_none_of_rich {members : List (String × Json)} (rich : reference? members = none) :
    Json.member? "@value" members = none := by
  unfold reference? at rich
  split at rich
  · cases rich
  · cases rich
  · assumption

/-- What a node and the objects below it state. -/
theorem labelled_node {members : List (String × Json)} {own labels : List String} {s : Term}
    {ts : List Triple} {p : Position} (about : TellsSubject members own s)
    (properties : Labelled (memberVisits p 0 members) labels fun name => ∀ x, x ∈ ts ↔
      x ∈ stated name s (propertyValues p 0 members) ∨
        x ∈ statedBy name (memberVisits p 0 members)) :
    Labelled (nodeVisits p (.object members)) (own ++ labels) fun name =>
      Visit.term? name ⟨p, members⟩ = some s ∧
        ∀ x, x ∈ (nodeTypes members).map (typeTriple s) ++ ts ↔
          x ∈ statedBy name (nodeVisits p (.object members)) := by
  refine ((about.labelled p).append properties).imp fun name h => ⟨h.1, fun x => ?_⟩
  rw [nodeVisits, statedBy, List.flatMap_cons, List.mem_append, List.mem_append, h.2, ← or_assoc]
  simp [Visit.states, h.1, statedBy]

theorem stated_append (name : Position → String) (s : Term)
    (xs ys : List (String × Position × Json)) :
    stated name s (xs ++ ys) = stated name s xs ++ stated name s ys := List.filterMap_append

theorem stated_cons {name : Position → String} {p : Position} {v : Json} {t : Term}
    (h : valueTerm? name p v = some t) (s : Term) (predicate : String)
    (xs : List (String × Position × Json)) :
    stated name s ((predicate, p, v) :: xs) = ⟨s, predicate, t⟩ :: stated name s xs := by
  simp [stated, h]

theorem TellsValue.ne_array {v : Json} {labels : List String} {t : Term} {ts : List Triple}
    (h : TellsValue v labels t ts) (items : List Json) : v ≠ .array items := by
  rintro rfl
  cases h

mutual

/-- **A value says what the objects in it state**, each on its own. -/
theorem TellsValue.labelled {v : Json} {labels : List String} {t : Term} {ts : List Triple}
    (h : TellsValue v labels t ts) (p : Position) :
    Labelled (valueVisits p v) labels fun name => valueTerm? name p v = some t ∧
      ∀ x, x ∈ ts ↔ x ∈ statedBy name (valueVisits p v) := by
  cases h with
  | string s => exact .of_nil fun name => ⟨rfl, fun x => Iff.rfl⟩
  | bool b => exact .of_nil fun name => ⟨rfl, fun x => Iff.rfl⟩
  | number n => exact .of_nil fun name => ⟨rfl, fun x => Iff.rfl⟩
  | reference bare => exact labelled_reference bare p
  | @node members _ _ _ rich node =>
    obtain ⟨about, _, properties⟩ := node
    have literal := value_eq_none_of_rich rich
    have same : valueVisits p (.object members) = nodeVisits p (.object members) := by
      simp [valueVisits, nodeVisits, literal]
    simpa only [same, valueTerm?, literal] using labelled_node about (properties.labelled p 0)

theorem TellsMembers.labelled {s : Term} {members : List (String × Json)} {labels : List String}
    {ts : List Triple} (h : TellsMembers s members labels ts) (p : Position) (j : Nat) :
    Labelled (memberVisits p j members) labels fun name => ∀ x, x ∈ ts ↔
      x ∈ stated name s (propertyValues p j members) ∨
        x ∈ statedBy name (memberVisits p j members) := by
  cases h with
  | nil =>
    rw [memberVisits]
    exact .of_nil fun name x => by simp [stated, propertyValues, statedBy]
  | keyword keyword rest =>
    rw [memberVisits_keyword keyword, propertyValues_keyword keyword]
    exact rest.labelled p (j + 1)
  | array property _ values rest =>
    have all := (values.labelled (p ++ [j]) 0).append (rest.labelled p (j + 1))
    rw [memberVisits_array property, propertyValues_property property]
    refine all.imp fun name h x => ?_
    rw [List.mem_append, h.1, h.2, statedBy_append, stated_append, List.mem_append,
      List.mem_append, or_or_or_comm]
    rfl
  | value property _ single rest =>
    have all := (single.labelled (p ++ [j])).append (rest.labelled p (j + 1))
    rw [memberVisits_value property single.ne_array, propertyValues_property property]
    refine all.imp fun name h x => ?_
    obtain ⟨⟨term, own⟩, others⟩ := h
    rw [memberValues_value single.ne_array, List.singleton_append, stated_cons term,
      statedBy_append]
    simp only [List.mem_append, List.mem_cons, own, others]
    tauto

theorem TellsItems.labelled {s : Term} {predicate : String} {items : List Json}
    {labels : List String} {ts : List Triple} (h : TellsItems s predicate items labels ts)
    (p : Position) (i : Nat) :
    Labelled (itemVisits p i items) labels fun name => ∀ x, x ∈ ts ↔
      x ∈ stated name s ((numbered p i items).map (predicate, ·)) ∨
        x ∈ statedBy name (itemVisits p i items) := by
  cases h with
  | nil =>
    rw [itemVisits]
    exact .of_nil fun name x => by simp [stated, numbered, statedBy]
  | cons first rest =>
    refine ((first.labelled (p ++ [i])).append (rest.labelled p (i + 1))).imp fun name h x => ?_
    obtain ⟨⟨term, own⟩, others⟩ := h
    rw [numbered, List.map_cons, stated_cons term, itemVisits, statedBy_append]
    simp only [List.mem_append, List.mem_cons, own, others]
    tauto

end

theorem TellsNode.labelled {members : List (String × Json)} {labels : List String} {s : Term}
    {ts : List Triple} (h : TellsNode members labels s ts) (p : Position) :
    Labelled (nodeVisits p (.object members)) labels fun name =>
      Visit.term? name ⟨p, members⟩ = some s ∧
        ∀ x, x ∈ ts ↔ x ∈ statedBy name (nodeVisits p (.object members)) := by
  obtain ⟨about, _, properties⟩ := h
  exact labelled_node about (properties.labelled p 0)

theorem labelled_nodes {listed : List (Position × Json)} {nodes : List Json} {labels : List String}
    {ts : List Triple} (same : listed.map (·.2) = nodes) (h : TellsNodes nodes labels ts) :
    Labelled (listed.flatMap fun n => nodeVisits n.1 n.2) labels fun name =>
      ∀ x, x ∈ ts ↔ x ∈ statedBy name (listed.flatMap fun n => nodeVisits n.1 n.2) := by
  induction h generalizing listed with
  | nil =>
    obtain rfl := List.map_eq_nil_iff.mp same
    exact .of_nil fun name x => by simp [statedBy]
  | cons first _ ih =>
    obtain ⟨⟨p, v⟩, listed, rfl, rfl, others⟩ := List.map_eq_cons_iff.mp same
    refine ((first.labelled p).append (ih others)).imp fun name h x => ?_
    rw [List.mem_append, h.1.2, h.2, List.flatMap_cons, statedBy_append, List.mem_append]

theorem map_snd_numbered (p : Position) (i : Nat) (items : List Json) :
    (numbered p i items).map (·.2) = items := by
  induction items generalizing i with
  | nil => rfl
  | cons v items ih => rw [numbered, List.map_cons, ih]

theorem map_snd_listedNodes {doc : Json} {nodes : List Json}
    (h : documentNodes? doc = some nodes) : (listedNodes doc).map (·.2) = nodes := by
  unfold documentNodes? at h
  split at h
  case h_1 =>
    cases h
    exact map_snd_numbered [] 0 _
  case h_2 =>
    split at h
    · case h_1 graph =>
      cases h
      rw [listedNodes, graph]
      exact map_snd_numbered [_] 0 _
    · cases h
    · case h_3 graph =>
      cases h
      rw [listedNodes, graph]
      rfl
  case h_3 => cases h

/-- **A document tells what the objects in it state**, if the labels name those without an
identifier. -/
theorem TellsNodes.labelled {doc : Json} {nodes : List Json} {labels : List String}
    {ts : List Triple} (listed : documentNodes? doc = some nodes)
    (h : TellsNodes nodes labels ts) :
    Labelled (visits doc) labels fun name => ∀ x, x ∈ ts ↔ x ∈ statedBy name (visits doc) :=
  labelled_nodes (map_snd_listedNodes listed) h

/-! ## Blank nodes and the objects that they stand for -/

theorem idTerm_eq_blank_iff {id l : String} : idTerm id = .ok (.blank l) ↔ id = "_:" ++ l := by
  rw [← Text.dropPrefix?_eq_some_iff]
  change _ ↔ blankLabel? id = some l
  unfold idTerm
  split
  case h_1 label blank => simp [blank]
  case h_2 noBlank =>
    rw [noBlank]
    cases checkIri id <;> simp [Except.map]

/-- An object is about a blank node if it has no identifier and this name, or the identifier of the
blank node. -/
theorem Visit.term?_eq_blank_iff {name : Position → String} {v : Visit} {l : String} :
    v.term? name = some (.blank l) ↔
      v.id? = none ∧ name v.position = l ∨ v.id? = some (.string ("_:" ++ l)) := by
  unfold term?
  split
  case h_1 id named => simp [named, toOption_eq_some_iff, idTerm_eq_blank_iff]
  case h_2 other noString named =>
    refine iff_of_false (fun h => nomatch h) ?_
    rintro (⟨absent, -⟩ | string)
    · cases named.symm.trans absent
    · exact noString _ (Option.some.inj (named.symm.trans string))
  case h_3 absent => simp [absent]

theorem literal_ne_blank {value : Json} {members : List (String × Json)} {l : String} :
    literal value members ≠ .ok (.blank l) := by
  intro h
  have moved : Term.blank _ = Term.blank l := mapBlank_literal (f := (· ++ "b")) h
  simp at moved

/-- A value stands for a blank node only if it is visited, and if that is what it is about. -/
theorem mem_valueVisits_of_blank {name : Position → String} {p : Position} {v : Json} {l : String}
    (h : valueTerm? name p v = some (.blank l)) :
    ∃ w ∈ valueVisits p v, w.term? name = some (.blank l) := by
  unfold valueTerm? at h
  split at h
  case h_4 members =>
    split at h
    · exact absurd (toOption_eq_some_iff.mp h) literal_ne_blank
    · case h_2 rich =>
      refine ⟨⟨p, members⟩, ?_, h⟩
      simp [valueVisits, rich]
  case h_3 n => cases n <;> cases h
  all_goals cases h

/-- Each blank node of the graph stands for an object that is visited. -/
theorem exists_visit_of_blank {doc : Json} {name : Position → String} {t : Triple} {l : String}
    (told : t ∈ statedBy name (visits doc)) (blank : t.subject = .blank l ∨ t.object = .blank l) :
    ∃ v ∈ visits doc, v.term? name = some (.blank l) := by
  obtain ⟨v, visited, states⟩ := List.mem_flatMap.mp told
  obtain ⟨s, about, states⟩ := List.mem_flatMap.mp states
  rw [Option.mem_toList] at about
  rcases List.mem_append.mp states with type | property
  · obtain ⟨type, -, rfl⟩ := List.mem_map.mp type
    rcases blank with subject | object
    · exact ⟨v, visited, by rw [about]; exact congrArg some subject⟩
    · cases object
  · obtain ⟨⟨predicate, p, w⟩, value, stated⟩ := List.mem_filterMap.mp property
    obtain ⟨o, stands, rfl⟩ := Option.map_eq_some_iff.mp stated
    rcases blank with subject | object
    · exact ⟨v, visited, by rw [about]; exact congrArg some subject⟩
    · obtain ⟨u, inside, term⟩ :=
        mem_valueVisits_of_blank (stands.trans (congrArg some object))
      exact ⟨u, valueVisits_subset visited value inside, term⟩

/-! ## Names that keep the nodes apart -/

/-- The names of the objects without an identifier differ from each other, and from all labels that
the document uses. -/
structure KeepsApart (doc : Json) (name : Position → String) : Prop where
  distinct : ∀ v ∈ visits doc, ∀ w ∈ visits doc, v.id? = none → w.id? = none →
    name v.position = name w.position → v = w
  unused : ∀ v ∈ visits doc, v.id? = none → ¬ UsesLabel doc (name v.position)

theorem usesLabel_of_id {doc : Json} {v : Visit} {l : String} (visited : v ∈ visits doc)
    (id : v.id? = some (.string ("_:" ++ l))) : UsesLabel doc l :=
  ⟨v.position, v.members, at?_of_mem_visits visited, Table.mem_of_find?_eq_some id⟩

namespace KeepsApart

variable {doc : Json} {name : Position → String}

/-- Names of this kind are those that give the objects distinct labels that are not used. -/
theorem of_nodup (distinct : ((unnamed (visits doc)).map name).Nodup)
    (unused : ∀ l ∈ (unnamed (visits doc)).map name, ¬ UsesLabel doc l) : KeepsApart doc name := by
  have listed (v : Visit) (visited : v ∈ visits doc) (absent : v.id? = none) :
      v.position ∈ unnamed (visits doc) :=
    List.mem_map.mpr ⟨v, List.mem_filter.mpr ⟨visited, by rw [absent]; rfl⟩, rfl⟩
  constructor
  · intro v hv w hw absent absent' same
    have position :=
      List.inj_on_of_nodup_map distinct (listed v hv absent) (listed w hw absent') same
    exact List.inj_on_of_nodup_map (nodup_visits doc) hv hw position
  · exact fun v hv absent => unused _ (List.mem_map_of_mem (listed v hv absent))

/-- A blank node stands for one object without an identifier, or for the objects with one label. -/
theorem stands_for (apart : KeepsApart doc name) {v : Visit} {l : String}
    (visited : v ∈ visits doc) (term : v.term? name = some (.blank l)) :
    (∃ v ∈ visits doc, v.id? = none ∧
        ∀ w ∈ visits doc, w.term? name = some (.blank l) ↔ w = v) ∨
      (∃ v ∈ visits doc, v.id? = some (.string ("_:" ++ l))) ∧
        ∀ w ∈ visits doc, w.term? name = some (.blank l) ↔
          w.id? = some (.string ("_:" ++ l)) := by
  rcases Visit.term?_eq_blank_iff.mp term with ⟨absent, named⟩ | id
  · refine .inl ⟨v, visited, absent, fun w hw => ⟨fun h => ?_, fun same => same ▸ term⟩⟩
    rcases Visit.term?_eq_blank_iff.mp h with ⟨absent', named'⟩ | id
    · exact apart.distinct w hw v visited absent' absent (named'.trans named.symm)
    · exact absurd (usesLabel_of_id hw id) (named ▸ apart.unused v visited absent)
  · refine .inr ⟨⟨v, visited, id⟩, fun w hw => ⟨fun h => ?_, fun id' =>
      Visit.term?_eq_blank_iff.mpr (.inr id')⟩⟩
    rcases Visit.term?_eq_blank_iff.mp h with ⟨absent, named⟩ | id'
    · exact absurd (usesLabel_of_id visited id) (named ▸ apart.unused w hw absent)
    · exact id'

end KeepsApart

/-- Distinct things can be given any labels. -/
theorem exists_map_eq {α : Type} [DecidableEq α] {xs : List α} {labels : List String}
    (distinct : xs.Nodup) (length : labels.length = xs.length) :
    ∃ name : α → String, xs.map name = labels := by
  refine ⟨fun x => labels.getD (xs.idxOf x) "", List.ext_getElem (by simp [length]) ?_⟩
  intro i h h'
  rw [List.getElem_map, distinct.idxOf_getElem, List.getD_eq_getElem?_getD,
    List.getElem?_eq_getElem h', Option.getD_some]

/-- The search for a label that the document does not use ends, and finds the first one. -/
theorem nextFresh_blankLabels (doc : Json) (n : Nat) :
    n < nextFresh (blankLabels doc) n ∧
      nextFresh (blankLabels doc) n ≤ n + (blankLabels doc).length + 1 ∧
      ¬ UsesLabel doc (generatedLabel (nextFresh (blankLabels doc) n)) ∧
      ∀ m, n < m → m < nextFresh (blankLabels doc) n → UsesLabel doc (generatedLabel m) := by
  obtain ⟨low, free, passed⟩ := nextFresh_spec (blankLabels doc) n
  obtain ⟨m, after, near, unused⟩ := exists_free (blankLabels doc) (n + 1)
  have first : nextFresh (blankLabels doc) n ≤ m :=
    Nat.le_of_not_lt fun later => unused (passed m (by omega) later)
  refine ⟨low, by omega, fun used => free ((mem_blankLabels_iff doc).mpr used), ?_⟩
  intro k hk before
  exact (mem_blankLabels_iff doc).mp (passed k hk before)

/-- **The anonymous nodes of a document are kept apart.** The search for a label that the document
does not use ends. If a document is accepted, its graph is what the visited objects state if those
without an identifier are named by the next such labels. Each name is different from the others and
from all labels that the document uses, and so a blank node stands for exactly one object without an
identifier or else for the objects with one label. -/
theorem toGraph_keepsApart (doc : Json) :
    (∀ n, n < nextFresh (blankLabels doc) n ∧
      nextFresh (blankLabels doc) n ≤ n + (blankLabels doc).length + 1 ∧
      ¬ UsesLabel doc (generatedLabel (nextFresh (blankLabels doc) n)) ∧
      ∀ m, n < m → m < nextFresh (blankLabels doc) n → UsesLabel doc (generatedLabel m)) ∧
    ((visits doc).map (·.position)).Nodup ∧
    (∀ v ∈ visits doc, doc.at? v.position = some (.object v.members)) ∧
    ∀ g, toGraph doc = .ok g → ∃ name, KeepsApart doc name ∧
      (∃ n, Draws (blankLabels doc) 0 ((unnamed (visits doc)).map name) n) ∧
      g = .ofList ((visits doc).flatMap (·.states name)) ∧
      ∀ t ∈ g, ∀ l, t.subject = .blank l ∨ t.object = .blank l →
        (∃ v ∈ visits doc, v.id? = none ∧
            ∀ w ∈ visits doc, w.term? name = some (.blank l) ↔ w = v) ∨
          (∃ v ∈ visits doc, v.id? = some (.string ("_:" ++ l))) ∧
            ∀ w ∈ visits doc, w.term? name = some (.blank l) ↔
              w.id? = some (.string ("_:" ++ l)) := by
  refine ⟨nextFresh_blankLabels doc, nodup_visits doc, fun v => at?_of_mem_visits, ?_⟩
  intro g accepted
  obtain ⟨nodes, labels, ts, n, listed, tells, draws, rfl⟩ := toGraph_eq_ok_iff.mp accepted
  have labelled := tells.labelled listed
  have positions : (unnamed (visits doc)).Nodup :=
    (nodup_visits doc).sublist (List.filter_sublist.map _)
  obtain ⟨name, rfl⟩ := exists_map_eq positions labelled.length
  have told := labelled.holds name rfl
  have apart : KeepsApart doc name := .of_nodup draws.nodup fun l hl used =>
    (draws.mem hl).1 ((mem_blankLabels_iff doc).mpr used)
  refine ⟨name, apart, ⟨n, draws⟩, Graph.ext fun t => ?_, fun t ht l blank => ?_⟩
  · rw [Graph.mem_ofList, Graph.mem_ofList]
    exact told t
  · obtain ⟨v, visited, term⟩ := exists_visit_of_blank ((told t).mp (Graph.mem_ofList.mp ht)) blank
    exact apart.stands_for visited term

/-- A node with an embedded one, neither with an identifier, beside a node that is labelled `b1`. -/
theorem toGraph_keepsApart_embedded :
    let labelled := Json.object [("@id", .string "_:b1"), ("urn:p", .string "x")]
    let doc := Json.array [labelled, .object [("urn:q", .array [
      .object [("urn:p", .string "x")], .object [("@id", .string "_:b1")]])]]
    let g := Graph.ofList [⟨.blank "b1", "urn:p", .plain "x"⟩, ⟨.blank "b2", "urn:q", .blank "b3"⟩,
      ⟨.blank "b3", "urn:p", .plain "x"⟩, ⟨.blank "b2", "urn:q", .blank "b1"⟩]
    toGraph doc = .ok g ∧
      (visits doc).map (·.position) = [[0], [1], [1, 0, 0], [1, 0, 1]] ∧
      unnamed (visits doc) = [[1], [1, 0, 0]] ∧
      ∃ name, KeepsApart doc name ∧ g = .ofList ((visits doc).flatMap (·.states name)) := by
  intro labelled doc g
  have accepted : toGraph doc = .ok g := by decide +kernel
  obtain ⟨name, apart, -, graph, -⟩ := (toGraph_keepsApart doc).2.2.2 g accepted
  exact ⟨accepted, by decide +kernel, by decide +kernel, name, apart, graph⟩

end LinkedDeposit.JsonLd
