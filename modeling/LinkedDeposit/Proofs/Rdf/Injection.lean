import LinkedDeposit.Proofs.Rdf.Flattening
import LinkedDeposit.Proofs.Rdf.Update
import LinkedDeposit.Proofs.Rdf.Upload

/-!
# What the strings of a document can do to its text

Every IRI of a document is checked before it becomes part of the graph, and every text is escaped
when it is written. The label of an identifier and the language of a literal are neither checked nor
escaped. So a graph that was read from a document is read back from its text exactly when the labels
and languages in it are tokens of the grammar, and a document can break this by nothing else.

Results:
* `isLegal_of_toGraph`: in the graph of a document, whatever its strings are, no subject is a literal
  and every IRI can be written.
* `readsBack_document`: which documents have a graph that is read back, as N-Triples, as Turtle and
  in the blocks of an update.
* `language_adds_statement`: a language that adds a statement to the text.
-/

namespace LinkedDeposit

namespace JsonLd

mutual

/-- The languages that a document names, at any depth. -/
def languages : Json → List String
  | .array items => itemLanguages items
  | .object members => memberLanguages members
  | _ => []

def itemLanguages : List Json → List String
  | [] => []
  | v :: items => languages v ++ itemLanguages items

def memberLanguages : List (String × Json) → List String
  | [] => []
  | (name, v) :: members =>
    (if name = "@language" then v.string?.toList else languages v) ++ memberLanguages members

end

theorem memberLanguages_property {name : String} (property : isKeyword name = false) (v : Json)
    (members : List (String × Json)) :
    memberLanguages ((name, v) :: members) = languages v ++ memberLanguages members := by
  rw [memberLanguages, if_neg]
  rintro rfl
  exact absurd property (by decide)

theorem mem_memberLanguages {members : List (String × Json)} {l : String} :
    l ∈ memberLanguages members ↔ ∃ m ∈ members,
      l ∈ if m.1 = "@language" then m.2.string?.toList else languages m.2 := by
  induction members with
  | nil => simp [memberLanguages]
  | cons m members ih =>
    simp only [memberLanguages, List.mem_append, ih, List.mem_cons, exists_eq_or_imp]

/-- The language of a value is one of those that it names. -/
theorem mem_memberLanguages_of_language {members : List (String × Json)} {l : String}
    (named : (Json.member? "@language" members).bind Json.string? = some l) :
    l ∈ memberLanguages members := by
  obtain ⟨v, member, text⟩ := Option.bind_eq_some_iff.mp named
  exact mem_memberLanguages.mpr ⟨_, Table.mem_of_find?_eq_some member, by simp [text]⟩

end JsonLd

/-! ## Terms of a document -/

section Within

variable (label language : String → Prop)

/-- The IRIs of a term can be written, and its label and language are among some. -/
def Term.Within : Term → Prop
  | .iri i => checkIri i = .ok ()
  | .blank l => label l
  | .literal _ datatype lang => (∀ d ∈ datatype, checkIri d = .ok ()) ∧ ∀ l ∈ lang, language l

/-- The terms of a triple are such terms, and its subject is no literal. -/
structure Triple.Within (t : Triple) : Prop where
  resource : t.subject.IsResource
  subject : t.subject.Within label language
  predicate : checkIri t.predicate = .ok ()
  object : t.object.Within label language

variable {label language}

theorem Term.Within.isLegal {t : Term} (h : t.Within label language) : t.IsLegal := by
  cases t with
  | iri => exact h
  | blank => trivial
  | literal => exact h.1

/-- Labels and languages of the grammar make a term spellable. -/
theorem Term.Within.isSpellable {t : Term} (h : t.Within (fun l => NTriples.IsLabel l.toList)
    fun l => NTriples.IsLanguage l.toList) : t.IsSpellable := by
  cases t with
  | iri => trivial
  | blank => exact h
  | literal => exact h.2

theorem Triple.Within.isLegal {t : Triple} (h : t.Within label language) : t.IsLegal :=
  ⟨h.subject.isLegal, h.predicate, h.object.isLegal⟩

end Within

namespace JsonLd

section Within

variable {label language : String → Prop}

theorem within_plain (text : String) : (Term.plain text).Within label language :=
  ⟨fun d hd => (by cases hd), fun l hl => (by cases hl)⟩

theorem within_typed {text datatype : String} (legal : checkIri datatype = .ok ()) :
    (Term.typed text datatype).Within label language :=
  ⟨fun d hd => (by cases hd; exact legal), fun l hl => (by cases hl)⟩

theorem within_idTerm {id : String} {t : Term} (names : idTerm id = .ok t)
    (own : ∀ l, blankLabel? id = some l → label l) :
    t.Within label language ∧ t.IsResource := by
  unfold idTerm at names
  split at names
  case h_1 l blank =>
    cases names
    exact ⟨own l blank, trivial⟩
  case h_2 =>
    cases h : checkIri id with
    | error e =>
      rw [h] at names
      cases names
    | ok u =>
      rw [h] at names
      cases names
      exact ⟨h, trivial⟩

theorem within_literal {value : Json} {members : List (String × Json)} {t : Term}
    (h : literal value members = .ok t) (tongues : ∀ l ∈ memberLanguages members, language l) :
    t.Within label language := by
  unfold literal at h
  dsimp only at h
  split at h
  · case h_1 l named =>
    cases h
    refine ⟨fun d hd => (by cases hd), fun l' hl => ?_⟩
    cases hl
    exact tongues l (mem_memberLanguages_of_language named)
  · split at h
    · case h_1 d _ =>
      cases hd : checkIri d with
      | error e =>
        rw [hd] at h
        cases h
      | ok u =>
        rw [hd] at h
        cases h
        exact within_typed hd
    · cases h
      exact within_plain _

theorem within_reference {members : List (String × Json)} {t : Term}
    (bare : reference? members = some (.ok t)) (own : ∀ l ∈ memberLabels members, label l)
    (tongues : ∀ l ∈ memberLanguages members, language l) : t.Within label language := by
  unfold reference? at bare
  split at bare
  · exact within_literal (Option.some.inj bare) tongues
  · case h_2 id _ =>
    exact (within_idTerm (Option.some.inj bare) fun l blank =>
      own l (mem_memberLabels_of_id rfl blank)).1
  · cases bare

/-- The labels of a part of a document, those given to its nodes and its languages are among
some. -/
structure Admits (label language : String → Prop) (own given tongues : List String) : Prop where
  own : ∀ l ∈ own, label l
  given : ∀ l ∈ given, label l
  tongues : ∀ l ∈ tongues, language l

theorem Admits.append {own own' given given' tongues tongues' : List String}
    (h : Admits label language (own ++ own') (given ++ given') (tongues ++ tongues')) :
    Admits label language own given tongues ∧ Admits label language own' given' tongues' :=
  have ⟨own, own'⟩ := List.forall_mem_append.mp h.own
  have ⟨given, given'⟩ := List.forall_mem_append.mp h.given
  have ⟨tongues, tongues'⟩ := List.forall_mem_append.mp h.tongues
  ⟨⟨own, given, tongues⟩, ⟨own', given', tongues'⟩⟩

theorem TellsSubject.within {members : List (String × Json)} {labels : List String} {s : Term}
    (h : TellsSubject members labels s) (own : ∀ l ∈ memberLabels members, label l)
    (given : ∀ l ∈ labels, label l) : s.Within label language ∧ s.IsResource := by
  cases h with
  | named member names =>
    exact within_idTerm names fun l blank => own l (mem_memberLabels_of_id member blank)
  | anonymous absent => exact ⟨given _ List.mem_cons_self, trivial⟩

mutual

theorem TellsValue.within {v : Json} {labels : List String} {t : Term} {ts : List Triple}
    (h : TellsValue v labels t ts)
    (admits : Admits label language (blankLabels v) labels (languages v)) :
    t.Within label language ∧ ∀ u ∈ ts, u.Within label language := by
  cases h with
  | string s => exact ⟨within_plain s, List.forall_mem_nil _⟩
  | bool b => exact ⟨within_typed (by decide), List.forall_mem_nil _⟩
  | number n =>
    refine ⟨?_, List.forall_mem_nil _⟩
    cases n with
    | whole => exact within_typed (by decide)
    | double => exact within_typed (by decide)
  | reference bare => exact ⟨within_reference bare admits.own admits.tongues, List.forall_mem_nil _⟩
  | node rich node =>
    obtain ⟨about, -, stated⟩ := node.within admits
    exact ⟨about, stated⟩
termination_by (sizeOf v, 0)
decreasing_by
  all_goals
    subst_vars
    simp +arith only [Prod.lex_def, Json.object.sizeOf_spec, true_or]

theorem TellsNode.within {members : List (String × Json)} {labels : List String} {s : Term}
    {ts : List Triple} (h : TellsNode members labels s ts)
    (admits : Admits label language (memberLabels members) labels (memberLanguages members)) :
    s.Within label language ∧ s.IsResource ∧ ∀ u ∈ ts, u.Within label language := by
  obtain ⟨about, legal, properties⟩ := h
  obtain ⟨first, others⟩ := List.forall_mem_append.mp admits.given
  obtain ⟨within, resource⟩ := about.within admits.own first
  have rdfType : checkIri Vocabulary.rdfType = .ok () := by decide
  refine ⟨within, resource, List.forall_mem_append.mpr ⟨fun u hu => ?_,
    properties.within within resource ⟨admits.own, others, admits.tongues⟩⟩⟩
  obtain ⟨type, named, rfl⟩ := List.mem_map.mp hu
  exact ⟨resource, within, rdfType, legal type named⟩
termination_by (sizeOf members, 1)
decreasing_by
  all_goals
    subst_vars
    simp +arith only [Prod.lex_def, and_self, or_true]

theorem TellsMembers.within {s : Term} {members : List (String × Json)} {labels : List String}
    {ts : List Triple} (h : TellsMembers s members labels ts) (subject : s.Within label language)
    (resource : s.IsResource)
    (admits : Admits label language (memberLabels members) labels (memberLanguages members)) :
    ∀ u ∈ ts, u.Within label language := by
  cases h with
  | nil => exact List.forall_mem_nil _
  | keyword keyword rest =>
    rw [memberLabels_cons, memberLanguages, ← List.nil_append labels] at admits
    exact rest.within subject resource admits.append.2
  | array property legal values rest =>
    rw [memberLabels_property property, memberLanguages_property property] at admits
    obtain ⟨inside, others⟩ := admits.append
    exact List.forall_mem_append.mpr
      ⟨values.within subject resource legal inside, rest.within subject resource others⟩
  | value property legal single rest =>
    rw [memberLabels_property property, memberLanguages_property property] at admits
    obtain ⟨inside, others⟩ := admits.append
    obtain ⟨object, stated⟩ := single.within inside
    exact List.forall_mem_append.mpr ⟨stated, List.forall_mem_cons.mpr
      ⟨⟨resource, subject, legal, object⟩, rest.within subject resource others⟩⟩
termination_by (sizeOf members, 0)
decreasing_by
  all_goals
    subst_vars
    simp +arith only [Prod.lex_def, List.cons.sizeOf_spec, Prod.mk.sizeOf_spec,
    Json.array.sizeOf_spec, true_or]

theorem TellsItems.within {s : Term} {name : String} {items : List Json} {labels : List String}
    {ts : List Triple} (h : TellsItems s name items labels ts) (subject : s.Within label language)
    (resource : s.IsResource) (legal : checkIri name = .ok ())
    (admits : Admits label language (itemLabels items) labels (itemLanguages items)) :
    ∀ u ∈ ts, u.Within label language := by
  cases h with
  | nil => exact List.forall_mem_nil _
  | cons first rest =>
    obtain ⟨inside, others⟩ := admits.append
    obtain ⟨object, stated⟩ := first.within inside
    exact List.forall_mem_append.mpr ⟨stated, List.forall_mem_cons.mpr
      ⟨⟨resource, subject, legal, object⟩, rest.within subject resource legal others⟩⟩
termination_by (sizeOf items, 0)
decreasing_by
  all_goals
    subst_vars
    simp +arith only [Prod.lex_def, List.cons.sizeOf_spec, true_or]

end

theorem TellsNodes.within {nodes : List Json} {labels : List String} {ts : List Triple}
    (h : TellsNodes nodes labels ts)
    (admits : Admits label language (itemLabels nodes) labels (itemLanguages nodes)) :
    ∀ u ∈ ts, u.Within label language := by
  induction h with
  | nil => exact List.forall_mem_nil _
  | cons first _ ih =>
    obtain ⟨inside, others⟩ := admits.append
    exact List.forall_mem_append.mpr ⟨(first.within inside).2.2, ih others⟩

/-- The nodes that a document lists use no other labels and no other languages than the document. -/
theorem documentNodes?_subset {doc : Json} {nodes : List Json}
    (listed : documentNodes? doc = some nodes) :
    itemLabels nodes ⊆ blankLabels doc ∧ itemLanguages nodes ⊆ languages doc := by
  cases doc with
  | array items =>
    cases listed
    exact ⟨fun l hl => hl, fun l hl => hl⟩
  | object members =>
    rw [documentNodes?] at listed
    split at listed
    · case h_1 nodes graph =>
      cases listed
      have member := Table.mem_of_find?_eq_some graph
      exact ⟨fun l hl => mem_memberLabels.mpr ⟨_, member, hl⟩,
        fun l hl => mem_memberLanguages.mpr ⟨_, member, hl⟩⟩
    · cases listed
    · cases listed
      simp [itemLabels, itemLanguages, blankLabels, languages]
  | _ => cases listed

/-- **The terms of a document's graph** have IRIs that can be written, labels of the document or
generated ones, and languages of the document. -/
theorem within_of_toGraph {doc : Json} {g : Graph} (accepted : toGraph doc = .ok g)
    (own : ∀ l ∈ blankLabels doc, label l) (generated : ∀ n, label (generatedLabel n))
    (tongues : ∀ l ∈ languages doc, language l) : ∀ t ∈ g, t.Within label language := by
  obtain ⟨nodes, labels, ts, n, listed, tells, draws, rfl⟩ := toGraph_eq_ok_iff.mp accepted
  obtain ⟨labelsInside, languagesInside⟩ := documentNodes?_subset listed
  have given : ∀ l ∈ labels, label l := by
    intro l hl
    obtain ⟨-, k, -, rfl⟩ := draws.mem hl
    exact generated k
  intro t ht
  exact tells.within ⟨fun l hl => own l (labelsInside hl), given,
    fun l hl => tongues l (languagesInside hl)⟩ t (Graph.mem_ofList.mp ht)

end Within

/-- **Every IRI in the graph of a document can be written**, and no subject is a literal. -/
theorem isLegal_of_toGraph {doc : Json} {g : Graph} (accepted : toGraph doc = .ok g) :
    ∀ t ∈ g, t.IsLegal ∧ t.subject.IsResource := by
  have within : ∀ t ∈ g, t.Within (fun _ => True) fun _ => True :=
    within_of_toGraph accepted (fun _ _ => trivial) (fun _ => trivial) fun _ _ => trivial
  exact fun t ht => ⟨(within t ht).isLegal, (within t ht).resource⟩

/-- Generated labels are labels of the grammar. -/
theorem isLabel_generatedLabel (n : Nat) : NTriples.IsLabel (generatedLabel n).toList := by
  have text : (generatedLabel n).toList = 'b' :: Nat.toDigits 10 n := by
    rw [← Nat.toList_repr]
    exact String.toList_append
  have digit {c : Char} (hc : c ∈ Nat.toDigits 10 n) : c.isDigit = true :=
    Nat.isDigit_of_mem_toDigits (by decide) (by decide) hc
  rw [text]
  refine ⟨rfl, List.forall_mem_cons.mpr ⟨by decide, fun c hc => ?_⟩, fun last => ?_⟩
  · simp [NTriples.isLabelChar, NTriples.isLabelStart, digit hc]
  · rcases List.mem_cons.mp (List.mem_of_getLast? last) with h | h
    · exact absurd h (by decide)
    · exact absurd (digit h) (by decide)

end JsonLd

/-! ## Reading the text of a document's graph back -/

open JsonLd

/-- A patch without blank nodes, all of whose statements are in a graph. -/
def Patch.IsGroundIn (g : Graph) (p : Patch) : Prop :=
  ∀ t, t ∈ p.removed ∨ t ∈ p.added → t ∈ g ∧ t.IsGround

/-- **The text of a document's graph is read back exactly when its labels and languages are tokens
of the grammar**, which they are if those of the document are. No other string of the document can
add, split or alter a statement, in N-Triples, in an upload or in an update. -/
theorem readsBack_document {doc : Json} {g : Graph} (accepted : toGraph doc = .ok g) :
    (g.ReadsBack (fun _ => none) ↔ ∀ t ∈ g, t.IsSpellable) ∧
      (∀ base, g.ReadsBack (relativeTo base) ↔ ∀ t ∈ g, t.IsSpellable) ∧
      (∀ p : Patch, p.IsGroundIn g →
        (p.ReadsBack ↔ ∀ t, t ∈ p.removed ∨ t ∈ p.added → t.IsSpellable)) ∧
      ((∀ l ∈ blankLabels doc, NTriples.IsLabel l.toList) →
        (∀ l ∈ languages doc, NTriples.IsLanguage l.toList) → ∀ t ∈ g, t.IsSpellable) := by
  have legal : ∀ t ∈ g, t.IsLegal := fun t ht => (isLegal_of_toGraph accepted t ht).1
  have resource : ∀ t ∈ g, t.subject.IsResource := fun t ht => (isLegal_of_toGraph accepted t ht).2
  refine ⟨NTriples.readsBack_iff shortens_whole legal resource,
    fun base => NTriples.readsBack_iff (shortens_relativeTo base) legal resource,
    fun p inside => ?_, fun own tongues t ht => ?_⟩
  · exact NTriples.update?_iff (fun t ht => legal t (inside t ht).1)
      (fun t ht => resource t (inside t ht).1) fun t ht => (inside t ht).2
  · have within := within_of_toGraph accepted own isLabel_generatedLabel tongues t ht
    exact ⟨within.subject.isSpellable, within.object.isSpellable⟩

/-- A greeting in British English, with a quote and a line end in its text, by someone without an
identifier. -/
def greeting : Json :=
  .object [("@id", .string "_:b1"),
    ("urn:by", .object []),
    ("urn:text", .object [("@language", .string "en-GB"), ("@value", .string "say \"hi\"\n")])]

/-- A card whose text looks like the end of a block. -/
def card : Json :=
  .object [("@id", .string "urn:card"),
    ("urn:text", .object [("@language", .string "en"), ("@value", .string "\x7d ;\n")])]

/-- What the card states. -/
def cardTriple : Triple := ⟨.iri "urn:card", "urn:text", .inLanguage "\x7d ;\n" "en"⟩

/-- The label `b1` is taken, so the other node is `b2`. -/
def greetingTriples : List Triple :=
  [⟨.blank "b1", "urn:by", .blank "b2"⟩,
    ⟨.blank "b1", "urn:text", .inLanguage "say \"hi\"\n" "en-GB"⟩, cardTriple]

/-- Adds the card. -/
def cardPatch : Patch := ⟨.ofList [cardTriple], .empty⟩

theorem readsBack_document_greeting :
    toGraph (.array [greeting, card]) = .ok (.ofList greetingTriples) ∧
      (Graph.ofList greetingTriples).ReadsBack (fun _ => none) ∧
      (∀ base, (Graph.ofList greetingTriples).ReadsBack (relativeTo base)) ∧
      cardPatch.IsGroundIn (.ofList greetingTriples) ∧ cardPatch.ReadsBack := by
  have tells : TellsNodes [greeting, card] ["b2"] greetingTriples :=
    .cons (.intro (.named rfl rfl) (List.forall_mem_nil _) (.keyword rfl
        (.value rfl rfl (.node rfl (.intro (.anonymous rfl) (List.forall_mem_nil _) (.nil _)))
          (.value rfl rfl (.reference rfl) (.nil _)))))
      (.cons (.intro (.named rfl rfl) (List.forall_mem_nil _)
        (.keyword rfl (.value rfl rfl (.reference rfl) (.nil _)))) .nil)
  have draws : Draws (blankLabels (.array [greeting, card])) 0 ["b2"] 2 := .cons (.nil 2)
  have accepted : toGraph (.array [greeting, card]) = .ok (.ofList greetingTriples) :=
    toGraph_eq_ok_iff.mpr ⟨_, _, _, 2, rfl, tells, draws, rfl⟩
  obtain ⟨triples, turtle, updates, document⟩ := readsBack_document accepted
  have spellable := document (by decide) (by decide)
  have inside : cardPatch.IsGroundIn (.ofList greetingTriples) := by
    rintro t (gone | new)
    · exact absurd gone (Graph.not_mem_empty t)
    · obtain rfl := List.mem_singleton.mp (Graph.mem_ofList.mp new)
      exact ⟨Graph.mem_ofList.mpr (by decide), by decide⟩
  exact ⟨accepted, triples.mpr spellable, fun base => (turtle base).mpr spellable, inside,
    (updates cardPatch inside).mpr fun t ht => spellable t (inside t ht).1⟩

/-- A value whose language goes on after the end of its statement. -/
def smugglingLanguage : Json :=
  .object [("@id", .string "urn:a"), ("urn:p", .object
    [("@language", .string "en .\n<urn:x> <urn:p> <urn:y>"), ("@value", .string "v")])]

/-- What the document states. -/
def smuggledTriple : Triple :=
  ⟨.iri "urn:a", "urn:p", .inLanguage "v" "en .\n<urn:x> <urn:p> <urn:y>"⟩

/-- **A language can add a statement**: the document is accepted with one triple, and two are read
from the text of its graph. -/
theorem language_adds_statement :
    toGraph smugglingLanguage = .ok (.ofList [smuggledTriple]) ∧
      NTriples.grammar.statements? id (Graph.ofList [smuggledTriple]).toNTriples =
        some [⟨.iri "urn:a", "urn:p", .inLanguage "v" "en"⟩,
          ⟨.iri "urn:x", "urn:p", .iri "urn:y"⟩] := by
  have tells : TellsNodes [smugglingLanguage] [] [smuggledTriple] :=
    .cons (.intro (.named rfl rfl) (List.forall_mem_nil _)
      (.keyword rfl (.value rfl rfl (.reference rfl) (.nil _)))) .nil
  exact ⟨toGraph_eq_ok_iff.mpr ⟨_, [], _, 0, rfl, tells, .nil 0, rfl⟩, by decide +kernel⟩

end LinkedDeposit
