import LinkedDeposit.Proofs.Rdf.FreshLabels

/-!
# What a document tells

The reader of JSON-LD as rules, without its state: `TellsValue v labels t ts` says that `v` stands
for the term `t` and states the triples `ts`, where the nodes without an identifier take the
`labels` in the order of the visit. The labels are any; which ones the reader takes is said by
`Draws`.

Results:
* `realizes_readValue`, `realizes_readNode`: the reader follows the rules, and accepts whatever
  they accept.
* `toGraph_eq_ok_iff`: a document is accepted with a graph exactly when its nodes tell the triples
  of that graph, with the next fresh labels.
-/

namespace LinkedDeposit

/-- The graph with the triples of a list. -/
def Graph.addAll (g : Graph) (ts : List Triple) : Graph := g.union (.ofList ts)

@[simp] theorem Graph.mem_addAll {g : Graph} {ts : List Triple} {t : Triple} :
    t ∈ g.addAll ts ↔ t ∈ g ∨ t ∈ ts := by
  simp [Graph.addAll]

theorem Graph.addAll_nil (g : Graph) : g.addAll [] = g :=
  Graph.ext fun t => by simp

theorem Graph.addAll_append (g : Graph) (ts us : List Triple) :
    g.addAll (ts ++ us) = (g.addAll ts).addAll us :=
  Graph.ext fun t => by simp [or_assoc]

theorem Graph.addAll_singleton (g : Graph) (t : Triple) : g.addAll [t] = g.insert t :=
  Graph.ext fun u => by simp [or_comm]

theorem Graph.empty_addAll (ts : List Triple) : Graph.empty.addAll ts = .ofList ts :=
  Graph.ext fun t => by simp

namespace JsonLd

/-! ## The rules -/

/-- Names that begin with `@` are not properties. -/
def isKeyword (name : String) : Bool := name.toList.head?.any (· = '@')

/-- The types that a node names. -/
def nodeTypes (members : List (String × Json)) : List String :=
  match Json.member? "@type" members with
  | some (.string type) => [type]
  | some (.array types) => types.filterMap Json.string?
  | _ => []

/-- The statement that a node has a type. -/
def typeTriple (subject : Term) (type : String) : Triple :=
  ⟨subject, Vocabulary.rdfType, .iri type⟩

/-- The term that a node is about: the one that its identifier names, or else a new blank node. -/
inductive TellsSubject (members : List (String × Json)) : List String → Term → Prop where
  | named {id : String} {t : Term} (member : Json.member? "@id" members = some (.string id))
      (names : idTerm id = .ok t) : TellsSubject members [] t
  | anonymous {label : String} (absent : Json.member? "@id" members = none) :
      TellsSubject members [label] (.blank label)

mutual

/-- What a property value stands for, and what it states on the way. -/
inductive TellsValue : Json → List String → Term → List Triple → Prop where
  | string (s : String) : TellsValue (.string s) [] (.plain s) []
  | bool (b : Bool) :
      TellsValue (.bool b) [] (.typed (if b then "true" else "false") Vocabulary.xsdBoolean) []
  | number (n : JsonNumber) : TellsValue (.number n) [] (numberTerm n) []
  | reference {members : List (String × Json)} {t : Term}
      (bare : reference? members = some (.ok t)) : TellsValue (.object members) [] t []
  | node {members : List (String × Json)} {labels : List String} {t : Term} {ts : List Triple}
      (rich : reference? members = none) (node : TellsNode members labels t ts) :
      TellsValue (.object members) labels t ts

/-- What a node is about, and what it states. -/
inductive TellsNode : List (String × Json) → List String → Term → List Triple → Prop where
  | intro {members : List (String × Json)} {own labels : List String} {s : Term}
      {ts : List Triple} (subject : TellsSubject members own s)
      (types : ∀ type ∈ nodeTypes members, checkIri type = .ok ())
      (properties : TellsMembers s members labels ts) :
      TellsNode members (own ++ labels) s ((nodeTypes members).map (typeTriple s) ++ ts)

/-- What the properties of `s` state. -/
inductive TellsMembers : Term → List (String × Json) → List String → List Triple → Prop where
  | nil (s : Term) : TellsMembers s [] [] []
  | keyword {s : Term} {name : String} {v : Json} {members : List (String × Json)}
      {labels : List String} {ts : List Triple} (name_eq : isKeyword name = true)
      (rest : TellsMembers s members labels ts) :
      TellsMembers s ((name, v) :: members) labels ts
  | array {s : Term} {name : String} {items : List Json} {members : List (String × Json)}
      {own labels : List String} {us ts : List Triple} (property : isKeyword name = false)
      (legal : checkIri name = .ok ()) (values : TellsItems s name items own us)
      (rest : TellsMembers s members labels ts) :
      TellsMembers s ((name, .array items) :: members) (own ++ labels) (us ++ ts)
  | value {s : Term} {name : String} {v : Json} {members : List (String × Json)}
      {own labels : List String} {t : Term} {us ts : List Triple}
      (property : isKeyword name = false) (legal : checkIri name = .ok ())
      (single : TellsValue v own t us) (rest : TellsMembers s members labels ts) :
      TellsMembers s ((name, v) :: members) (own ++ labels) (us ++ ⟨s, name, t⟩ :: ts)

/-- What the values of one property of `s` state. -/
inductive TellsItems : Term → String → List Json → List String → List Triple → Prop where
  | nil (s : Term) (name : String) : TellsItems s name [] [] []
  | cons {s : Term} {name : String} {v : Json} {items : List Json} {own labels : List String}
      {t : Term} {us ts : List Triple} (first : TellsValue v own t us)
      (rest : TellsItems s name items labels ts) :
      TellsItems s name (v :: items) (own ++ labels) (us ++ ⟨s, name, t⟩ :: ts)

end

/-- What the nodes of a document state. -/
inductive TellsNodes : List Json → List String → List Triple → Prop where
  | nil : TellsNodes [] [] []
  | cons {members : List (String × Json)} {nodes : List Json} {own labels : List String} {s : Term}
      {us ts : List Triple} (first : TellsNode members own s us)
      (rest : TellsNodes nodes labels ts) :
      TellsNodes (.object members :: nodes) (own ++ labels) (us ++ ts)

/-- The nodes that a document lists. -/
def documentNodes? : Json → Option (List Json)
  | .array nodes => some nodes
  | .object members =>
    match Json.member? "@graph" members with
    | some (.array nodes) => some nodes
    | some _ => none
    | none => some [.object members]
  | _ => none

/-! ## Steps of the reader -/

/-- A step of the reader does what a rule says: it succeeds exactly when the rule applies to the
next fresh labels, and it adds the triples of the rule. -/
def Realizes {α : Type} (a : Reader α) (rule : List String → α → List Triple → Prop) : Prop :=
  ∀ used r v r', (a.run used).run r = .ok (v, r') ↔
    ∃ labels ts, rule labels v ts ∧ Draws used r.generated labels r'.generated ∧
      r'.graph = r.graph.addAll ts

section Steps

variable {α β : Type}

theorem Realizes.congr {a : Reader α} {rule rule' : List String → α → List Triple → Prop}
    (h : Realizes a rule) (same : ∀ labels v ts, rule labels v ts ↔ rule' labels v ts) :
    Realizes a rule' := by
  intro used r v r'
  rw [h used r v r']
  simp only [same]

theorem Realizes.pure (v : α) :
    Realizes (Pure.pure v : Reader α) fun labels v' ts => v' = v ∧ labels = [] ∧ ts = [] := by
  intro used r v' r'
  constructor
  · intro h
    obtain ⟨rfl, rfl⟩ := Prod.mk.inj (Except.ok.inj h)
    exact ⟨[], [], ⟨rfl, rfl, rfl⟩, .nil _, (Graph.addAll_nil _).symm⟩
  · rintro ⟨_, _, ⟨rfl, rfl, rfl⟩, draws, graph⟩
    obtain ⟨g, n⟩ := r
    obtain ⟨g', n'⟩ := r'
    rw [Graph.addAll_nil] at graph
    cases draws
    subst graph
    rfl

theorem Realizes.bind {a : Reader α} {f : α → Reader β}
    {rule : List String → α → List Triple → Prop} {next : α → List String → β → List Triple → Prop}
    (first : Realizes a rule) (second : ∀ v, Realizes (f v) (next v)) :
    Realizes (a >>= f) fun labels w ts => ∃ v own labels' us ts', rule own v us ∧
      next v labels' w ts' ∧ labels = own ++ labels' ∧ ts = us ++ ts' := by
  intro used r w r'
  rw [ReaderT.run_bind, StateT.run_bind]
  constructor
  · intro h
    cases ha : (a.run used).run r with
    | error e =>
      rw [ha] at h
      cases h
    | ok p =>
      obtain ⟨v, between⟩ := p
      rw [ha] at h
      obtain ⟨own, us, applies, draws, graph⟩ := (first used r v between).mp ha
      obtain ⟨labels, ts, applies', draws', graph'⟩ := (second v used between w r').mp h
      exact ⟨own ++ labels, us ++ ts, ⟨v, own, labels, us, ts, applies, applies', rfl, rfl⟩,
        Draws.append_iff.mpr ⟨_, draws, draws'⟩,
        by rw [graph', graph, Graph.addAll_append]⟩
  · rintro ⟨_, _, ⟨v, own, labels, us, ts, applies, applies', rfl, rfl⟩, draws, graph⟩
    obtain ⟨k, draws, draws'⟩ := Draws.append_iff.mp draws
    have ha := (first used r v ⟨r.graph.addAll us, k⟩).mpr ⟨own, us, applies, draws, rfl⟩
    rw [ha]
    exact (second v used _ w r').mpr
      ⟨labels, ts, applies', draws', by rw [graph, Graph.addAll_append]⟩

theorem Realizes.lift (e : Except DepositError α) :
    Realizes (liftM e : Reader α) fun labels v ts => e = .ok v ∧ labels = [] ∧ ts = [] := by
  cases e with
  | error e =>
    intro used r v r'
    constructor
    · intro h
      cases h
    · rintro ⟨_, _, ⟨h, -⟩, -⟩
      cases h
  | ok v =>
    refine (Realizes.pure v).congr fun labels v' ts => ?_
    rw [Except.ok.injEq, eq_comm (a := v)]

theorem Realizes.refuse (reason : String) :
    Realizes (JsonLd.refuse reason : Reader α) fun _ _ _ => False := by
  intro used r v r'
  constructor
  · intro h
    cases h
  · rintro ⟨_, _, h, -⟩
    exact h.elim

section Rule

variable {rule : List String → α → List Triple → Prop}

theorem Realizes.of_pure {v : α} (holds : rule [] v [])
    (only : ∀ labels v' ts, rule labels v' ts → v' = v ∧ labels = [] ∧ ts = []) :
    Realizes (Pure.pure v) rule := by
  refine (Realizes.pure v).congr fun labels v' ts => ⟨?_, only labels v' ts⟩
  rintro ⟨rfl, rfl, rfl⟩
  exact holds

theorem Realizes.of_refuse {reason : String} (never : ∀ labels v ts, ¬ rule labels v ts) :
    Realizes (JsonLd.refuse reason) rule :=
  (Realizes.refuse reason).congr fun labels v ts => ⟨False.elim, never labels v ts⟩

end Rule

theorem Realizes.emit (s : Term) (name : String) (t : Term) :
    Realizes (JsonLd.emit s name t) fun labels _ ts => labels = [] ∧ ts = [⟨s, name, t⟩] := by
  rintro used ⟨g, n⟩ ⟨⟩ ⟨g', n'⟩
  constructor
  · intro h
    obtain ⟨-, same⟩ := Prod.mk.inj (Except.ok.inj h)
    obtain ⟨rfl, rfl⟩ := Reading.mk.inj same
    exact ⟨[], _, ⟨rfl, rfl⟩, .nil _, (Graph.addAll_singleton _ _).symm⟩
  · rintro ⟨_, _, ⟨rfl, rfl⟩, draws, graph⟩
    rw [Graph.addAll_singleton] at graph
    cases draws
    subst graph
    rfl

theorem Realizes.freshBlank :
    Realizes JsonLd.freshBlank fun labels t ts => ∃ l, labels = [l] ∧ t = .blank l ∧ ts = [] := by
  rintro used ⟨g, n⟩ t ⟨g', n'⟩
  constructor
  · intro h
    obtain ⟨rfl, same⟩ := Prod.mk.inj (Except.ok.inj h)
    obtain ⟨rfl, rfl⟩ := Reading.mk.inj same
    exact ⟨_, [], ⟨_, rfl, rfl, rfl⟩, .cons (.nil _), (Graph.addAll_nil _).symm⟩
  · rintro ⟨_, _, ⟨l, rfl, rfl, rfl⟩, draws, graph⟩
    rw [Graph.addAll_nil] at graph
    change g' = g at graph
    subst graph
    cases draws with
    | cons rest =>
      cases rest
      rfl

end Steps

/-! ## Nodes and values -/

theorem realizes_subject (members : List (String × Json)) :
    Realizes (subject members) fun labels s ts => TellsSubject members labels s ∧ ts = [] := by
  unfold subject
  split
  case h_1 id member =>
    refine (Realizes.lift _).congr fun labels s ts => ?_
    constructor
    · rintro ⟨names, rfl, rfl⟩
      exact ⟨.named member names, rfl⟩
    · rintro ⟨tells, rfl⟩
      cases tells with
      | named member' names =>
        cases member.symm.trans member'
        exact ⟨names, rfl, rfl⟩
      | anonymous absent => cases member.symm.trans absent
  case h_2 other noString member =>
    refine .of_refuse fun labels s ts => ?_
    rintro ⟨tells, rfl⟩
    cases tells with
    | named member' _ => exact noString _ (Option.some.inj (member.symm.trans member'))
    | anonymous absent => cases member.symm.trans absent
  case h_3 absent =>
    refine Realizes.freshBlank.congr fun labels s ts => ?_
    constructor
    · rintro ⟨l, rfl, rfl, rfl⟩
      exact ⟨.anonymous absent, rfl⟩
    · rintro ⟨tells, rfl⟩
      cases tells with
      | named member _ => cases absent.symm.trans member
      | anonymous _ => exact ⟨_, rfl, rfl, rfl⟩

/-- States one type of a node. -/
def emitType (s : Term) (type : String) : Reader Unit := do
  liftM (checkIri type)
  emit s Vocabulary.rdfType (.iri type)

theorem emitTypes_eq (s : Term) (members : List (String × Json)) :
    emitTypes s members = (nodeTypes members).forM (emitType s) := by
  unfold emitTypes
  split
  case h_1 type member =>
    have types : nodeTypes members = [type] := by rw [nodeTypes, member]
    rw [types]
    exact bind_pure_unit.symm
  case h_2 types member =>
    have types : nodeTypes members = types.filterMap Json.string? := by rw [nodeTypes, member]
    rw [types]
    rfl
  case h_3 notString notArray =>
    have types : nodeTypes members = [] := by
      unfold nodeTypes
      split
      · case h_1 type member => exact (notString type member).elim
      · case h_2 types member => exact (notArray types member).elim
      · rfl
    rw [types]
    rfl

theorem realizes_emitTypes (s : Term) (members : List (String × Json)) :
    Realizes (emitTypes s members) fun labels _ ts =>
      (∀ type ∈ nodeTypes members, checkIri type = .ok ()) ∧ labels = [] ∧
        ts = (nodeTypes members).map (typeTriple s) := by
  rw [emitTypes_eq]
  induction nodeTypes members with
  | nil => exact (Realizes.pure _).congr fun labels _ ts => by simp
  | cons type types ih =>
    refine (((Realizes.lift _).bind fun _ => Realizes.emit _ _ _).bind fun _ => ih).congr
      fun labels _ ts => ?_
    constructor
    · rintro ⟨_, _, _, _, _, ⟨_, _, _, _, _, ⟨legal, rfl, rfl⟩, ⟨rfl, rfl⟩, rfl, rfl⟩,
        ⟨others, rfl, rfl⟩, rfl, rfl⟩
      exact ⟨List.forall_mem_cons.mpr ⟨legal, others⟩, rfl, rfl⟩
    · rintro ⟨legal, rfl, rfl⟩
      obtain ⟨legal, others⟩ := List.forall_mem_cons.mp legal
      exact ⟨(), [], [], [_], _, ⟨(), [], [], [], [_], ⟨legal, rfl, rfl⟩, ⟨rfl, rfl⟩, rfl, rfl⟩,
        ⟨others, rfl, rfl⟩, rfl, rfl⟩

mutual

/-- **Reading a value follows the rules.** -/
theorem realizes_readValue (v : Json) : Realizes (readValue v) (TellsValue v) := by
  cases v with
  | string s => exact .of_pure (.string s) fun _ _ _ h => by cases h; exact ⟨rfl, rfl, rfl⟩
  | bool b => exact .of_pure (.bool b) fun _ _ _ h => by cases h; exact ⟨rfl, rfl, rfl⟩
  | number n => exact .of_pure (.number n) fun _ _ _ h => by cases h; exact ⟨rfl, rfl, rfl⟩
  | null => exact .of_refuse fun _ _ _ h => by cases h
  | array items => exact .of_refuse fun _ _ _ h => by cases h
  | object members =>
    unfold readValue
    split
    case h_1 term bare =>
      refine (Realizes.lift _).congr fun labels t ts => ⟨?_, fun h => ?_⟩
      · rintro ⟨rfl, rfl, rfl⟩
        exact .reference bare
      · cases h with
        | reference bare' =>
          exact ⟨Option.some.inj (bare.symm.trans bare'), rfl, rfl⟩
        | node rich _ => cases rich.symm.trans bare
    case h_2 rich =>
      refine (realizes_node members).congr fun labels t ts => ⟨.node rich, fun h => ?_⟩
      cases h with
      | reference bare => cases rich.symm.trans bare
      | node _ node => exact node

theorem realizes_node (members : List (String × Json)) :
    Realizes (do
      let s ← subject members
      emitTypes s members
      readMembers s members
      return s) (TellsNode members) := by
  refine ((realizes_subject members).bind fun s => (realizes_emitTypes s members).bind fun _ =>
    (realizes_readMembers s members).bind fun _ => .pure s).congr fun labels t ts => ⟨?_, ?_⟩
  · rintro ⟨s, own, _, _, _, ⟨about, rfl⟩, ⟨_, _, _, _, _, ⟨legal, rfl, rfl⟩,
      ⟨_, _, _, _, _, properties, ⟨rfl, rfl, rfl⟩, rfl, rfl⟩, rfl, rfl⟩, rfl, rfl⟩
    simpa using TellsNode.intro about legal properties
  · rintro ⟨about, legal, properties⟩
    exact ⟨_, _, _, [], _, ⟨about, rfl⟩, ⟨(), [], _, _, _, ⟨legal, rfl, rfl⟩,
      ⟨(), _, [], _, [], properties, ⟨rfl, rfl, rfl⟩, (List.append_nil _).symm,
        (List.append_nil _).symm⟩, rfl, rfl⟩, rfl, rfl⟩

theorem realizes_readMembers (s : Term) (members : List (String × Json)) :
    Realizes (readMembers s members) fun labels _ ts => TellsMembers s members labels ts := by
  cases members with
  | nil => exact .of_pure (.nil s) fun _ _ _ h => by cases h; exact ⟨rfl, rfl, rfl⟩
  | cons member rest =>
    obtain ⟨name, v⟩ := member
    have others := realizes_readMembers s rest
    unfold readMembers
    dsimp only
    split
    case isTrue property =>
      replace property : isKeyword name = false := by simpa [isKeyword] using property
      split
      case h_1 items =>
        refine ((Realizes.lift _).bind fun _ => (realizes_readItems s name items).bind fun _ =>
          others).congr fun labels _ ts => ⟨?_, fun h => ?_⟩
        · rintro ⟨_, _, _, _, _, ⟨legal, rfl, rfl⟩, ⟨_, _, _, _, _, values, rest, rfl, rfl⟩,
            rfl, rfl⟩
          simp only [List.nil_append]
          exact .array property legal values rest
        · cases h with
          | keyword keyword _ => cases property.symm.trans keyword
          | value _ _ single _ => cases single
          | array _ legal values rest =>
            exact ⟨(), [], _, [], _, ⟨legal, rfl, rfl⟩, ⟨(), _, _, _, _, values, rest, rfl, rfl⟩,
              rfl, rfl⟩
      case h_2 single =>
        refine ((Realizes.lift _).bind fun _ => (realizes_readValue v).bind fun t =>
          (Realizes.emit s name t).bind fun _ => others).congr fun labels _ ts => ⟨?_, fun h => ?_⟩
        · rintro ⟨_, _, _, _, _, ⟨legal, rfl, rfl⟩, ⟨t, _, _, _, _, value,
            ⟨_, _, _, _, _, ⟨rfl, rfl⟩, rest, rfl, rfl⟩, rfl, rfl⟩, rfl, rfl⟩
          simp only [List.nil_append, List.singleton_append]
          exact .value property legal value rest
        · cases h with
          | keyword keyword _ => cases property.symm.trans keyword
          | array _ _ _ _ => exact (single _ rfl).elim
          | value _ legal value rest =>
            exact ⟨(), [], _, [], _, ⟨legal, rfl, rfl⟩, ⟨_, _, _, _, _, value,
              ⟨(), [], _, [_], _, ⟨rfl, rfl⟩, rest, rfl, rfl⟩, rfl, rfl⟩, rfl, rfl⟩
    case isFalse keyword =>
      replace keyword : isKeyword name = true := by simpa [isKeyword] using keyword
      refine others.congr fun labels _ ts => ⟨.keyword keyword, fun h => ?_⟩
      cases h with
      | keyword _ rest => exact rest
      | array property _ _ _ => cases property.symm.trans keyword
      | value property _ _ _ => cases property.symm.trans keyword

theorem realizes_readItems (s : Term) (name : String) (items : List Json) :
    Realizes (readItems s name items) fun labels _ ts => TellsItems s name items labels ts := by
  cases items with
  | nil => exact .of_pure (.nil s name) fun _ _ _ h => by cases h; exact ⟨rfl, rfl, rfl⟩
  | cons v rest =>
    refine ((realizes_readValue v).bind fun t => (Realizes.emit s name t).bind fun _ =>
      realizes_readItems s name rest).congr fun labels _ ts => ⟨?_, fun h => ?_⟩
    · rintro ⟨t, _, _, _, _, first, ⟨_, _, _, _, _, ⟨rfl, rfl⟩, rest, rfl, rfl⟩, rfl, rfl⟩
      exact .cons first rest
    · cases h with
      | cons first rest =>
        exact ⟨_, _, _, _, _, first, ⟨(), [], _, [_], _, ⟨rfl, rfl⟩, rest, rfl, rfl⟩, rfl, rfl⟩

end

/-! ## Documents -/

theorem realizes_readNode (node : Json) : Realizes (readNode node) fun labels _ ts =>
    ∃ members s, node = .object members ∧ TellsNode members labels s ts := by
  unfold readNode
  split
  case h_1 members =>
    refine ((realizes_subject members).bind fun s => (realizes_emitTypes s members).bind fun _ =>
      realizes_readMembers s members).congr fun labels _ ts => ⟨?_, ?_⟩
    · rintro ⟨s, own, _, _, _, ⟨about, rfl⟩, ⟨_, _, _, _, _, ⟨legal, rfl, rfl⟩, properties,
        rfl, rfl⟩, rfl, rfl⟩
      exact ⟨members, s, rfl, .intro about legal properties⟩
    · rintro ⟨_, s, same, node⟩
      cases same
      obtain ⟨about, legal, properties⟩ := node
      exact ⟨s, _, _, [], _, ⟨about, rfl⟩, ⟨(), [], _, _, _, ⟨legal, rfl, rfl⟩, properties,
        rfl, rfl⟩, rfl, rfl⟩
  case h_2 noObject =>
    refine .of_refuse fun labels _ ts => ?_
    rintro ⟨members, -, rfl, -⟩
    exact noObject members rfl

theorem realizes_readNodes (nodes : List Json) :
    Realizes (nodes.forM readNode) fun labels _ ts => TellsNodes nodes labels ts := by
  induction nodes with
  | nil => exact .of_pure TellsNodes.nil fun _ _ _ h => by cases h; exact ⟨rfl, rfl, rfl⟩
  | cons node nodes ih =>
    refine ((realizes_readNode node).bind fun _ => ih).congr fun labels _ ts => ⟨?_, fun h => ?_⟩
    · rintro ⟨_, _, _, _, _, ⟨members, s, rfl, first⟩, rest, rfl, rfl⟩
      exact .cons first rest
    · cases h with
      | cons first rest => exact ⟨(), _, _, _, _, ⟨_, _, rfl, first⟩, rest, rfl, rfl⟩

theorem realizes_readDocument (doc : Json) : Realizes (readDocument doc) fun labels _ ts =>
    ∃ nodes, documentNodes? doc = some nodes ∧ TellsNodes nodes labels ts := by
  have listed (nodes : List Json) (h : documentNodes? doc = some nodes) :
      Realizes (nodes.forM readNode) fun labels _ ts =>
        ∃ nodes, documentNodes? doc = some nodes ∧ TellsNodes nodes labels ts := by
    refine (realizes_readNodes nodes).congr fun labels _ ts => ⟨fun tells => ⟨nodes, h, tells⟩, ?_⟩
    rintro ⟨_, h', tells⟩
    cases h.symm.trans h'
    exact tells
  have refused (reason : String) (h : documentNodes? doc = none) :
      Realizes (refuse reason : Reader Unit) fun labels _ ts =>
        ∃ nodes, documentNodes? doc = some nodes ∧ TellsNodes nodes labels ts := by
    refine .of_refuse fun labels _ ts => ?_
    rintro ⟨_, h', -⟩
    cases h.symm.trans h'
  unfold readDocument
  split
  case h_1 nodes => exact listed nodes rfl
  case h_2 members =>
    split
    case h_1 nodes graph => exact listed nodes (by rw [documentNodes?, graph])
    case h_2 other noArray graph =>
      refine refused _ ?_
      rw [documentNodes?, graph]
      cases other with
      | array nodes => exact (noArray nodes rfl).elim
      | _ => rfl
    case h_3 graph =>
      have one : [Json.object members].forM readNode = readNode (.object members) := bind_pure_unit
      rw [← one]
      exact listed [.object members] (by rw [documentNodes?, graph])
  case h_3 noArray noObject =>
    refine refused _ ?_
    cases doc with
    | array nodes => exact (noArray nodes rfl).elim
    | object members => exact (noObject members rfl).elim
    | _ => rfl

/-- **A document is accepted exactly when its nodes tell something**, and its graph is what they
tell with the next fresh labels. -/
theorem toGraph_eq_ok_iff {doc : Json} {g : Graph} :
    toGraph doc = .ok g ↔ ∃ nodes labels ts n, documentNodes? doc = some nodes ∧
      TellsNodes nodes labels ts ∧ Draws (blankLabels doc) 0 labels n ∧ g = .ofList ts := by
  have reads := realizes_readDocument doc (blankLabels doc) ⟨Graph.empty, 0⟩ ()
  unfold toGraph
  constructor
  · intro h
    cases hr : ((readDocument doc).run (blankLabels doc)).run ⟨Graph.empty, 0⟩ with
    | error e =>
      rw [hr] at h
      cases h
    | ok p =>
      rw [hr] at h
      obtain ⟨labels, ts, ⟨nodes, listed, tells⟩, draws, graph⟩ := (reads p.2).mp hr
      refine ⟨nodes, labels, ts, _, listed, tells, draws, ?_⟩
      exact (Except.ok.inj h).symm.trans (graph.trans (Graph.empty_addAll ts))
  · rintro ⟨nodes, labels, ts, n, listed, tells, draws, rfl⟩
    rw [(reads ⟨.ofList ts, n⟩).mpr ⟨labels, ts, ⟨nodes, listed, tells⟩, draws,
      (Graph.empty_addAll ts).symm⟩]
    rfl

end JsonLd

end LinkedDeposit
