import LinkedDeposit.Ldp.Session
import LinkedDeposit.Proofs.Link.Rewrite
import LinkedDeposit.Proofs.Rdf.Reading

/-!
# Uploads over both sessions

A session that talks to a server sends a graph as text, in which the node's own id is the empty
reference, and leaves it to the server to put relative references behind the URI of the resource. A
session in memory takes the graph itself and puts its own id and its relative references behind the
URI on its own (`Transaction.ingest`). Both repositories end up with one graph.

The writer shortens an IRI by its first characters, the ingest looks up the part before the first
`#`; for an id without `#` the two agree on every IRI. They part where a text is more than its
subjects and objects: a server that reads a statement resolves a relative predicate or datatype too,
while predicates and literals go through the ingest untouched.

Results:
* `receivedIri_eq`: an IRI, shortened and resolved, is the IRI that is stored.
* `received_skolemize`: so is a triple, up to its predicate and datatypes.
* `upload_reads_back`: an upload, read statement by statement, is the stored graph with its
  predicates and datatypes resolved; where none of these is relative, it is the stored graph.
-/

namespace LinkedDeposit

/-! ## References -/

/-- A relative reference to an IRI is what follows the base in it. -/
theorem relativeTo_eq_some_iff {base i reference : String} :
    relativeTo base i = some reference ↔ isRelative reference = true ∧ i = base ++ reference := by
  have cut (rest : List Char) (h : i.toList = base.toList ++ rest) :
      i = base ++ String.ofList rest := String.toList_injective (by simpa using h)
  unfold relativeTo
  constructor
  · intro h
    split at h
    case h_1 hr =>
      obtain rfl := Option.some.inj h
      exact ⟨rfl, cut [] (Text.afterPrefix?_eq_some_iff.mp hr)⟩
    case h_2 fragment hr =>
      obtain rfl := Option.some.inj h
      exact ⟨isRelative_iff.mpr (.inr ⟨fragment, String.toList_ofList⟩),
        cut _ (Text.afterPrefix?_eq_some_iff.mp hr)⟩
    case h_3 => cases h
  · rintro ⟨relative, rfl⟩
    have follows : Text.afterPrefix? base.toList (base ++ reference).toList =
        some reference.toList := Text.afterPrefix?_eq_some_iff.mpr String.toList_append
    rw [follows]
    rcases isRelative_iff.mp relative with rfl | ⟨rest, hrest⟩
    · rfl
    · rw [hrest]
      exact congrArg some (String.toList_injective (by rw [String.toList_ofList, hrest]))

theorem isRelative_append {uri : String} (absolute : isRelative uri = false) (i : String) :
    isRelative (uri ++ i) = false := by
  unfold isRelative at absolute ⊢
  cases h : uri.toList with
  | nil => simp [h] at absolute
  | cons c rest => simpa [h] using absolute

section Own

variable {id uri : String}

/-- **An IRI that is shortened and resolved is the one that is stored.** -/
theorem receivedIri_eq (plain : '#' ∉ id.toList) (absolute : isRelative uri = false) (i : String) :
    receivedIri (resolveIri uri) (relativeTo id) i =
      resolveIri uri (UriMap.remapIri (Table.empty.insert id uri) i) := by
  unfold receivedIri UriMap.remapIri
  cases h : relativeTo id i with
  | some reference =>
    obtain ⟨relative, rfl⟩ := relativeTo_eq_some_iff.mp h
    rw [splitFragment_append_relative plain relative]
    simp only [Option.getD_some, Table.get?_insert_self]
    rw [resolveIri, if_pos relative, resolveIri, isRelative_append absolute,
      if_neg Bool.false_ne_true]
  | none =>
    have other : (splitFragment i).1 ≠ id := by
      intro own
      have split : i = id ++ (splitFragment i).2 := by rw [← own, splitFragment_append]
      rw [relativeTo_eq_some_iff.mpr ⟨isRelative_fragment i, split⟩] at h
      cases h
    simp only [Option.getD_none, Table.get?_insert, if_neg other, Table.get?_empty]

/-- A term as it is stored at a URI. -/
def Term.ingest (id uri : String) (t : Term) : Term :=
  (t.skolemize.remap (Table.empty.insert id uri)).resolve uri

/-- A term that is uploaded is the term that is stored, up to its datatype. -/
theorem mapIri_receivedIri (plain : '#' ∉ id.toList) (absolute : isRelative uri = false) (t : Term) :
    t.skolemize.mapIri (receivedIri (resolveIri uri) (relativeTo id)) = t.ingest id uri := by
  cases t with
  | iri i => exact congrArg Term.iri (receivedIri_eq plain absolute i)
  | blank label => exact congrArg Term.iri (receivedIri_eq plain absolute (skolemFragment label))
  | literal text datatype language => rfl

/-- **A triple that is uploaded is the triple that is stored**, up to its predicate and datatypes. -/
theorem received_skolemize (plain : '#' ∉ id.toList) (absolute : isRelative uri = false)
    (t : Triple) :
    (t.mapTerms Term.skolemize).received (resolveIri uri) (relativeTo id) =
      (t.mapTerms (Term.ingest id uri)).asWritten.mapNames (resolveIri uri) := by
  unfold Triple.received Triple.mapTerms
  simp only [mapIri_receivedIri plain absolute]

end Own

/-! ## What can be uploaded -/

theorem shortens_relativeTo (base : String) : Shortens (relativeTo base) := by
  intro i c hc
  cases h : relativeTo base i with
  | none => simpa [h] using hc
  | some reference =>
    obtain ⟨-, rfl⟩ := relativeTo_eq_some_iff.mp h
    rw [h, Option.getD_some] at hc
    simp [hc]

/-- A skolem fragment can stand between angle brackets. -/
theorem checkIri_skolemFragment (label : String) : checkIri (skolemFragment label) = .ok () := by
  have digit : ∀ n < 16, isIllegalInIri (Nat.digitChar n) = false := by decide
  refine checkIri_eq_ok_iff.mpr fun c hc => ?_
  simp only [skolemFragment, Text.toHex, String.toList_append, String.toList_ofList,
    List.mem_append, List.mem_flatMap, List.mem_cons, List.not_mem_nil, or_false] at hc
  rcases hc with hc | ⟨b, -, rfl | rfl⟩
  · revert c
    decide
  · exact digit _ (Nat.div_lt_of_lt_mul b.toNat_lt)
  · exact digit _ (Nat.mod_lt _ (by decide))

theorem Term.isWritable_skolemize {t : Term} (h : t.IsWritable) : t.skolemize.IsWritable := by
  cases t with
  | iri i => exact h
  | blank label => exact ⟨checkIri_skolemFragment label, trivial⟩
  | literal text datatype language => exact h

theorem Term.hasPlainLabel_skolemize (t : Term) : t.skolemize.HasPlainLabel := by
  cases t <;> exact trivial

theorem Graph.isWritable_skolemize {g : Graph} (h : ∀ t ∈ g, t.IsWritable) :
    ∀ t ∈ g.skolemize, t.IsWritable := by
  intro t ht
  obtain ⟨u, hu, rfl⟩ := Graph.mem_map.mp ht
  exact ⟨Term.isWritable_skolemize (h u hu).subject, (h u hu).predicate,
    Term.isWritable_skolemize (h u hu).object⟩

theorem Graph.hasPlainLabels_skolemize (g : Graph) : ∀ t ∈ g.skolemize, t.HasPlainLabels := by
  intro t ht
  obtain ⟨u, hu, rfl⟩ := Graph.mem_map.mp ht
  exact ⟨Term.hasPlainLabel_skolemize u.subject, Term.hasPlainLabel_skolemize u.object⟩

/-! ## Both repositories -/

/-- No predicate and no datatype is a relative reference. -/
def Triple.NamesWhole (t : Triple) : Prop :=
  isRelative t.predicate = false ∧
    ∀ d, t.subject.datatype? = some d ∨ t.object.datatype? = some d → isRelative d = false

instance (t : Triple) : Decidable t.NamesWhole :=
  decidable_of_iff (isRelative t.predicate = false ∧
      (∀ d ∈ t.subject.datatype?, isRelative d = false) ∧
      ∀ d ∈ t.object.datatype?, isRelative d = false)
    (and_congr_right fun _ =>
      ⟨fun ⟨subject, object⟩ d hd => hd.elim (subject d) (object d),
        fun whole => ⟨fun d hd => whole d (.inl hd), fun d hd => whole d (.inr hd)⟩⟩)

/-- Resolving predicates and datatypes changes a triple only where one is relative. -/
theorem mapNames_ingest {id uri : String} {t : Triple} (whole : t.NamesWhole) :
    (t.mapTerms (Term.ingest id uri)).asWritten.mapNames (resolveIri uri) =
      (t.mapTerms (Term.ingest id uri)).asWritten := by
  have same (u : Term) (hu : ∀ d, u.datatype? = some d → isRelative d = false) :
      (u.ingest id uri).asWritten.mapDatatype (resolveIri uri) = (u.ingest id uri).asWritten := by
    cases u with
    | iri i => rfl
    | blank label => rfl
    | literal text datatype language =>
      have written : (writtenDatatype datatype language).map (resolveIri uri) =
          writtenDatatype datatype language := by
        cases h : writtenDatatype datatype language with
        | none => rfl
        | some d =>
          have hd : datatype = some d := by
            cases language with
            | some l => cases h
            | none => exact (Option.filter_eq_some_iff.mp h).1
          simp [resolveIri, hu d hd]
      exact congrArg (Term.literal text · language) written
  have subject := same t.subject fun d hd => whole.2 d (.inl hd)
  have object := same t.object fun d hd => whole.2 d (.inr hd)
  have predicate : resolveIri uri t.predicate = t.predicate := by simp [resolveIri, whole.1]
  simp only [Triple.mapNames, Triple.asWritten, Triple.mapTerms, subject, object, predicate]

theorem Graph.map_map (f h : Triple → Triple) (g : Graph) :
    (g.map f).map h = g.map fun t => h (f t) :=
  Graph.ext fun t => by simp only [mem_map]; grind

theorem Graph.map_congr {f h : Triple → Triple} {g : Graph} (same : ∀ t ∈ g, f t = h t) :
    g.map f = g.map h :=
  congrArg Graph.ofList (List.map_congr_left same)

/-- What is stored is the graph with every term ingested. -/
theorem ingest_eq (id uri : String) (g : Graph) :
    Transaction.ingest id uri g = g.mapTerms (Term.ingest id uri) := by
  unfold Transaction.ingest Graph.resolve Graph.remap Graph.skolemize
  rw [Graph.mapTerms_mapTerms, Graph.mapTerms_mapTerms]
  rfl

/-- **Both sessions upload one graph.** The text that a session sends to a server, read back by the
server that resolves every relative reference against the URI of the resource, is the graph that a
session in memory stores there, with its predicates and datatypes resolved; where none of these is
relative, it is that graph itself. -/
theorem upload_reads_back {id uri : String} {g : Graph} (plain : '#' ∉ id.toList)
    (absolute : isRelative uri = false) (writable : ∀ t ∈ g, t.IsWritable) :
    ∃ text statements, Ldp.turtleBody id g = Text.toUtf8 text ∧
      Grammar.plain.statements? (resolveIri uri) text = some statements ∧
      Graph.ofList statements = ((Transaction.ingest id uri g).map Triple.asWritten).map
        (Triple.mapNames (resolveIri uri)) ∧
      ((∀ t ∈ g, t.NamesWhole) →
        Graph.ofList statements = (Transaction.ingest id uri g).map Triple.asWritten) := by
  have written := Graph.isWritable_skolemize writable
  have read := Grammar.statements?_write (resolveIri uri) (shortens_relativeTo id)
    (fun t ht => (written t ht).legal) fun t ht =>
      Triple.isKnown_plain (written t ht) (g.hasPlainLabels_skolemize t ht)
  have received : g.skolemize.map (Triple.received (resolveIri uri) (relativeTo id)) =
      ((Transaction.ingest id uri g).map Triple.asWritten).map
        (Triple.mapNames (resolveIri uri)) := by
    simp only [ingest_eq, Graph.skolemize, Graph.mapTerms, Graph.map_map,
      received_skolemize plain absolute]
  refine ⟨_, _, rfl, read, received, fun whole => received.trans ?_⟩
  simp only [ingest_eq, Graph.mapTerms, Graph.map_map]
  exact Graph.map_congr fun t ht => mapNames_ingest (whole t ht)

/-- A node that links to itself, to a fragment of itself, to a node whose id begins with its own id,
and to a blank node. -/
def noteGraph : Graph := Graph.ofList
  [⟨.iri "note", "http://purl.org/dc/terms/relation", .iri "note#part"⟩,
   ⟨.iri "#part", "http://purl.org/dc/terms/isPartOf", .iri "notebook"⟩,
   ⟨.iri "note", "http://purl.org/dc/terms/creator", .blank "b1"⟩,
   ⟨.blank "b1", "http://xmlns.com/foaf/0.1/name",
    .literal "Ada \"Countess\"" (some Vocabulary.xsdString) (some "en-GB")⟩]

theorem upload_reads_back_noteGraph :
    ∃ text statements, Ldp.turtleBody "note" noteGraph = Text.toUtf8 text ∧
      Grammar.plain.statements? (resolveIri "http://h/rest/1") text = some statements ∧
      Graph.ofList statements =
        ((Transaction.ingest "note" "http://h/rest/1" noteGraph).map Triple.asWritten).map
          (Triple.mapNames (resolveIri "http://h/rest/1")) ∧
      Graph.ofList statements =
        (Transaction.ingest "note" "http://h/rest/1" noteGraph).map Triple.asWritten := by
  obtain ⟨text, statements, body, read, resolved, whole⟩ :=
    @upload_reads_back "note" "http://h/rest/1" noteGraph (by decide) (by decide)
      (by decide +kernel)
  exact ⟨text, statements, body, read, resolved, whole (by decide +kernel)⟩

/-- A predicate that is a fragment. -/
def fragmentPredicate : Graph := Graph.ofList [⟨.iri "note", "#p", .plain "v"⟩]

/-- **A relative predicate parts the repositories**: the server resolves it, the ingest does not. -/
theorem relative_predicate_parts :
    '#' ∉ "note".toList ∧ isRelative "http://h/rest/1" = false ∧
    (∀ t ∈ fragmentPredicate, t.IsWritable) ∧
    ¬ ∃ text statements, Ldp.turtleBody "note" fragmentPredicate = Text.toUtf8 text ∧
      Grammar.plain.statements? (resolveIri "http://h/rest/1") text = some statements ∧
      Graph.ofList statements =
        (Transaction.ingest "note" "http://h/rest/1" fragmentPredicate).map Triple.asWritten := by
  refine ⟨by decide, by decide, by decide +kernel, ?_⟩
  rintro ⟨text, statements, body, read, same⟩
  have sent : Ldp.turtleBody "note" fragmentPredicate = Text.toUtf8 "<> <#p> \"v\" .\n" := by
    decide +kernel
  obtain rfl := Text.toUtf8_injective (sent.symm.trans body)
  have resolved : Grammar.plain.statements? (resolveIri "http://h/rest/1") "<> <#p> \"v\" .\n" =
      some [⟨.iri "http://h/rest/1", "http://h/rest/1#p", .plain "v"⟩] := by decide +kernel
  obtain rfl := Option.some.inj (resolved.symm.trans read)
  revert same
  decide +kernel

end LinkedDeposit
