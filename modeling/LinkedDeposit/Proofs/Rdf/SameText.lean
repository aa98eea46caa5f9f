import LinkedDeposit.Proofs.Rdf.Reading

/-!
# Graphs of one text

The N-Triples text of a graph tells its statements, in their order, up to a datatype next to a
language and the datatype `xsd:string` (`Graph.told`). Literals are arbitrary texts and may stand in
any position: no quote, bracket or line end inside one is taken for one of the text.

Results:
* `count_newline_toNTriples`: the text has a line end for each triple, and no other.
* `write_congr`: a text is made of what is told, so graphs that tell the same have one text.
* `toNTriples_tells`: the statements are read back, so graphs of one text tell the same.
-/

namespace LinkedDeposit

/-- The statements of a graph as its text tells them, in their order. -/
def Graph.told (g : Graph) : List Triple := g.toList.map Triple.asWritten

/-- The IRIs of a graph can stand between angle brackets, and its labels and languages have no
blank. Nothing is asked of the text of a literal. -/
structure Graph.IsWritable (g : Graph) : Prop where
  writable : ∀ t ∈ g, t.IsWritable
  plain : ∀ t ∈ g, t.HasPlainLabels

instance (g : Graph) : Decidable g.IsWritable :=
  decidable_of_iff ((∀ t ∈ g.toList, t.IsWritable) ∧ ∀ t ∈ g.toList, t.HasPlainLabels)
    ⟨fun ⟨writable, plain⟩ => ⟨writable, plain⟩, fun ⟨writable, plain⟩ => ⟨writable, plain⟩⟩

/-! ## What is not told -/

section Congr

variable (shorten : String → Option String)

theorem literalSuffix_writtenDatatype (datatype language : Option String) :
    literalSuffix (writtenDatatype datatype language) language =
      literalSuffix datatype language := by
  cases language with
  | some l => rfl
  | none =>
    cases datatype with
    | none => rfl
    | some d =>
      by_cases h : d = Vocabulary.xsdString
      · subst h
        rfl
      · simp [writtenDatatype, Option.filter, h]

theorem Term.write_asWritten (t : Term) : t.asWritten.write shorten = t.write shorten := by
  cases t with
  | iri i => rfl
  | blank label => rfl
  | literal text datatype language =>
    simp only [Term.asWritten, Term.write, literalSuffix_writtenDatatype]

theorem Triple.writeLine_asWritten (t : Triple) :
    t.asWritten.writeLine shorten = t.writeLine shorten := by
  simp only [Triple.writeLine, Triple.statement, Triple.asWritten, Triple.mapTerms,
    Term.write_asWritten]

/-- **A text is made of what is told.** -/
theorem Graph.write_congr {g h : Graph} (same : g.told = h.told) :
    g.write shorten = h.write shorten := by
  have lines (g : Graph) :
      g.toList.map (Triple.writeLine shorten) = g.told.map (Triple.writeLine shorten) := by
    rw [Graph.told, List.map_map]
    exact List.map_congr_left fun t _ => (t.writeLine_asWritten shorten).symm
  rw [Graph.write, Graph.write, lines g, lines h, same]

end Congr

/-! ## What is told -/

/-- The plain grammar knows the labels and languages of such a graph. -/
theorem Graph.IsWritable.isKnown {g : Graph} (h : g.IsWritable) {t : Triple} (ht : t ∈ g) :
    t.IsKnown .plain :=
  Triple.isKnown_plain (h.writable t ht) (h.plain t ht)

/-- A line ends at its last character. -/
theorem count_newline_writeLine {t : Triple} (writable : t.IsWritable) (plain : t.HasPlainLabels) :
    (t.writeLine fun _ => none).toList.count '\n' = 1 := by
  have free : '\n' ∉ (t.statement fun _ => none).toList := fun h =>
    absurd (Grammar.not_endsLine_of_statement shortens_whole writable.legal
      (Triple.isKnown_plain writable plain) h) (by decide)
  rw [Triple.writeLine, String.toList_append, List.count_append, List.count_eq_zero.mpr free]
  rfl

/-- **There is one line end for each triple.** -/
theorem Graph.count_newline_toNTriples {g : Graph} (writable : g.IsWritable) :
    g.toNTriples.toList.count '\n' = g.size := by
  have each : ∀ t ∈ g.toList, (t.writeLine fun _ => none).toList.count '\n' = 1 := fun t ht =>
    count_newline_writeLine (writable.writable t ht) (writable.plain t ht)
  have counted : g.toNTriples.toList.count '\n' =
      (g.toList.map fun t => (t.writeLine fun _ => none).toList.count '\n').sum := by
    simp [Graph.toNTriples, Graph.write, List.flatMap_def, List.count_flatten, Function.comp_def]
  rw [counted, List.map_congr_left each, List.map_const', List.sum_replicate_nat, Nat.mul_one]
  rfl

/-- **A written graph tells its statements**, and only those. -/
theorem Graph.statements?_toNTriples {g : Graph} (writable : g.IsWritable) :
    Grammar.plain.statements? id g.toNTriples = some g.told := by
  have read := Grammar.statements?_write id shortens_whole
    (fun t ht => (writable.writable t ht).legal) fun t ht => writable.isKnown ht
  rw [Graph.toNTriples, read]
  exact congrArg some (List.map_congr_left fun t _ => t.received_whole)

/-- **The N-Triples text determines what a graph tells**: it has one line for each triple, a reader
recovers the statements from it, and two graphs have one text exactly when they tell the same
statements in the same order. -/
theorem toNTriples_tells {g h : Graph} (hg : g.IsWritable) (hh : h.IsWritable) :
    g.toNTriples.toList.count '\n' = g.size ∧
      Grammar.plain.statements? id g.toNTriples = some g.told ∧
      (g.toNTriples = h.toNTriples ↔ g.told = h.told) := by
  refine ⟨Graph.count_newline_toNTriples hg, Graph.statements?_toNTriples hg, ?_, ?_⟩
  · intro same
    have read := Graph.statements?_toNTriples hg
    rw [same, Graph.statements?_toNTriples hh] at read
    exact (Option.some.inj read).symm
  · exact Graph.write_congr _

/-- A literal as a subject that looks like a statement, one with a datatype next to its language,
and one of the datatype that is not told. -/
def quotingGraph : Graph := Graph.ofList
  [⟨.plain "a\" <urn:p> \"b\" .\n\\", "urn:says", .literal "c" (some "urn:d") (some "en-GB")⟩,
   ⟨.blank "b1", "urn:says", .typed "^^<urn:d>@en" Vocabulary.xsdString⟩]

/-- The same statements without what is not told. -/
def toldGraph : Graph := Graph.ofList
  [⟨.plain "a\" <urn:p> \"b\" .\n\\", "urn:says", .inLanguage "c" "en-GB"⟩,
   ⟨.blank "b1", "urn:says", .plain "^^<urn:d>@en"⟩]

theorem toNTriples_tells_quotingGraph :
    quotingGraph.toNTriples.toList.count '\n' = quotingGraph.size ∧
      Grammar.plain.statements? id quotingGraph.toNTriples = some quotingGraph.told ∧
      (quotingGraph.toNTriples = toldGraph.toNTriples ↔ quotingGraph.told = toldGraph.told) :=
  toNTriples_tells (by decide +kernel) (by decide +kernel)

end LinkedDeposit
