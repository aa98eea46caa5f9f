import LinkedDeposit.Proofs.Rdf.Reading

/-!
# The grammar of N-Triples

The tokens of N-Triples as a grammar for the reader. A blank label ends where its characters end and
gives back the dots behind it, and a language is a word of letters and digits joined by hyphens.

The labels meant are those of Turtle, SPARQL and N-Triples alike, since a graph is sent in each of
them: they have no colon, which N-Triples alone has admitted in its first version.

A graph is read back from its text exactly when each of its labels and languages is a token of the
grammar (`readsBack_iff`), provided that its IRIs can be written. One that is no token can end early,
and what follows in it is read as more text.

Results:
* `knows_label`, `knows_language`: the tokens of the grammar are read up to the space behind them.
* `triple?_spellable`: the reader knows only labels and languages of the grammar.
* `readsBack_iff`: which graphs are read back, line by line.
-/

namespace LinkedDeposit

open Reading

namespace NTriples

/-! ## Characters and tokens -/

/-- The letters of names. -/
def isLetter (c : Char) : Bool :=
  let n := c.toNat
  c.isAlpha || (0xC0 ≤ n && n ≤ 0xD6) || (0xD8 ≤ n && n ≤ 0xF6) || (0xF8 ≤ n && n ≤ 0x2FF) ||
    (0x370 ≤ n && n ≤ 0x37D) || (0x37F ≤ n && n ≤ 0x1FFF) || n = 0x200C || n = 0x200D ||
    (0x2070 ≤ n && n ≤ 0x218F) || (0x2C00 ≤ n && n ≤ 0x2FEF) || (0x3001 ≤ n && n ≤ 0xD7FF) ||
    (0xF900 ≤ n && n ≤ 0xFDCF) || (0xFDF0 ≤ n && n ≤ 0xFFFD) || (0x10000 ≤ n && n ≤ 0xEFFFF)

/-- The characters that a label begins with, in every grammar that a graph is sent in. -/
def isLabelStart (c : Char) : Bool := isLetter c || c = '_' || c.isDigit

/-- The characters of labels; a dot may not be the last of them. -/
def isLabelChar (c : Char) : Bool :=
  let n := c.toNat
  isLabelStart c || c = '-' || n = 0xB7 || (0x300 ≤ n && n ≤ 0x36F) || n = 0x203F || n = 0x2040 ||
    c = '.'

/-- The labels of the grammar. -/
structure IsLabel (s : List Char) : Prop where
  start : s.head?.any isLabelStart = true
  all : ∀ c ∈ s, isLabelChar c = true
  last : s.getLast? ≠ some '.'

instance (s : List Char) : Decidable (IsLabel s) :=
  decidable_of_iff (s.head?.any isLabelStart = true ∧ (∀ c ∈ s, isLabelChar c = true) ∧
      s.getLast? ≠ some '.')
    ⟨fun ⟨start, all, last⟩ => ⟨start, all, last⟩, fun ⟨start, all, last⟩ => ⟨start, all, last⟩⟩

/-- The characters of languages. -/
def isLanguageChar (c : Char) : Bool := c.isAlphanum || c = '-'

/-- The languages of the grammar: letters, then parts of letters and digits behind hyphens. -/
def IsLanguage (s : List Char) : Prop :=
  (∀ c ∈ s, isLanguageChar c = true) ∧
    ((Text.splitAt (· = '-') s).head?.any (·.all Char.isAlpha)) = true ∧
    ∀ part ∈ Text.splitAt (· = '-') s, part ≠ []

instance (s : List Char) : Decidable (IsLanguage s) := by
  unfold IsLanguage
  infer_instance

/-- A label, as far as its characters go, without the dots behind it. -/
def label? (s : List Char) : Option (String × List Char) :=
  let label := Text.trimRight (· = '.') (s.takeWhile isLabelChar)
  if label.head?.any isLabelStart then some (String.ofList label, s.drop label.length) else none

/-- A language, as far as its characters go. -/
def language? (s : List Char) : Option (String × List Char) :=
  let language := s.takeWhile isLanguageChar
  if IsLanguage language then some (String.ofList language, s.dropWhile isLanguageChar) else none

/-- The tokens of N-Triples, with space of a kind between them. -/
def tokens (isSpace : Char → Bool) (space : isSpace ' ' = true)
    (signs : ∀ c ∈ ['<', '_', '"', '@', '^', '.'], isSpace c = false) : Grammar where
  isSpace := isSpace
  label? := label?
  language? := language?
  aboutLiterals := false
  space := space
  signs := signs

/-- The grammar of N-Triples, a statement a line. -/
def grammar : Grammar := tokens (fun c => c = ' ' || c = '\t') (by decide) (by decide)

/-- The grammar of the statements in an update, which may go on over lines. -/
def inUpdates : Grammar :=
  tokens (fun c => c = ' ' || c = '\t' || endsLine c) (by decide) (by decide)

end NTriples

/-! ## What can be read back -/

/-- The label or language of a term is one of the grammar. -/
def Term.IsSpellable : Term → Prop
  | .iri _ => True
  | .blank label => NTriples.IsLabel label.toList
  | .literal _ _ language => ∀ l ∈ language, NTriples.IsLanguage l.toList

namespace Triple

/-- The labels and languages of a triple are those of the grammar. -/
structure IsSpellable (t : Triple) : Prop where
  subject : t.subject.IsSpellable
  object : t.object.IsSpellable

/-- A triple as its text tells it, where IRIs are shortened. -/
def asShortened (shorten : String → Option String) (t : Triple) : Triple :=
  (t.mapTerms (Term.mapIri fun i => (shorten i).getD i)).asWritten

/-- It is what a receiver makes of it that resolves nothing. -/
theorem received_id (shorten : String → Option String) (t : Triple) :
    t.received id shorten = t.asShortened shorten := by
  simp only [received, mapNames, Term.mapDatatype_id, id]
  rfl

end Triple

/-- A graph is read back from its text: each triple has a line, and from each line that triple is
read, as the text tells it. -/
structure Graph.ReadsBack (shorten : String → Option String) (g : Graph) : Prop where
  lines : NTriples.grammar.lines (g.write shorten).toList =
    g.toList.map fun t => (t.statement shorten).toList
  statements : NTriples.grammar.statements? id (g.write shorten) =
    some (g.toList.map (Triple.asShortened shorten))

namespace NTriples

/-! ## Tokens are read back -/

/-- A label ends at a space. -/
theorem label?_append {l : List Char} (h : IsLabel l) (rest : List Char) :
    label? (l ++ ' ' :: rest) = some (String.ofList l, ' ' :: rest) := by
  have run : (l ++ ' ' :: rest).takeWhile isLabelChar = l := by
    rw [List.takeWhile_append_of_pos h.all, List.takeWhile_cons_of_neg (by decide),
      List.append_nil]
  have noDots : Text.trimRight (· = '.') l = l := by
    have stays : l.reverse.dropWhile (· = '.') = l.reverse := by
      cases hl : l.reverse with
      | nil => rfl
      | cons c s =>
        have last : c ≠ '.' := fun dot => h.last (by rw [← List.head?_reverse, hl, dot]; rfl)
        exact List.dropWhile_cons_of_neg (by simpa using last)
    rw [Text.trimRight, stays, List.reverse_reverse]
  simp only [label?, run, noDots, h.start, if_true, List.drop_left]

/-- A label that is read is one of the grammar. -/
theorem isLabel_of_label? {s rest : List Char} {l : String} (h : label? s = some (l, rest)) :
    IsLabel l.toList := by
  unfold label? at h
  dsimp only at h
  split at h
  case isFalse => cases h
  case isTrue start =>
    obtain ⟨rfl, -⟩ := Prod.mk.inj (Option.some.inj h)
    rw [String.toList_ofList]
    refine ⟨start, fun c hc => ?_, fun last => ?_⟩
    · have inside : c ∈ s.takeWhile isLabelChar :=
        List.mem_reverse.mp ((List.dropWhile_sublist _).subset (List.mem_reverse.mp hc))
      exact List.all_eq_true.mp List.all_takeWhile c inside
    · rw [Text.trimRight, List.getLast?_reverse] at last
      have := List.head?_dropWhile_not (fun c => decide (c = '.'))
        (s.takeWhile isLabelChar).reverse
      rw [last] at this
      simp at this

/-- A language ends at a space. -/
theorem language?_append {l : List Char} (h : IsLanguage l) (rest : List Char) :
    language? (l ++ ' ' :: rest) = some (String.ofList l, ' ' :: rest) := by
  have all := h.1
  have run : (l ++ ' ' :: rest).takeWhile isLanguageChar = l := by
    rw [List.takeWhile_append_of_pos all, List.takeWhile_cons_of_neg (by decide), List.append_nil]
  have after : (l ++ ' ' :: rest).dropWhile isLanguageChar = ' ' :: rest := by
    rw [List.dropWhile_append_of_pos all, List.dropWhile_cons_of_neg (by decide)]
  simp only [language?, run, after, if_pos h]

/-- A language that is read is one of the grammar. -/
theorem isLanguage_of_language? {s rest : List Char} {l : String}
    (h : language? s = some (l, rest)) : IsLanguage l.toList := by
  unfold language? at h
  dsimp only at h
  split at h
  case isFalse => cases h
  case isTrue language =>
    obtain ⟨rfl, -⟩ := Prod.mk.inj (Option.some.inj h)
    rwa [String.toList_ofList]

/-- The labels of the grammar are read up to the space behind them. -/
theorem knows_label {l : String} (h : IsLabel l.toList) : Grammar.Knows label? l where
  reads rest := by rw [label?_append h, String.ofList_toList]
  line c hc := endsLine_eq_false _ (by decide) (by decide) (h.all c hc)

/-- So are its languages. -/
theorem knows_language {l : String} (h : IsLanguage l.toList) : Grammar.Knows language? l where
  reads rest := by rw [language?_append h, String.ofList_toList]
  line c hc := endsLine_eq_false _ (by decide) (by decide) (h.1 c hc)

section Tokens

variable {isSpace : Char → Bool} {space : isSpace ' ' = true}
  {signs : ∀ c ∈ ['<', '_', '"', '@', '^', '.'], isSpace c = false}

theorem isKnown_of_isSpellable {t : Term} (spellable : t.IsSpellable) :
    t.IsKnown (tokens isSpace space signs) := by
  cases t with
  | iri => trivial
  | blank => exact knows_label spellable
  | literal => exact fun l hl => knows_language (spellable l hl)

/-- **The grammar knows its labels and languages**, about what is no literal. -/
theorem triple_isKnown {t : Triple} (resource : t.subject.IsResource) (spellable : t.IsSpellable) :
    t.IsKnown (tokens isSpace space signs) :=
  ⟨.inr resource, isKnown_of_isSpellable spellable.subject,
    isKnown_of_isSpellable spellable.object⟩

/-! ## What is read is of the grammar -/

variable {resolve : String → String}

theorem suffix?_spellable {s rest : List Char} {datatype language : Option String}
    (h : (tokens isSpace space signs).suffix? resolve s = some ((datatype, language), rest)) :
    ∀ l ∈ language, IsLanguage l.toList := by
  rintro l rfl
  unfold Grammar.suffix? at h
  split at h
  · obtain ⟨p, read, same⟩ := Option.map_eq_some_iff.mp h
    cases same
    exact isLanguage_of_language? read
  · split at h
    · obtain ⟨p, -, same⟩ := Option.map_eq_some_iff.mp h
      cases same
    · cases h
  · cases h

theorem term?_spellable {s rest : List Char} {t : Term}
    (h : (tokens isSpace space signs).term? resolve s = some (t, rest)) : t.IsSpellable := by
  unfold Grammar.term? at h
  split at h
  · obtain ⟨p, -, same⟩ := Option.map_eq_some_iff.mp h
    obtain ⟨rfl, -⟩ := Prod.mk.inj same
    trivial
  · obtain ⟨p, label, same⟩ := Option.map_eq_some_iff.mp h
    obtain ⟨rfl, -⟩ := Prod.mk.inj same
    exact isLabel_of_label? label
  · simp only [Option.bind_eq_bind, Option.bind_eq_some_iff] at h
    obtain ⟨⟨text, afterText⟩, -, ⟨⟨datatype, language⟩, afterSuffix⟩, suffix, same⟩ := h
    cases same
    exact suffix?_spellable suffix
  · cases h

/-- **The reader knows only labels and languages of the grammar.** -/
theorem triple?_spellable {s rest : List Char} {t : Triple}
    (h : (tokens isSpace space signs).triple? resolve s = some (t, rest)) : t.IsSpellable := by
  unfold Grammar.triple? at h
  simp only [Option.bind_eq_bind, Option.bind_eq_some_iff] at h
  obtain ⟨⟨subject, _⟩, readSubject, _, -, ⟨predicate, _⟩, -, ⟨object, _⟩, readObject, _, -, h⟩ := h
  split at h
  · cases h
    exact ⟨term?_spellable readSubject, term?_spellable readObject⟩
  · cases h

theorem statement?_spellable {line : List Char} {t : Triple}
    (h : (tokens isSpace space signs).statement? resolve line = some t) : t.IsSpellable := by
  simp only [Grammar.statement?, Option.bind_eq_bind, Option.bind_eq_some_iff] at h
  obtain ⟨⟨u, rest⟩, read, h⟩ := h
  split at h
  · cases h
    exact triple?_spellable read
  · cases h

end Tokens

/-- A datatype that is not written changes neither a label nor a language. -/
theorem isSpellable_asWritten_iff {t : Term} : t.asWritten.IsSpellable ↔ t.IsSpellable := by
  cases t <;> exact Iff.rfl

/-- Neither does a shorter reference. -/
theorem isSpellable_of_asShortened {shorten : String → Option String} {t : Triple}
    (h : (t.asShortened shorten).IsSpellable) : t.IsSpellable := by
  have term {u : Term} (h : (u.mapIri fun i => (shorten i).getD i).asWritten.IsSpellable) :
      u.IsSpellable := by
    cases u <;> exact h
  exact ⟨term h.subject, term h.object⟩

/-- **Which graphs are read back**: those whose labels and languages are those of the grammar. -/
theorem readsBack_iff {shorten : String → Option String} (shortens : Shortens shorten) {g : Graph}
    (legal : ∀ t ∈ g, t.IsLegal) (resource : ∀ t ∈ g, t.subject.IsResource) :
    g.ReadsBack shorten ↔ ∀ t ∈ g, t.IsSpellable := by
  constructor
  · intro back t ht
    have read : t.asShortened shorten ∈ g.toList.map (Triple.asShortened shorten) :=
      List.mem_map_of_mem ht
    obtain ⟨line, -, h⟩ := Text.exists_of_mem_mapM back.statements read
    exact isSpellable_of_asShortened (statement?_spellable h)
  · intro spellable
    have known : ∀ t ∈ g, t.IsKnown grammar := fun t ht =>
      triple_isKnown (resource t ht) (spellable t ht)
    refine ⟨Grammar.lines_write shortens legal known, ?_⟩
    rw [Grammar.statements?_write id shortens legal known]
    exact congrArg some (List.map_congr_left fun t _ => t.received_id shorten)

end NTriples

end LinkedDeposit
