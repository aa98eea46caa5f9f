import LinkedDeposit.Proofs.Rdf.NTriples
import LinkedDeposit.Proofs.Rdf.SameText
import LinkedDeposit.Rdf.Patch

/-!
# Updates as a server reads them

A patch has two meanings: it changes a graph in place (`Patch.applyTo`), and its text is an update
that a server runs. A reader of updates takes operations apart at semicolons, each a block of
statements between braces; blanks may stand between any two tokens, and the statements are those of
a grammar. What it reads is run operation by operation and statement by statement. Both meanings are
the same, whatever stands in a literal.

Results:
* `block?_write`, `operation?_text`, `update?_text`: what is written is read back.
* `runAll_operations`: the operations of a patch change a graph as the patch does.
* `toSparql_means`: the text of a patch is read as its operations.
* `NTriples.update?_iff`: which patches are read back whose languages must be those of the grammar.
-/

namespace LinkedDeposit

namespace Reading

/-! ## The reader -/

/-- What an operation does with its statements. -/
inductive Verb where
  | delete
  | insert
  deriving DecidableEq

/-- Deletes or inserts the statements of a block. -/
structure Operation where
  verb : Verb
  triples : List Triple
  deriving DecidableEq

/-- The keyword of an operation. -/
def Verb.keyword : Verb → String
  | .delete => "DELETE"
  | .insert => "INSERT"

/-- The operation that a keyword names. -/
def verb? (keyword : String) : Option Verb :=
  [Verb.delete, Verb.insert].find? (·.keyword = keyword)

/-- An operation as its text tells it. -/
def Operation.asWritten (o : Operation) : Operation := ⟨o.verb, o.triples.map Triple.asWritten⟩

/-- Skips blanks. -/
def skipBlanks (s : List Char) : List Char := s.dropWhile Text.isBlank

/-- The letters in front, and what follows them. -/
def keyword (s : List Char) : String × List Char :=
  (String.ofList (s.takeWhile Char.isAlpha), s.dropWhile Char.isAlpha)

end Reading

open Reading

namespace Grammar

variable (G : Grammar)

/-- Reads a statement of a block. Nothing is known about a blank node of another graph, so it can
stand in no block. -/
def groundTriple? (s : List Char) : Option (Triple × List Char) := do
  let (t, rest) ← G.triple? id s
  if t.subject.isBlank || t.object.isBlank then none else return (t, rest)

/-- Reads statements up to the closing brace. -/
def block? (s : List Char) : Option (List Triple × List Char) :=
  match Text.afterPrefix? ['\x7d'] (skipBlanks s) with
  | some rest => some ([], rest)
  | none =>
    match G.groundTriple? (skipBlanks s) with
    | none => none
    | some (t, rest) =>
      if rest.length < s.length then (block? rest).map fun (ts, rest) => (t :: ts, rest) else none
termination_by s.length

/-- Reads an operation. -/
def operation? (s : List Char) : Option (Operation × List Char) := do
  let (name, rest) := keyword s
  let verb ← verb? name
  let (data, rest) := keyword (skipBlanks rest)
  let rest ← Text.afterPrefix? ['\x7b'] (skipBlanks rest)
  let (triples, rest) ← G.block? rest
  if data = "DATA" then return (⟨verb, triples⟩, rest) else none

/-- Reads the operations of an update; a semicolon stands between them. -/
def update? (s : List Char) : Option (List Operation) :=
  if skipBlanks s = [] then some [] else
  match G.operation? (skipBlanks s) with
  | none => none
  | some (o, rest) =>
    match skipBlanks rest with
    | [] => some [o]
    | c :: rest =>
      if c = ';' ∧ rest.length < s.length then (update? rest).map (o :: ·) else none
termination_by s.length

end Grammar

namespace Reading

/-! ## Running what was read -/

/-- Deletes or inserts one statement after the other. -/
def Operation.run (o : Operation) (g : Graph) : Graph :=
  match o.verb with
  | .delete => o.triples.foldl Graph.erase g
  | .insert => o.triples.foldl Graph.insert g

/-- Runs operations in their order. -/
def runAll (os : List Operation) (g : Graph) : Graph := os.foldl (fun g o => o.run g) g

theorem mem_foldl_erase {ts : List Triple} {g : Graph} {t : Triple} :
    t ∈ ts.foldl Graph.erase g ↔ t ∈ g ∧ t ∉ ts := by
  induction ts generalizing g with
  | nil => simp
  | cons u ts ih =>
    simp only [List.foldl_cons, ih, Graph.mem_erase, List.mem_cons, not_or, and_assoc, ne_eq]

theorem mem_foldl_insert {ts : List Triple} {g : Graph} {t : Triple} :
    t ∈ ts.foldl Graph.insert g ↔ t ∈ g ∨ t ∈ ts := by
  induction ts generalizing g with
  | nil => simp
  | cons u ts ih =>
    simp only [List.foldl_cons, ih, Graph.mem_insert, List.mem_cons]
    grind

/-- Deleting the statements of a graph leaves the others. -/
theorem run_delete (g h : Graph) : Operation.run ⟨.delete, h.toList⟩ g = g.diff h := by
  refine Graph.ext fun t => ?_
  rw [Graph.mem_diff]
  exact mem_foldl_erase

/-- Inserting the statements of a graph adds them. -/
theorem run_insert (g h : Graph) : Operation.run ⟨.insert, h.toList⟩ g = g.union h := by
  refine Graph.ext fun t => ?_
  rw [Graph.mem_union]
  exact mem_foldl_insert

end Reading

/-- The operation on a graph's statements, absent when there are none. -/
def Graph.operation (g : Graph) (verb : Verb) : List Operation :=
  if g.isEmpty then [] else [⟨verb, g.toList⟩]

/-- The operations of a patch, deletions first. -/
def Patch.operations (p : Patch) : List Operation :=
  p.removed.operation .delete ++ p.added.operation .insert

theorem Graph.runAll_operation (g h : Graph) (verb : Verb) :
    runAll (h.operation verb) g = Operation.run ⟨verb, h.toList⟩ g := by
  unfold Graph.operation
  split
  · rename_i none
    have nothing : h.toList = [] := List.isEmpty_iff.mp none
    rw [nothing]
    cases verb <;> rfl
  · rfl

/-- **The operations of a patch change a graph as the patch does**, also where it adds what it
removes. -/
theorem Patch.runAll_operations (p : Patch) (g : Graph) : runAll p.operations g = p.applyTo g := by
  have split : runAll p.operations g =
      runAll (p.added.operation .insert) (runAll (p.removed.operation .delete) g) :=
    List.foldl_append
  rw [split, Graph.runAll_operation, Graph.runAll_operation, run_delete, run_insert]
  rfl

/-! ## What can be read back -/

/-- A triple without blank nodes. -/
def Triple.IsGround (t : Triple) : Prop := t.subject.isBlank = false ∧ t.object.isBlank = false

instance (t : Triple) : Decidable t.IsGround :=
  inferInstanceAs (Decidable (t.subject.isBlank = false ∧ t.object.isBlank = false))

/-- A statement can stand in a block: it has no blank node, its IRIs can be written, and the grammar
knows its languages. -/
structure Triple.StandsIn (G : Grammar) (t : Triple) : Prop where
  ground : t.IsGround
  legal : t.IsLegal
  known : t.IsKnown G

/-- A literal has no datatype next to a language and none that is not told. -/
def Term.IsTold : Term → Prop
  | .literal _ datatype language =>
    (datatype = none ∨ language = none) ∧ datatype ≠ some Vocabulary.xsdString
  | _ => True

instance (t : Term) : Decidable t.IsTold :=
  match t with
  | .iri _ => .isTrue trivial
  | .blank _ => .isTrue trivial
  | .literal _ datatype language => inferInstanceAs (Decidable
      ((datatype = none ∨ language = none) ∧ datatype ≠ some Vocabulary.xsdString))

/-- A statement can stand in a block: it has no blank node, it can be written, and its text tells
all of it. -/
structure Triple.IsData (t : Triple) : Prop where
  ground : t.IsGround
  writable : t.IsWritable
  told : t.subject.IsTold ∧ t.object.IsTold

instance (t : Triple) : Decidable t.IsData :=
  decidable_of_iff (t.IsGround ∧ t.IsWritable ∧ t.subject.IsTold ∧ t.object.IsTold)
    ⟨fun ⟨ground, writable, told⟩ => ⟨ground, writable, told⟩,
      fun ⟨ground, writable, told⟩ => ⟨ground, writable, told⟩⟩

/-- The statements of a graph can stand in a block. -/
def Graph.IsData (g : Graph) : Prop := ∀ t ∈ g.toList, t.IsData

instance (g : Graph) : Decidable g.IsData :=
  inferInstanceAs (Decidable (∀ t ∈ g.toList, t.IsData))

/-- A term that its text tells. -/
theorem Term.asWritten_of_isTold {t : Term} (told : t.IsTold) : t.asWritten = t := by
  cases t with
  | iri i => rfl
  | blank label => rfl
  | literal text datatype language =>
    obtain ⟨none | none, other⟩ := told <;> subst none
    · cases language <;> rfl
    · cases datatype with
      | none => rfl
      | some d =>
        have other : d ≠ Vocabulary.xsdString := fun h => other (congrArg some h)
        simp [Term.asWritten, writtenDatatype, Option.filter, other]

theorem Triple.IsData.asWritten_eq {t : Triple} (data : t.IsData) : t.asWritten = t := by
  rw [Triple.asWritten, Triple.mapTerms, Term.asWritten_of_isTold data.told.1,
    Term.asWritten_of_isTold data.told.2]

theorem Term.hasPlainLabel_of_ground {t : Term} (ground : t.isBlank = false) :
    t.HasPlainLabel := by
  cases t with
  | blank label => cases ground
  | _ => trivial

/-- Such a statement can stand in a block of the plain grammar. -/
theorem Triple.IsData.standsIn {t : Triple} (data : t.IsData) : t.StandsIn .plain :=
  ⟨data.ground, data.writable.legal, Triple.isKnown_plain data.writable
    ⟨Term.hasPlainLabel_of_ground data.ground.1, Term.hasPlainLabel_of_ground data.ground.2⟩⟩

/-- What is told of a term is blank if the term is. -/
theorem Term.isBlank_asWritten (t : Term) : t.asWritten.isBlank = t.isBlank := by cases t <;> rfl

namespace Grammar

variable {G : Grammar}

/-! ## Reading what was written -/

theorem skipBlanks_blank {c : Char} (blank : Text.isBlank c = true) (s : List Char) :
    skipBlanks (c :: s) = skipBlanks s :=
  List.dropWhile_cons_of_pos blank

theorem skipBlanks_plain {c : Char} (plain : Text.isBlank c = false) (s : List Char) :
    skipBlanks (c :: s) = c :: s :=
  List.dropWhile_cons_of_neg (by rw [plain]; decide)

/-- A statement begins with the sign of its subject. -/
theorem exists_statement (t : Triple) (rest : List Char) : ∃ c s,
    (t.statement fun _ => none).toList ++ rest = c :: s ∧ c ∈ ['<', '_', '"'] := by
  obtain ⟨c, s, text, sign⟩ := exists_write t.subject fun _ => none
  simp only [Triple.statement, String.toList_append, List.append_assoc, text, List.cons_append]
  exact ⟨c, _, rfl, sign⟩

theorem skipBlanks_statement (t : Triple) (rest : List Char) :
    skipBlanks ((t.statement fun _ => none).toList ++ rest) =
      (t.statement fun _ => none).toList ++ rest := by
  obtain ⟨c, s, text, sign⟩ := exists_statement t rest
  have plain : ∀ c ∈ ['<', '_', '"'], Text.isBlank c = false := by decide
  rw [text, skipBlanks_plain (plain c sign)]

/-- A block ends at its brace, which no statement begins with. -/
theorem afterPrefix?_statement (t : Triple) (rest : List Char) :
    Text.afterPrefix? ['\x7d'] ((t.statement fun _ => none).toList ++ rest) = none := by
  obtain ⟨c, s, text, sign⟩ := exists_statement t rest
  have other : ∀ c ∈ ['<', '_', '"'], '\x7d' ≠ c := by decide
  rw [text, Text.afterPrefix?, if_neg (other c sign)]

/-- **A written statement of a block is read back.** -/
theorem groundTriple?_statement {t : Triple} (stands : t.StandsIn G) (rest : List Char) :
    G.groundTriple? ((t.statement fun _ => none).toList ++ rest) = some (t.asWritten, rest) := by
  have read := triple?_statement id shortens_whole stands.legal stands.known rest
  have ground : (t.asWritten.subject.isBlank || t.asWritten.object.isBlank) = false := by
    change (t.subject.asWritten.isBlank || t.object.asWritten.isBlank) = false
    rw [Term.isBlank_asWritten, Term.isBlank_asWritten, stands.ground.1, stands.ground.2]
    rfl
  rw [Triple.received_whole] at read
  simp only [groundTriple?, read, Option.bind_eq_bind, Option.bind_some, ground,
    Bool.false_eq_true, if_false, Option.pure_def]

/-- The lines of the statements in a block. -/
def blockLines (ts : List Triple) : List Char :=
  ts.flatMap fun t => (t.writeLine fun _ => none).toList

/-- **Written statements are read back up to the brace**, whatever braces are in their literals. -/
theorem block?_write {ts : List Triple} (stand : ∀ t ∈ ts, t.StandsIn G) (rest : List Char) :
    G.block? ('\n' :: (blockLines ts ++ '\x7d' :: rest)) =
      some (ts.map Triple.asWritten, rest) := by
  have newline : Text.isBlank '\n' = true := by decide
  have brace : Text.isBlank '\x7d' = false := by decide
  induction ts with
  | nil =>
    rw [blockLines, block?, List.flatMap_nil, List.nil_append, skipBlanks_blank newline,
      skipBlanks_plain brace]
    rfl
  | cons t ts ih =>
    obtain ⟨first, others⟩ := List.forall_mem_cons.mp stand
    let after := '\n' :: (blockLines ts ++ '\x7d' :: rest)
    let statement := (t.statement fun _ => none).toList
    have text : blockLines (t :: ts) ++ '\x7d' :: rest = statement ++ after := by
      simp [blockLines, Triple.writeLine, statement, after]
    have shorter : after.length < ('\n' :: (statement ++ after)).length := by
      simp only [List.length_cons, List.length_append]
      omega
    rw [text, block?, skipBlanks_blank newline, skipBlanks_statement]
    simp only [afterPrefix?_statement, groundTriple?_statement first, if_pos shorter]
    rw [ih others]
    rfl

/-! ## Operations and updates -/

/-- A keyword ends at its blank. -/
theorem keyword_append {name : String} (letters : ∀ c ∈ name.toList, c.isAlpha = true)
    (rest : List Char) : keyword (name.toList ++ ' ' :: rest) = (name, ' ' :: rest) := by
  have ends : ' '.isAlpha = false := by decide
  unfold keyword
  rw [List.takeWhile_append_of_pos letters, List.dropWhile_append_of_pos letters,
    List.takeWhile_cons_of_neg (by simp [ends]), List.dropWhile_cons_of_neg (by simp [ends]),
    List.append_nil, String.ofList_toList]

/-- The text of an operation. -/
def operationText (o : Operation) : List Char :=
  o.verb.keyword.toList ++ ' ' :: ("DATA".toList ++ ' ' :: '\x7b' :: '\n' ::
    (blockLines o.triples ++ ['\x7d']))

/-- **A written operation is read back.** -/
theorem operation?_text {o : Operation} (stand : ∀ t ∈ o.triples, t.StandsIn G)
    (rest : List Char) : G.operation? (operationText o ++ rest) = some (o.asWritten, rest) := by
  let block := '\x7b' :: '\n' :: (blockLines o.triples ++ '\x7d' :: rest)
  have text : operationText o ++ rest =
      o.verb.keyword.toList ++ ' ' :: ("DATA".toList ++ ' ' :: block) := by
    simp [operationText, block]
  have letters : ∀ c ∈ o.verb.keyword.toList, c.isAlpha = true := by cases o.verb <;> decide
  have known : verb? o.verb.keyword = some o.verb := by cases o.verb <;> rfl
  have verb := keyword_append letters ("DATA".toList ++ ' ' :: block)
  have word : keyword ("DATA".toList ++ ' ' :: block) = ("DATA", ' ' :: block) :=
    keyword_append (by decide) block
  have blank : Text.isBlank ' ' = true := by decide
  have begins : skipBlanks (' ' :: ("DATA".toList ++ ' ' :: block)) =
      "DATA".toList ++ ' ' :: block :=
    (skipBlanks_blank blank _).trans (skipBlanks_plain (by decide) _)
  have brace : skipBlanks (' ' :: block) = block :=
    (skipBlanks_blank blank _).trans (skipBlanks_plain (by decide) _)
  rw [text, operation?]
  simp only [verb, known, Option.bind_eq_bind, Option.bind_some, begins, word, brace]
  simp only [block, Text.afterPrefix?, if_true, Option.bind_some, block?_write stand,
    Option.pure_def]
  rfl

/-- The text of an update. -/
def updateText (os : List Operation) : List Char :=
  " ;\n".toList.intercalate (os.map operationText)

theorem updateText_cons_cons (o o' : Operation) (os : List Operation) :
    updateText (o :: o' :: os) =
      operationText o ++ ' ' :: ';' :: '\n' :: updateText (o' :: os) := by
  simp [updateText, List.intercalate_cons_cons]

theorem updateText_eq_nil_iff {os : List Operation} : updateText os = [] ↔ os = [] := by
  cases os with
  | nil => simp [updateText]
  | cons o os => cases os <;> simp [updateText, List.intercalate_cons_cons, operationText]

/-- An update does not begin with a blank. -/
theorem skipBlanks_updateText (os : List Operation) :
    skipBlanks (updateText os) = updateText os := by
  have begins (o : Operation) (rest : List Char) :
      skipBlanks (operationText o ++ rest) = operationText o ++ rest := by
    obtain ⟨verb, triples⟩ := o
    cases verb with
    | delete => simp [operationText, Verb.keyword, skipBlanks_plain (c := 'D') (by decide)]
    | insert => simp [operationText, Verb.keyword, skipBlanks_plain (c := 'I') (by decide)]
  match os with
  | [] => rfl
  | [o] =>
    have alone : updateText [o] = operationText o ++ [] := by simp [updateText]
    rw [alone, begins]
  | o :: o' :: os => rw [updateText_cons_cons, begins]

/-- **A written update is read back**, also behind blanks. -/
theorem update?_text {os : List Operation} (stand : ∀ o ∈ os, ∀ t ∈ o.triples, t.StandsIn G)
    {s : List Char} (h : skipBlanks s = updateText os) :
    G.update? s = some (os.map Operation.asWritten) := by
  induction os generalizing s with
  | nil =>
    rw [update?, h]
    exact if_pos rfl
  | cons o os ih =>
    obtain ⟨first, others⟩ := List.forall_mem_cons.mp stand
    have begun : ¬ skipBlanks s = [] := by simp [h, updateText_eq_nil_iff]
    rw [update?, if_neg begun]
    cases os with
    | nil =>
      have alone : skipBlanks s = operationText o ++ [] := by simp [h, updateText]
      rw [alone, operation?_text first]
      rfl
    | cons o' os =>
      let next := '\n' :: updateText (o' :: os)
      have both : skipBlanks s = operationText o ++ ' ' :: ';' :: next := by
        rw [h, updateText_cons_cons]
      have semicolon : skipBlanks (' ' :: ';' :: next) = ';' :: next :=
        (skipBlanks_blank (by decide) _).trans (skipBlanks_plain (by decide) _)
      have shorter : next.length < s.length := by
        have le : (skipBlanks s).length ≤ s.length := (List.dropWhile_sublist _).length_le
        rw [both] at le
        simp only [List.length_append, List.length_cons] at le
        omega
      have follows : skipBlanks next = updateText (o' :: os) := by
        rw [skipBlanks_blank (by decide), skipBlanks_updateText]
      rw [both, operation?_text first]
      simp only [semicolon, true_and, if_pos shorter, ih others follows, Option.map_some,
        List.map_cons]

/-! ## Every statement was read -/

/-- What is true of every statement that can be read is true of those of a block. -/
theorem forall_of_block? {P : Triple → Prop}
    (each : ∀ {s t rest}, G.groundTriple? s = some (t, rest) → P t) {s rest : List Char}
    {ts : List Triple} (h : G.block? s = some (ts, rest)) : ∀ t ∈ ts, P t := by
  fun_induction G.block? s generalizing ts rest with
  | case1 s rest' closed =>
    cases h
    exact List.forall_mem_nil _
  | case2 => cases h
  | case3 s open_ t rest' read shorter ih =>
    obtain ⟨⟨ts', rest''⟩, others, same⟩ := Option.map_eq_some_iff.mp h
    cases same
    exact List.forall_mem_cons.mpr ⟨each read, ih others⟩
  | case4 => cases h

/-- It is true of those of an update. -/
theorem forall_of_update? {P : Triple → Prop}
    (each : ∀ {s t rest}, G.groundTriple? s = some (t, rest) → P t) {s : List Char}
    {os : List Operation} (h : G.update? s = some os) : ∀ o ∈ os, ∀ t ∈ o.triples, P t := by
  have operation {s rest : List Char} {o : Operation} (h : G.operation? s = some (o, rest)) :
      ∀ t ∈ o.triples, P t := by
    simp only [operation?, Option.bind_eq_bind, Option.bind_eq_some_iff] at h
    obtain ⟨verb, -, _, -, ⟨ts, _⟩, block, h⟩ := h
    split at h
    · cases h
      exact forall_of_block? each block
    · cases h
  fun_induction G.update? s generalizing os with
  | case1 =>
    cases h
    exact List.forall_mem_nil _
  | case2 => cases h
  | case3 s begun o rest read ended =>
    cases h
    exact List.forall_mem_singleton.mpr (operation read)
  | case4 s begun o rest read c rest' more stop ih =>
    obtain ⟨os', others, rfl⟩ := Option.map_eq_some_iff.mp h
    exact List.forall_mem_cons.mpr ⟨operation read, ih others⟩
  | case5 => cases h

end Grammar

/-! ## The text of a patch -/

open Grammar

theorem toList_block (verb : Verb) (g : Graph) :
    (Patch.block verb.keyword g).map String.toList = (g.operation verb).map operationText := by
  unfold Patch.block Graph.operation
  split
  · rfl
  · simp [operationText, Graph.toNTriples, Graph.write, blockLines, List.flatMap_def,
      Function.comp_def]

/-- The text of a patch is that of its operations. -/
theorem Patch.toList_toSparql (p : Patch) : p.toSparql.toList = updateText p.operations := by
  rw [toSparql, String.toList_intercalate, List.map_append, updateText, operations, List.map_append,
    ← toList_block, ← toList_block]
  rfl

theorem Patch.operations_eq_nil_iff {p : Patch} : p.operations = [] ↔ p.isEmpty = true := by
  have absent (g : Graph) (verb : Verb) : g.operation verb = [] ↔ g.isEmpty = true := by
    unfold Graph.operation
    split <;> simp_all
  rw [operations, List.append_eq_nil_iff, absent, absent, isEmpty, Bool.and_eq_true, and_comm]

/-- The text is empty when there is no operation. -/
theorem Patch.toSparql_eq_empty_iff {p : Patch} : p.toSparql = "" ↔ p.isEmpty = true := by
  rw [← String.toList_inj, p.toList_toSparql, ← operations_eq_nil_iff]
  exact updateText_eq_nil_iff

/-- The statements of a patch are those of its operations. -/
theorem Patch.forall_mem_operations {p : Patch} {P : Triple → Prop} :
    (∀ o ∈ p.operations, ∀ t ∈ o.triples, P t) ↔ ∀ t, t ∈ p.removed ∨ t ∈ p.added → P t := by
  have single (g : Graph) (verb : Verb) :
      (∀ o ∈ g.operation verb, ∀ t ∈ o.triples, P t) ↔ ∀ t ∈ g, P t := by
    unfold Graph.operation
    split
    · rename_i none
      have nothing : ∀ t, t ∉ g := fun t ht => by
        rw [Graph.mem_def, List.isEmpty_iff.mp none] at ht
        cases ht
      simp [nothing]
    · rw [List.forall_mem_singleton]
      rfl
  rw [operations, List.forall_mem_append, single, single]
  grind

/-- The text of a patch whose statements can stand in blocks is read back. -/
theorem Patch.update?_toSparql {G : Grammar} {p : Patch}
    (stand : ∀ t, t ∈ p.removed ∨ t ∈ p.added → t.StandsIn G) :
    G.update? p.toSparql.toList = some (p.operations.map Operation.asWritten) := by
  have begins : skipBlanks p.toSparql.toList = updateText p.operations := by
    rw [p.toList_toSparql, skipBlanks_updateText]
  exact update?_text (Patch.forall_mem_operations.mpr stand) begins

/-- A patch is read back from its text: operation by operation, as the text tells them. -/
def Patch.ReadsBack (p : Patch) : Prop :=
  NTriples.inUpdates.update? p.toSparql.toList = some (p.operations.map Operation.asWritten)

theorem NTriples.groundTriple?_spellable {s rest : List Char} {t : Triple}
    (h : NTriples.inUpdates.groundTriple? s = some (t, rest)) : t.IsSpellable := by
  simp only [groundTriple?, Option.bind_eq_bind, Option.bind_eq_some_iff] at h
  obtain ⟨⟨u, _⟩, read, h⟩ := h
  split at h
  · cases h
  · cases h
    exact triple?_spellable read

/-- **Which patches without blank nodes are read back** where labels and languages must be those of
the grammar. -/
theorem NTriples.update?_iff {p : Patch} (legal : ∀ t, t ∈ p.removed ∨ t ∈ p.added → t.IsLegal)
    (resource : ∀ t, t ∈ p.removed ∨ t ∈ p.added → t.subject.IsResource)
    (ground : ∀ t, t ∈ p.removed ∨ t ∈ p.added → t.IsGround) :
    p.ReadsBack ↔ ∀ t, t ∈ p.removed ∨ t ∈ p.added → t.IsSpellable := by
  constructor
  · intro read
    have spelled := forall_of_update? groundTriple?_spellable read
    refine Patch.forall_mem_operations.mp fun o ho t ht => ?_
    have ⟨subject, object⟩ :=
      spelled o.asWritten (List.mem_map_of_mem ho) t.asWritten (List.mem_map_of_mem ht)
    exact ⟨isSpellable_asWritten_iff.mp subject, isSpellable_asWritten_iff.mp object⟩
  · intro spellable
    exact Patch.update?_toSparql fun t ht =>
      ⟨ground t ht, legal t ht, triple_isKnown (resource t ht) (spellable t ht)⟩

/-- **The text of a patch means the patch**: it is read as the deletion of what the patch removes
and the insertion of what it adds, running these changes every graph as the patch does, and there is
no text exactly when there is nothing to do. -/
theorem toSparql_means {p : Patch} (removed : p.removed.IsData) (added : p.added.IsData) :
    Grammar.plain.update? p.toSparql.toList = some p.operations ∧
      (∀ g, runAll p.operations g = p.applyTo g) ∧ (p.toSparql = "" ↔ p.isEmpty = true) := by
  refine ⟨?_, p.runAll_operations, Patch.toSparql_eq_empty_iff⟩
  have data : ∀ t, t ∈ p.removed ∨ t ∈ p.added → t.IsData := fun t ht =>
    ht.elim (removed t) (added t)
  have told : p.operations.map Operation.asWritten = p.operations := by
    refine (List.map_congr_left fun o ho => ?_).trans (List.map_id _)
    have each := Patch.forall_mem_operations.mpr (fun t ht => (data t ht).asWritten_eq) o ho
    rw [Operation.asWritten, List.map_congr_left each, List.map_id']
    rfl
  rw [Patch.update?_toSparql fun t ht => (data t ht).standsIn, told]

/-- A patch that adds a statement that it removes, and whose literals look like the text around
them. -/
def bracedPatch : Patch where
  added := .ofList [⟨.iri "urn:a", "urn:p", .plain "\x7d ;\nINSERT DATA \x7b"⟩,
    ⟨.iri "urn:a", "urn:q", .inLanguage "\" ." "en-GB"⟩]
  removed := .ofList [⟨.iri "urn:a", "urn:p", .plain "\x7d ;\nINSERT DATA \x7b"⟩,
    ⟨.plain "\x7d", "urn:p", .typed "7" Vocabulary.xsdInteger⟩]

theorem toSparql_means_bracedPatch :
    Grammar.plain.update? bracedPatch.toSparql.toList = some bracedPatch.operations ∧
      (∀ g, runAll bracedPatch.operations g = bracedPatch.applyTo g) ∧
      (bracedPatch.toSparql = "" ↔ bracedPatch.isEmpty = true) :=
  toSparql_means (by decide +kernel) (by decide +kernel)

end LinkedDeposit
