import LinkedDeposit.Rdf.Iri
import LinkedDeposit.Rdf.Turtle
import LinkedDeposit.Proofs.Text.Cutting

/-!
# Reading statements back

A reader of the texts that `Graph.write` makes, one statement a line. It knows nothing of the
writer: references and texts are read with every escape that there is, space may stand between any
two tokens, and empty lines and comments are skipped. Every reference goes through `resolve`, which
a receiver uses to put relative references behind the URI of the resource that it reads.

Readers differ in what they take for space, for a label and for a language, which makes a `Grammar`.
The plain one takes as little for granted as possible: a label and a language end at the next blank.
What comes back is what was written, up to what a text does not tell: a datatype next to a language,
and the datatype `xsd:string` (`Term.asWritten`).

Results:
* `quoted?_escape`: the reader finds the end of a literal, whatever characters are in it.
* `Grammar.triple?_statement`: a statement is read back if the grammar knows its labels and
  languages.
* `Grammar.statements?_write`: so is a graph, statement by statement and in order.
-/

namespace LinkedDeposit

/-! ## What a text tells -/

/-- The datatype that is written for a literal. -/
def writtenDatatype (datatype language : Option String) : Option String :=
  match language with
  | some _ => none
  | none => datatype.filter (· ≠ Vocabulary.xsdString)

/-- A term as its text tells it. -/
def Term.asWritten : Term → Term
  | .literal text datatype language => .literal text (writtenDatatype datatype language) language
  | t => t

/-- Applies `f` to the datatype of a literal. -/
def Term.mapDatatype (f : String → String) : Term → Term
  | .literal text datatype language => .literal text (datatype.map f) language
  | t => t

theorem Term.mapIri_id (t : Term) : t.mapIri id = t := by cases t <;> rfl

theorem Term.mapDatatype_id (t : Term) : t.mapDatatype id = t := by
  cases t with
  | literal text datatype language => simp [Term.mapDatatype]
  | _ => rfl

/-- A triple as its text tells it. -/
def Triple.asWritten (t : Triple) : Triple := t.mapTerms Term.asWritten

/-- Applies `f` to the predicate and to the datatypes of literals. -/
def Triple.mapNames (f : String → String) (t : Triple) : Triple :=
  ⟨t.subject.mapDatatype f, f t.predicate, t.object.mapDatatype f⟩

section Received

variable (resolve : String → String) (shorten : String → Option String)

/-- What an IRI is for a receiver that resolves the reference it was shortened to. -/
def receivedIri (i : String) : String := resolve ((shorten i).getD i)

/-- What a term is for a receiver that resolves every reference in its text. -/
def Term.received (t : Term) : Term :=
  ((t.mapIri (receivedIri resolve shorten)).asWritten).mapDatatype resolve

/-- What a triple is for a receiver that resolves every reference in its text. -/
def Triple.received (t : Triple) : Triple :=
  ((t.mapTerms (Term.mapIri (receivedIri resolve shorten))).asWritten).mapNames resolve

/-- The references that IRIs are shortened to have no character that the IRI does not have. -/
def Shortens : Prop := ∀ i, ∀ c ∈ ((shorten i).getD i).toList, c ∈ i.toList

end Received

/-- A receiver of whole IRIs receives what is told. -/
theorem Triple.received_whole (t : Triple) : t.received id (fun _ => none) = t.asWritten := by
  have whole : receivedIri id (fun _ => none) = id := rfl
  simp only [Triple.received, Triple.asWritten, Triple.mapNames, Triple.mapTerms, whole,
    Term.mapIri_id, Term.mapDatatype_id, id]

theorem shortens_whole : Shortens fun _ => none := fun _ _ hc => hc

/-- A term that can be the subject of a triple. -/
def Term.IsResource : Term → Prop
  | .literal .. => False
  | _ => True

instance (t : Term) : Decidable t.IsResource :=
  match t with
  | .iri _ | .blank _ => .isTrue trivial
  | .literal .. => .isFalse id

/-- What a receiver resolves stays a resource. -/
theorem Term.isResource_received_iff {resolve : String → String}
    {shorten : String → Option String} {t : Term} :
    (t.received resolve shorten).IsResource ↔ t.IsResource := by
  cases t <;> exact Iff.rfl

/-! ## The reader -/

namespace Reading

/-- The value of a hexadecimal digit. -/
def hexDigit? (c : Char) : Option Nat :=
  if c.isDigit then some (c.toNat - '0'.toNat)
  else if 'a' ≤ c ∧ c ≤ 'f' then some (c.toNat - 'a'.toNat + 10)
  else if 'A' ≤ c ∧ c ≤ 'F' then some (c.toNat - 'A'.toNat + 10)
  else none

/-- The character that a number written in hexadecimal digits names. -/
def codePoint? (digits : List Char) : Option Char := do
  let n := (← digits.mapM hexDigit?).foldl (16 * · + ·) 0
  if n.isValidChar then some (Char.ofNat n) else none

/-- The character that a letter behind a backslash stands for. -/
def unescape? : Char → Option Char
  | 't' => some '\t'
  | 'b' => some '\x08'
  | 'n' => some '\n'
  | 'r' => some '\r'
  | 'f' => some '\x0c'
  | '"' => some '"'
  | '\'' => some '\''
  | '\\' => some '\\'
  | _ => none

/-- Puts a character before a text. -/
def push (c : Option Char) (text : Option (List Char × List Char)) :
    Option (List Char × List Char) := do
  let c ← c
  let (s, rest) ← text
  return (c :: s, rest)

/-- Whether a character may not stand in a reference as it is. -/
def endsReference (c : Char) : Bool :=
  c.toNat ≤ 0x20 || c ∈ ['<', '>', '"', '\x7b', '\x7d', '|', '^', '`', '\\']

/-- A reference whose opening bracket has been read. -/
def reference? : List Char → Option (List Char × List Char)
  | [] => none
  | '>' :: s => some ([], s)
  | '\\' :: 'u' :: a :: b :: c :: d :: s => push (codePoint? [a, b, c, d]) (reference? s)
  | '\\' :: 'U' :: a :: b :: c :: d :: e :: f :: g :: h :: s =>
    push (codePoint? [a, b, c, d, e, f, g, h]) (reference? s)
  | c :: s => if endsReference c then none else push (some c) (reference? s)

/-- The text of a literal whose opening quote has been read. -/
def quoted? : List Char → Option (List Char × List Char)
  | [] => none
  | '"' :: s => some ([], s)
  | '\n' :: _ => none
  | '\r' :: _ => none
  | '\\' :: 'u' :: a :: b :: c :: d :: s => push (codePoint? [a, b, c, d]) (quoted? s)
  | '\\' :: 'U' :: a :: b :: c :: d :: e :: f :: g :: h :: s =>
    push (codePoint? [a, b, c, d, e, f, g, h]) (quoted? s)
  | '\\' :: c :: s => push (unescape? c) (quoted? s)
  | c :: s => push (some c) (quoted? s)

/-- Whether a character ends a line. -/
def endsLine (c : Char) : Bool := c = '\n' || c = '\r'

end Reading

open Reading

/-- What a reader takes for space, for a label and for a language. -/
structure Grammar where
  /-- The space between tokens. -/
  isSpace : Char → Bool
  /-- Takes the label of a blank node from the front of a text. -/
  label? : List Char → Option (String × List Char)
  /-- Takes the language of a literal from the front of a text. -/
  language? : List Char → Option (String × List Char)
  /-- Whether there are statements about literals. -/
  aboutLiterals : Bool
  space : isSpace ' ' = true
  /-- No token begins with space. -/
  signs : ∀ c ∈ ['<', '_', '"', '@', '^', '.'], isSpace c = false

namespace Grammar

/-- The text before the next blank, and what follows it. -/
def word? (s : List Char) : Option (String × List Char) :=
  some (String.ofList (s.takeWhile (! Text.isBlank ·)), s.dropWhile (! Text.isBlank ·))

/-- The grammar in which every token ends at the next blank. -/
def plain : Grammar where
  isSpace := Text.isBlank
  label? := word?
  language? := word?
  aboutLiterals := true
  space := by decide
  signs := by decide

variable (G : Grammar) (resolve : String → String)

/-- Skips space. -/
def skip (s : List Char) : List Char := s.dropWhile G.isSpace

/-- What follows the text of a literal: a language, a datatype or neither. -/
def suffix? (s : List Char) : Option ((Option String × Option String) × List Char) :=
  match G.skip s with
  | '@' :: s => (G.language? s).map fun (l, rest) => ((none, some l), rest)
  | '^' :: '^' :: s =>
    match G.skip s with
    | '<' :: s => (reference? s).map fun (i, rest) =>
        ((some (resolve (String.ofList i)), none), rest)
    | _ => none
  | _ => some ((none, none), s)

/-- Reads a term. -/
def term? : List Char → Option (Term × List Char)
  | '<' :: s => (reference? s).map fun (i, rest) => (.iri (resolve (String.ofList i)), rest)
  | '_' :: ':' :: s => (G.label? s).map fun (l, rest) => (.blank l, rest)
  | '"' :: s => do
    let (text, rest) ← quoted? s
    let ((datatype, language), rest) ← G.suffix? resolve rest
    return (.literal (String.ofList text) datatype language, rest)
  | _ => none

/-- Whether there are statements about a term. -/
def Admits (t : Term) : Prop := G.aboutLiterals = true ∨ t.IsResource

instance (t : Term) : Decidable (G.Admits t) :=
  inferInstanceAs (Decidable (G.aboutLiterals = true ∨ t.IsResource))

/-- Reads a statement with its dot. -/
def triple? (s : List Char) : Option (Triple × List Char) := do
  let (subject, rest) ← G.term? resolve (G.skip s)
  let rest ← Text.afterPrefix? ['<'] (G.skip rest)
  let (predicate, rest) ← reference? rest
  let (object, rest) ← G.term? resolve (G.skip rest)
  let rest ← Text.afterPrefix? ['.'] (G.skip rest)
  if G.Admits subject then some (⟨subject, resolve (String.ofList predicate), object⟩, rest)
  else none

/-- Whether nothing follows on a line but a comment. -/
def isOver (s : List Char) : Bool := (G.skip s).head?.all (· = '#')

/-- Reads the statement of a line. -/
def statement? (line : List Char) : Option Triple := do
  let (t, rest) ← G.triple? resolve line
  if G.isOver rest then some t else none

/-- The lines that are neither empty nor a comment. -/
def lines (text : List Char) : List (List Char) :=
  (Text.splitAt endsLine text).filter fun line => !G.isOver line

/-- Reads the statements of a text. -/
def statements? (text : String) : Option (List Triple) :=
  (G.lines text.toList).mapM (G.statement? resolve)

end Grammar

/-! ## What can be read back -/

instance (i : String) : Decidable (checkIri i = .ok ()) :=
  decidable_of_iff _ checkIri_eq_ok_iff.symm

/-- The IRIs of a term can stand between angle brackets. -/
def Term.IsLegal : Term → Prop
  | .iri i => checkIri i = .ok ()
  | .blank _ => True
  | .literal _ datatype _ => ∀ d ∈ datatype, checkIri d = .ok ()

instance (t : Term) : Decidable t.IsLegal :=
  match t with
  | .iri i => inferInstanceAs (Decidable (checkIri i = .ok ()))
  | .blank _ => .isTrue trivial
  | .literal _ datatype _ => inferInstanceAs (Decidable (∀ d ∈ datatype, checkIri d = .ok ()))

/-- The IRIs of a triple can stand between angle brackets. -/
structure Triple.IsLegal (t : Triple) : Prop where
  subject : t.subject.IsLegal
  predicate : checkIri t.predicate = .ok ()
  object : t.object.IsLegal

/-- A token that is read up to the space behind it and does not end its line. -/
structure Grammar.Knows (read : List Char → Option (String × List Char)) (token : String) :
    Prop where
  reads : ∀ rest, read (token.toList ++ ' ' :: rest) = some (token, ' ' :: rest)
  line : ∀ c ∈ token.toList, endsLine c = false

/-- The grammar knows the label or the language of a term. -/
def Term.IsKnown (G : Grammar) : Term → Prop
  | .iri _ => True
  | .blank label => Grammar.Knows G.label? label
  | .literal _ _ language => ∀ l ∈ language, Grammar.Knows G.language? l

/-- The grammar knows the labels and languages of a triple, and has statements about its subject. -/
structure Triple.IsKnown (G : Grammar) (t : Triple) : Prop where
  about : G.Admits t.subject
  subject : t.subject.IsKnown G
  object : t.object.IsKnown G

theorem not_mem_of_checkIri {c : Char} (illegal : isIllegalInIri c = true) {i : String}
    (h : checkIri i = .ok ()) : c ∉ i.toList := by
  intro hc
  rw [checkIri_eq_ok_iff.mp h c hc] at illegal
  cases illegal

namespace Reading

/-! ## Tokens -/

theorem isIllegalInIri_of_endsReference {c : Char} (h : endsReference c = true) :
    isIllegalInIri c = true := by
  simp only [endsReference, Bool.or_eq_true, decide_eq_true_eq] at h
  rcases h with low | listed
  · rcases Nat.lt_or_eq_of_le low with control | space
    · simp [isIllegalInIri, isControl, control]
    · obtain rfl : c = ' ' := Char.toNat_inj.mp space
      decide
  · simp only [isIllegalInIri, Bool.or_eq_true, decide_eq_true_eq]
    exact .inr (List.mem_cons_of_mem _ listed)

theorem endsReference_eq_false {i : String} (legal : checkIri i = .ok ()) {c : Char}
    (hc : c ∈ i.toList) : endsReference c = false := by
  rw [Bool.eq_false_iff]
  intro illegal
  exact not_mem_of_checkIri (isIllegalInIri_of_endsReference illegal) legal hc

/-- A reference ends at its bracket. -/
theorem reference?_append {i : List Char} (legal : ∀ c ∈ i, endsReference c = false)
    (rest : List Char) : reference? (i ++ '>' :: rest) = some (i, rest) := by
  induction i with
  | nil => rfl
  | cons c i ih =>
    obtain ⟨first, others⟩ := List.forall_mem_cons.mp legal
    have noEnd : c ≠ '>' := by
      rintro rfl
      exact absurd first (by decide)
    have noEscape : c ≠ '\\' := by
      rintro rfl
      exact absurd first (by decide)
    have step : reference? (c :: (i ++ '>' :: rest)) =
        push (some c) (reference? (i ++ '>' :: rest)) := by
      rw [reference?.eq_def]
      split <;> simp_all
    rw [List.cons_append, step, ih others]
    rfl

/-- A written IRI ends at its bracket. -/
theorem reference?_iri {i : String} (legal : checkIri i = .ok ()) (rest : List Char) :
    reference? (i.toList ++ '>' :: rest) = some (i.toList, rest) :=
  reference?_append (fun _ hc => endsReference_eq_false legal hc) rest

/-- One character of a literal is read back. -/
theorem quoted?_escapeLiteralChar (c : Char) (s : List Char) :
    quoted? (escapeLiteralChar c ++ s) = push (some c) (quoted? s) := by
  unfold escapeLiteralChar
  split
  case h_6 =>
    -- a character that stands for itself
    rw [List.singleton_append, quoted?.eq_def]
    split <;> simp_all
  all_goals rfl

/-- **A literal ends at its closing quote**, whatever characters are in it. -/
theorem quoted?_escape (text rest : List Char) :
    quoted? (text.flatMap escapeLiteralChar ++ '"' :: rest) = some (text, rest) := by
  induction text with
  | nil => rfl
  | cons c text ih =>
    rw [List.flatMap_cons, List.append_assoc, quoted?_escapeLiteralChar, ih]
    rfl

/-! ## Line ends -/

/-- A class of characters without the two that end a line. -/
theorem endsLine_eq_false (inside : Char → Bool) (newline : inside '\n' = false)
    (carriageReturn : inside '\r' = false) {c : Char} (hc : inside c = true) :
    endsLine c = false := by
  rw [Bool.eq_false_iff]
  intro ends
  simp only [endsLine, Bool.or_eq_true, decide_eq_true_eq] at ends
  rcases ends with rfl | rfl
  · cases newline.symm.trans hc
  · cases carriageReturn.symm.trans hc

theorem not_endsLine_of_checkIri {i : String} (legal : checkIri i = .ok ()) {c : Char}
    (hc : c ∈ i.toList) : endsLine c = false := by
  have allowed : (! isIllegalInIri c) = true := by rw [checkIri_eq_ok_iff.mp legal c hc]; rfl
  exact endsLine_eq_false (! isIllegalInIri ·) (by decide) (by decide) allowed

theorem not_endsLine_of_escape {text : List Char} {c : Char}
    (hc : c ∈ text.flatMap escapeLiteralChar) : endsLine c = false := by
  obtain ⟨a, -, hc⟩ := List.mem_flatMap.mp hc
  unfold escapeLiteralChar at hc
  split at hc
  case h_6 =>
    -- a character that stands for itself is none of those that end a line
    obtain rfl := List.mem_singleton.mp hc
    simp_all [endsLine]
  all_goals
    simp only [List.mem_cons, List.not_mem_nil, or_false] at hc
    rcases hc with rfl | rfl <;> decide

end Reading

namespace Grammar

variable {G : Grammar}

/-! ## Space -/

theorem skip_space (s : List Char) : G.skip (' ' :: s) = G.skip s :=
  List.dropWhile_cons_of_pos G.space

/-- No sign that a token begins with is skipped. -/
theorem skip_sign {c : Char} (sign : c ∈ ['<', '_', '"', '@', '^', '.']) (s : List Char) :
    G.skip (c :: s) = c :: s :=
  List.dropWhile_cons_of_neg (by rw [G.signs c sign]; decide)

/-- A term begins with a sign that is neither a comment nor a brace. -/
theorem exists_write (t : Term) (shorten : String → Option String) : ∃ c s,
    (t.write shorten).toList = c :: s ∧ c ∈ ['<', '_', '"'] := by
  cases t with
  | iri i => exact ⟨'<', ((shorten i).getD i ++ ">").toList, by simp [Term.write], by decide⟩
  | blank label => exact ⟨'_', (":" ++ label).toList, by simp [Term.write], by decide⟩
  | literal text datatype language =>
    exact ⟨'"', (escapeLiteral text ++ "\"" ++ literalSuffix datatype language).toList,
      by simp [Term.write], by decide⟩

theorem skip_write (t : Term) (shorten : String → Option String) (rest : List Char) :
    G.skip ((t.write shorten).toList ++ rest) = (t.write shorten).toList ++ rest := by
  obtain ⟨c, s, text, first⟩ := exists_write t shorten
  rw [text, List.cons_append, skip_sign (List.mem_append_left ['@', '^', '.'] first)]

/-! ## Terms and statements are read back -/

section Written

variable (resolve : String → String) {shorten : String → Option String}

/-- Neither a language nor a datatype follows. -/
def Quiet (G : Grammar) (s : List Char) : Prop := ∀ c ∈ (G.skip s).head?, c ≠ '@' ∧ c ≠ '^'

theorem quiet_sign {c : Char} (sign : c = '<' ∨ c = '.') (s : List Char) :
    G.Quiet (' ' :: c :: s) := by
  have begins : c ∈ ['<', '_', '"', '@', '^', '.'] := by rcases sign with rfl | rfl <;> decide
  intro c' hc
  rw [skip_space, skip_sign begins] at hc
  obtain rfl := Option.some.inj hc
  rcases sign with rfl | rfl <;> decide

theorem suffix?_quiet {s : List Char} (quiet : G.Quiet s) :
    G.suffix? resolve s = some ((none, none), s) := by
  unfold suffix?
  split
  case h_1 at_ => exact absurd rfl (quiet '@' (by rw [at_]; rfl)).1
  case h_2 hats => exact absurd rfl (quiet '^' (by rw [hats]; rfl)).2
  case h_3 => rfl

/-- What follows a closing quote is read back. -/
theorem suffix?_literalSuffix {datatype language : Option String}
    (legal : ∀ d ∈ datatype, checkIri d = .ok ())
    (known : ∀ l ∈ language, Knows G.language? l) {rest : List Char} (quiet : G.Quiet (' ' :: rest)) :
    G.suffix? resolve ((literalSuffix datatype language).toList ++ ' ' :: rest) =
      some (((writtenDatatype datatype language).map resolve, language), ' ' :: rest) := by
  cases language with
  | some l =>
    have read := (known l rfl).reads rest
    simp only [literalSuffix, String.toList_append, List.append_assoc]
    change G.suffix? resolve ('@' :: (l.toList ++ ' ' :: rest)) = _
    simp [suffix?, skip_sign (G := G) (c := '@') (by decide), read, writtenDatatype]
  | none =>
    cases datatype with
    | none => exact suffix?_quiet resolve quiet
    | some d =>
      by_cases h : d = Vocabulary.xsdString
      · subst h
        exact suffix?_quiet resolve quiet
      · have read := reference?_iri (legal d rfl) (' ' :: rest)
        have written : writtenDatatype (some d) none = some d := by
          simp [writtenDatatype, Option.filter, h]
        simp only [literalSuffix, if_neg h, String.toList_append, List.append_assoc, written]
        change G.suffix? resolve ('^' :: '^' :: '<' :: (d.toList ++ '>' :: ' ' :: rest)) = _
        simp [suffix?, skip_sign (G := G) (c := '^') (by decide),
          skip_sign (G := G) (c := '<') (by decide), read]

/-- **A written term is read back**, and its references resolved. -/
theorem term?_write (shortens : Shortens shorten) {t : Term} (legal : t.IsLegal)
    (known : t.IsKnown G) {rest : List Char} (quiet : G.Quiet (' ' :: rest)) :
    G.term? resolve ((t.write shorten).toList ++ ' ' :: rest) =
      some (t.received resolve shorten, ' ' :: rest) := by
  cases t with
  | iri i =>
    have read := reference?_append
      (fun c hc => endsReference_eq_false legal (shortens i c hc)) (' ' :: rest)
    simp only [Term.write, String.toList_append, List.append_assoc]
    change G.term? resolve ('<' :: (((shorten i).getD i).toList ++ '>' :: ' ' :: rest)) = _
    simp only [term?, read, Option.map_some, String.ofList_toList]
    rfl
  | blank label =>
    have read := known.reads rest
    simp only [Term.write, String.toList_append, List.append_assoc]
    change G.term? resolve ('_' :: ':' :: (label.toList ++ ' ' :: rest)) = _
    rw [term?, read]
    rfl
  | literal text datatype language =>
    have read := quoted?_escape text.toList ((literalSuffix datatype language).toList ++ ' ' :: rest)
    have suffix := suffix?_literalSuffix resolve legal known quiet
    simp only [Term.write, escapeLiteral, String.toList_append, String.toList_ofList,
      List.append_assoc]
    change G.term? resolve ('"' :: (text.toList.flatMap escapeLiteralChar ++
      '"' :: ((literalSuffix datatype language).toList ++ ' ' :: rest))) = _
    simp only [term?, read, suffix, Option.bind_eq_bind, Option.bind_some, String.ofList_toList]
    rfl

/-- **A written statement is read back**, whatever follows it. -/
theorem triple?_statement (shortens : Shortens shorten) {t : Triple} (legal : t.IsLegal)
    (known : t.IsKnown G) (rest : List Char) :
    G.triple? resolve ((t.statement shorten).toList ++ rest) =
      some (t.received resolve shorten, rest) := by
  let afterPredicate := (t.object.write shorten).toList ++ ' ' :: '.' :: rest
  let afterSubject := '<' :: (t.predicate.toList ++ '>' :: ' ' :: afterPredicate)
  have text : (t.statement shorten).toList ++ rest =
      (t.subject.write shorten).toList ++ ' ' :: afterSubject := by
    simp [Triple.statement, afterSubject, afterPredicate]
  have subject := term?_write resolve shortens legal.subject known.subject
    (quiet_sign (.inl rfl) (t.predicate.toList ++ '>' :: ' ' :: afterPredicate))
  have predicate := reference?_iri legal.predicate (' ' :: afterPredicate)
  have object := term?_write resolve shortens legal.object known.object
    (quiet_sign (.inr rfl) rest)
  have bracket (s : List Char) : G.skip ('<' :: s) = '<' :: s := skip_sign (by decide) s
  have dot (s : List Char) : G.skip ('.' :: s) = '.' :: s := skip_sign (by decide) s
  have admitted : G.Admits (t.subject.received resolve shorten) :=
    known.about.imp id Term.isResource_received_iff.mpr
  rw [text, triple?, skip_write]
  simp only [afterSubject, subject, Option.bind_eq_bind, Option.bind_some, skip_space, bracket,
    Text.afterPrefix?, if_true, predicate, afterPredicate, skip_write, object, dot,
    if_pos admitted, String.ofList_toList]
  rfl

/-- **The statement of a line is read back.** -/
theorem statement?_statement (shortens : Shortens shorten) {t : Triple} (legal : t.IsLegal)
    (known : t.IsKnown G) :
    G.statement? resolve (t.statement shorten).toList = some (t.received resolve shorten) := by
  have read := triple?_statement resolve shortens legal known []
  rw [List.append_nil] at read
  rw [statement?, read]
  rfl

/-! ## Lines -/

/-- What follows a closing quote does not end its line. -/
theorem not_endsLine_of_literalSuffix {datatype language : Option String}
    (legal : ∀ d ∈ datatype, checkIri d = .ok ())
    (known : ∀ l ∈ language, Knows G.language? l) {c : Char}
    (hc : c ∈ (literalSuffix datatype language).toList) : endsLine c = false := by
  cases language with
  | some l =>
    simp only [literalSuffix, String.toList_append, List.mem_append] at hc
    rcases hc with sign | inside
    · obtain rfl : c = '@' := by simpa using sign
      decide
    · exact (known l rfl).line c inside
  | none =>
    cases datatype with
    | none => cases hc
    | some d =>
      simp only [literalSuffix] at hc
      split at hc
      · cases hc
      · simp only [String.toList_append, List.mem_append] at hc
        rcases hc with (sign | inside) | bracket
        · have : c = '^' ∨ c = '<' := by simpa using sign
          rcases this with rfl | rfl <;> decide
        · exact not_endsLine_of_checkIri (legal d rfl) inside
        · obtain rfl : c = '>' := by simpa using bracket
          decide

/-- A term does not end its line. -/
theorem not_endsLine_of_write (shortens : Shortens shorten) {t : Term} (legal : t.IsLegal)
    (known : t.IsKnown G) {c : Char} (hc : c ∈ (t.write shorten).toList) : endsLine c = false := by
  cases t with
  | iri i =>
    simp only [Term.write, String.toList_append, List.mem_append] at hc
    rcases hc with (bracket | inside) | bracket
    · obtain rfl : c = '<' := by simpa using bracket
      decide
    · exact not_endsLine_of_checkIri legal (shortens i c inside)
    · obtain rfl : c = '>' := by simpa using bracket
      decide
  | blank label =>
    simp only [Term.write, String.toList_append, List.mem_append] at hc
    rcases hc with sign | inside
    · have : c = '_' ∨ c = ':' := by simpa using sign
      rcases this with rfl | rfl <;> decide
    · exact known.line c inside
  | literal text datatype language =>
    simp only [Term.write, escapeLiteral, String.toList_append, String.toList_ofList,
      List.mem_append] at hc
    rcases hc with ((quote | inside) | quote) | suffix
    · obtain rfl : c = '"' := by simpa using quote
      decide
    · exact not_endsLine_of_escape inside
    · obtain rfl : c = '"' := by simpa using quote
      decide
    · exact not_endsLine_of_literalSuffix legal known suffix

/-- **A statement is one line.** -/
theorem not_endsLine_of_statement (shortens : Shortens shorten) {t : Triple} (legal : t.IsLegal)
    (known : t.IsKnown G) {c : Char} (hc : c ∈ (t.statement shorten).toList) :
    endsLine c = false := by
  simp only [Triple.statement, String.toList_append, List.mem_append] at hc
  rcases hc with ((((subject | opening) | predicate) | closing) | object) | stop
  · exact not_endsLine_of_write shortens legal.subject known.subject subject
  · have : c = ' ' ∨ c = '<' := by simpa using opening
    rcases this with rfl | rfl <;> decide
  · exact not_endsLine_of_checkIri legal.predicate predicate
  · have : c = '>' ∨ c = ' ' := by simpa using closing
    rcases this with rfl | rfl <;> decide
  · exact not_endsLine_of_write shortens legal.object known.object object
  · have : c = ' ' ∨ c = '.' := by simpa using stop
    rcases this with rfl | rfl <;> decide

theorem skip_statement (t : Triple) (rest : List Char) :
    G.skip ((t.statement shorten).toList ++ rest) = (t.statement shorten).toList ++ rest := by
  simp only [Triple.statement, String.toList_append, List.append_assoc, skip_write]

/-- A statement is no comment. -/
theorem isOver_statement (t : Triple) : G.isOver (t.statement shorten).toList = false := by
  obtain ⟨c, s, text, first⟩ := exists_write t.subject shorten
  have noComment : c ≠ '#' := by
    rintro rfl
    exact absurd first (by decide)
  have begins : G.skip (t.statement shorten).toList = (t.statement shorten).toList := by
    simpa only [List.append_nil] using skip_statement t []
  rw [isOver, begins]
  simp [Triple.statement, text, noComment]

/-- The lines of a written graph are its statements. -/
theorem lines_write (shortens : Shortens shorten) {g : Graph} (legal : ∀ t ∈ g, t.IsLegal)
    (known : ∀ t ∈ g, t.IsKnown G) :
    G.lines (g.write shorten).toList = g.toList.map fun t => (t.statement shorten).toList := by
  let own := g.toList.map fun t => (t.statement shorten).toList
  have text : (g.write shorten).toList = own.flatMap (· ++ ['\n']) := by
    simp [Graph.write, own, List.flatMap_map, Triple.writeLine]
  have whole : ∀ line ∈ own, ∀ c ∈ line, endsLine c = false := by
    intro line hl c hc
    obtain ⟨t, ht, rfl⟩ := List.mem_map.mp hl
    exact not_endsLine_of_statement shortens (legal t ht) (known t ht) hc
  have kept : ∀ line ∈ own, (!G.isOver line) = true := by
    intro line hl
    obtain ⟨t, -, rfl⟩ := List.mem_map.mp hl
    rw [isOver_statement]
    rfl
  rw [lines, text, Text.splitAt_lines (by decide) whole, List.filter_append,
    List.filter_eq_self.mpr kept]
  exact List.append_nil own

/-- **A written graph is read back**, statement by statement and in order. -/
theorem statements?_write (shortens : Shortens shorten) {g : Graph} (legal : ∀ t ∈ g, t.IsLegal)
    (known : ∀ t ∈ g, t.IsKnown G) :
    G.statements? resolve (g.write shorten) =
      some (g.toList.map (Triple.received resolve shorten)) := by
  rw [statements?, lines_write shortens legal known, List.mapM_map]
  exact Text.mapM_eq_some_map fun t ht =>
    statement?_statement resolve shortens (legal t ht) (known t ht)

end Written

end Grammar

/-! ## Tokens that end at a blank -/

/-- The label of a blank node has no blank. -/
def Term.HasPlainLabel : Term → Prop
  | .blank label => ∀ c ∈ label.toList, Text.isBlank c = false
  | _ => True

instance (t : Term) : Decidable t.HasPlainLabel :=
  match t with
  | .iri _ => .isTrue trivial
  | .blank label => inferInstanceAs (Decidable (∀ c ∈ label.toList, Text.isBlank c = false))
  | .literal .. => .isTrue trivial

/-- The language of a literal has no blank. -/
def Term.HasPlainLanguage : Term → Prop
  | .literal _ _ language => ∀ l ∈ language, ∀ c ∈ l.toList, Text.isBlank c = false
  | _ => True

instance (t : Term) : Decidable t.HasPlainLanguage :=
  match t with
  | .iri _ | .blank _ => .isTrue trivial
  | .literal _ _ language => inferInstanceAs (Decidable
      (∀ l ∈ language, ∀ c ∈ l.toList, Text.isBlank c = false))

/-- The IRIs of a term can stand between angle brackets, and its language has no blank. -/
structure Term.IsWritable (t : Term) : Prop where
  legal : t.IsLegal
  language : t.HasPlainLanguage

instance (t : Term) : Decidable t.IsWritable :=
  decidable_of_iff (t.IsLegal ∧ t.HasPlainLanguage) ⟨fun ⟨i, l⟩ => ⟨i, l⟩, fun ⟨i, l⟩ => ⟨i, l⟩⟩

/-- The IRIs of a triple can stand between angle brackets, and its languages have no blank. -/
structure Triple.IsWritable (t : Triple) : Prop where
  subject : t.subject.IsWritable
  predicate : checkIri t.predicate = .ok ()
  object : t.object.IsWritable

instance (t : Triple) : Decidable t.IsWritable :=
  decidable_of_iff (t.subject.IsWritable ∧ checkIri t.predicate = .ok () ∧ t.object.IsWritable)
    ⟨fun ⟨s, p, o⟩ => ⟨s, p, o⟩, fun ⟨s, p, o⟩ => ⟨s, p, o⟩⟩

theorem Triple.IsWritable.legal {t : Triple} (h : t.IsWritable) : t.IsLegal :=
  ⟨h.subject.legal, h.predicate, h.object.legal⟩

/-- The labels of blank nodes have no blank. -/
structure Triple.HasPlainLabels (t : Triple) : Prop where
  subject : t.subject.HasPlainLabel
  object : t.object.HasPlainLabel

instance (t : Triple) : Decidable t.HasPlainLabels :=
  decidable_of_iff (t.subject.HasPlainLabel ∧ t.object.HasPlainLabel)
    ⟨fun ⟨s, o⟩ => ⟨s, o⟩, fun ⟨s, o⟩ => ⟨s, o⟩⟩

/-- A word ends at its blank. -/
theorem Grammar.knows_word? {token : String}
    (plain : ∀ c ∈ token.toList, Text.isBlank c = false) : Knows word? token where
  reads rest := by
    have all : ∀ c ∈ token.toList, (! Text.isBlank c) = true := fun c hc => by rw [plain c hc]; rfl
    have ends : (! Text.isBlank ' ') = false := by decide
    unfold word?
    rw [List.takeWhile_append_of_pos all, List.dropWhile_append_of_pos all,
      List.takeWhile_cons_of_neg (by simp [ends]), List.dropWhile_cons_of_neg (by simp [ends]),
      List.append_nil, String.ofList_toList]
  line c hc := endsLine_eq_false (! Text.isBlank ·) (by decide) (by decide) (by rw [plain c hc]; rfl)

theorem Term.isKnown_plain {t : Term} (label : t.HasPlainLabel) (language : t.HasPlainLanguage) :
    t.IsKnown .plain := by
  cases t with
  | iri => trivial
  | blank => exact Grammar.knows_word? label
  | literal => exact fun l hl => Grammar.knows_word? (language l hl)

/-- The plain grammar knows every label and every language without a blank. -/
theorem Triple.isKnown_plain {t : Triple} (writable : t.IsWritable) (labels : t.HasPlainLabels) :
    t.IsKnown .plain :=
  ⟨.inl rfl, Term.isKnown_plain labels.subject writable.subject.language,
    Term.isKnown_plain labels.object writable.object.language⟩

end LinkedDeposit
