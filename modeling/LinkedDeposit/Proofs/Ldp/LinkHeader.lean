import LinkedDeposit.Ldp.LinkHeader
import LinkedDeposit.Proofs.Text.Cutting

/-!
# Link headers that are read back

A link is written as its target between angle brackets and its relations, with blanks between them,
between quotes. Commas part the links of a header, and blanks may stand around every comma and
semicolon (`WrittenLink`, `header`).

The reader cuts a header at its commas before it looks for brackets. A target that holds a comma is
cut into pieces, none of which is a link, so its link is lost. The links beside it are not: what is
read are the links whose targets have no comma, in their order.

Results:
* `relationsOf_parameter`, `ofPart?_text`: the relations of a link, and the link.
* `linksOf_text`: a link in front of others.
* `header_reads_back`: a whole header, and the look-up of a relation in it.
* `comma_loses_link`: a target with a comma.
-/

namespace LinkedDeposit.Ldp

open Text (isBlank trimBlank trimBoth splitAt words)

/-! ## Writing headers -/

/-- A link as it is written. -/
structure WrittenLink where
  target : String
  /-- The relations, each with the blanks in front of it. -/
  relations : List (List Char × String)
  /-- What stands in front of the link. -/
  front : List Char
  /-- What stands between the target and its semicolon. -/
  middle : List Char
  /-- What stands behind the semicolon. -/
  inner : List Char
  /-- What stands behind the link. -/
  back : List Char

namespace WrittenLink

def link (w : WrittenLink) : Link := ⟨w.target, w.relations.map (·.2)⟩

/-- What stands between the quotes. -/
def listed (w : WrittenLink) : List Char := w.relations.flatMap fun r => r.1 ++ r.2.toList

/-- The parameter that names the relations. -/
def parameter (w : WrittenLink) : List Char := ['r', 'e', 'l', '=', '"'] ++ w.listed ++ ['"']

/-- What stands behind the target's bracket. -/
def parameters (w : WrittenLink) : List Char := w.middle ++ ';' :: (w.inner ++ w.parameter)

def text (w : WrittenLink) : List Char :=
  w.front ++ '<' :: (w.target.toList ++ '>' :: w.parameters) ++ w.back

end WrittenLink

/-- The header that writes some links. -/
def header (ws : List WrittenLink) : String :=
  String.ofList ([','].intercalate (ws.map WrittenLink.text))

/-- A character of a relation. -/
def IsTokenChar (c : Char) : Prop :=
  isBlank c = false ∧ c ≠ '"' ∧ c ≠ ',' ∧ c ≠ ';' ∧ c.toLower = c

instance : DecidablePred IsTokenChar :=
  fun c => inferInstanceAs (Decidable (isBlank c = false ∧ _))

/-- A link that is written as links are: its target has no bracket and no blank, its relations are
in small letters and have no blank between two letters, and what stands between its parts is
blank. -/
structure WrittenLink.IsSpelled (w : WrittenLink) : Prop where
  target : ∀ c ∈ w.target.toList, c ≠ '<' ∧ c ≠ '>' ∧ isBlank c = false
  relations : ∀ r ∈ w.relations, r.2.toList ≠ [] ∧ ∀ c ∈ r.2.toList, IsTokenChar c
  gaps : ∀ r ∈ w.relations, ∀ c ∈ r.1, isBlank c = true
  /-- Something stands between two relations. -/
  apart : ∀ r ∈ w.relations.tail, r.1 ≠ []
  blanks : ∀ c ∈ w.front ++ w.middle ++ w.inner ++ w.back, isBlank c = true

instance (w : WrittenLink) : Decidable w.IsSpelled :=
  decidable_of_iff
    ((∀ c ∈ w.target.toList, c ≠ '<' ∧ c ≠ '>' ∧ isBlank c = false) ∧
      (∀ r ∈ w.relations, r.2.toList ≠ [] ∧ ∀ c ∈ r.2.toList, IsTokenChar c) ∧
      (∀ r ∈ w.relations, ∀ c ∈ r.1, isBlank c = true) ∧ (∀ r ∈ w.relations.tail, r.1 ≠ []) ∧
      ∀ c ∈ w.front ++ w.middle ++ w.inner ++ w.back, isBlank c = true)
    ⟨fun ⟨target, relations, gaps, apart, blanks⟩ => ⟨target, relations, gaps, apart, blanks⟩,
      fun h => ⟨h.target, h.relations, h.gaps, h.apart, h.blanks⟩⟩

/-! ## Characters -/

theorem ne_of_isBlank {c d : Char} (blank : isBlank c = true) (plain : isBlank d = false) :
    c ≠ d := by
  rintro rfl
  rw [blank] at plain
  cases plain

namespace WrittenLink

variable {w : WrittenLink}

theorem mem_listed (h : w.IsSpelled) {c : Char} (hc : c ∈ w.listed) :
    c ≠ '"' ∧ c ≠ ',' ∧ c ≠ ';' := by
  obtain ⟨r, hr, hc⟩ := List.mem_flatMap.mp hc
  rcases List.mem_append.mp hc with hc | hc
  · have blank := h.gaps r hr c hc
    exact ⟨ne_of_isBlank blank rfl, ne_of_isBlank blank rfl, ne_of_isBlank blank rfl⟩
  · obtain ⟨-, noQuote, noComma, noSemicolon, -⟩ := (h.relations r hr).2 c hc
    exact ⟨noQuote, noComma, noSemicolon⟩

theorem mem_parameter (h : w.IsSpelled) {c : Char} (hc : c ∈ w.parameter) : c ≠ ',' ∧ c ≠ ';' := by
  simp only [parameter, List.mem_append, List.mem_cons] at hc
  by_cases listed : c ∈ w.listed
  · exact (mem_listed h listed).2
  · constructor <;> rintro rfl <;> simp [listed] at hc

theorem blank_front (h : w.IsSpelled) : ∀ c ∈ w.front, isBlank c = true :=
  fun c hc => h.blanks c (by simp [hc])

theorem blank_middle (h : w.IsSpelled) : ∀ c ∈ w.middle, isBlank c = true :=
  fun c hc => h.blanks c (by simp [hc])

theorem blank_inner (h : w.IsSpelled) : ∀ c ∈ w.inner, isBlank c = true :=
  fun c hc => h.blanks c (by simp [hc])

theorem blank_back (h : w.IsSpelled) : ∀ c ∈ w.back, isBlank c = true :=
  fun c hc => h.blanks c (by simp [hc])

/-- There is no comma behind the target. -/
theorem mem_parameters (h : w.IsSpelled) {c : Char} (hc : c ∈ w.parameters ++ w.back) :
    c ≠ ',' := by
  have blank : ∀ {c}, isBlank c = true → c ≠ ',' := fun blank => ne_of_isBlank blank rfl
  simp only [parameters, List.mem_append, List.mem_cons] at hc
  rcases hc with (hc | rfl | hc | hc) | hc
  · exact blank (blank_middle h c hc)
  · decide
  · exact blank (blank_inner h c hc)
  · exact (mem_parameter h hc).1
  · exact blank (blank_back h c hc)

end WrittenLink

/-! ## Reading one link -/

/-- Relations are the words between the quotes. -/
theorem words_relations {rs : List (List Char × String)}
    (tokens : ∀ r ∈ rs, r.2.toList ≠ [] ∧ ∀ c ∈ r.2.toList, IsTokenChar c)
    (gaps : ∀ r ∈ rs, ∀ c ∈ r.1, isBlank c = true) (apart : ∀ r ∈ rs.tail, r.1 ≠ []) :
    words (rs.flatMap fun r => r.1 ++ r.2.toList) = rs.map (·.2.toList) := by
  induction rs with
  | nil => rfl
  | cons r rs ih =>
    obtain ⟨⟨nonempty, token⟩, tokens⟩ := List.forall_mem_cons.mp tokens
    obtain ⟨gap, gaps⟩ := List.forall_mem_cons.mp gaps
    have ends : ∀ c ∈ (rs.flatMap fun r => r.1 ++ r.2.toList).head?, isBlank c = true := by
      cases rs with
      | nil => nofun
      | cons r' rs =>
        obtain ⟨b, gap', first⟩ := List.exists_cons_of_ne_nil (apart r' List.mem_cons_self)
        intro c hc
        simp only [List.flatMap_cons, first, List.cons_append, List.head?_cons,
          Option.mem_some_iff] at hc
        exact gaps r' List.mem_cons_self c (by simp [first, hc])
    rw [List.flatMap_cons, List.append_assoc, Text.words_blank_append gap,
      Text.words_token_append nonempty (fun c hc => (token c hc).1) ends,
      ih tokens gaps fun r' hr' => apart r' (List.mem_of_mem_tail hr')]
    rfl

namespace WrittenLink

variable {w : WrittenLink}

/-- Nothing is cut behind a quote. -/
theorem solid_quote (s : List Char) : ∀ c ∈ (s ++ ['"']).getLast?, isBlank c = false := by
  rw [List.getLast?_concat]
  rintro c ⟨⟩
  rfl

/-- **The relations of a link** are read from its parameter. -/
theorem relationsOf_parameter (h : w.IsSpelled) :
    Link.relationsOf (w.inner ++ w.parameter) = w.relations.map (·.2) := by
  have trimmed : trimBlank (w.inner ++ w.parameter) = w.parameter := by
    have := Text.trimBoth_append (p := isBlank) (s := w.parameter) (b := []) (blank_inner h) nofun
      (by simp [parameter]; decide) (solid_quote _)
    rwa [List.append_nil] at this
  have value : Text.afterPrefix? ['r', 'e', 'l', '='] w.parameter =
      some (['"'] ++ w.listed ++ ['"']) :=
    Text.afterPrefix?_eq_some_iff.mpr (by simp [parameter])
  have unquoted : trimBoth (· = '"') (['"'] ++ w.listed ++ ['"']) = w.listed := by
    have plain : ∀ c ∈ w.listed, decide (c = '"') = false :=
      fun c hc => decide_eq_false (mem_listed h hc).1
    exact Text.trimBoth_append (by simp) (by simp) (fun c hc => plain c (List.mem_of_head? hc))
      fun c hc => plain c (List.mem_of_getLast? hc)
  have listed : words w.listed = w.relations.map (·.2.toList) :=
    words_relations h.relations h.gaps h.apart
  unfold Link.relationsOf
  rw [trimmed, value]
  simp only [unquoted, listed, List.map_map]
  refine List.map_congr_left fun r hr => ?_
  have small : r.2.toList.map Char.toLower = r.2.toList :=
    (List.map_congr_left fun c hc => ((h.relations r hr).2 c hc).2.2.2.2).trans (List.map_id _)
  simp [small]

/-- A blank parameter names no relations. -/
theorem relationsOf_blank {s : List Char} (blank : ∀ c ∈ s, isBlank c = true) :
    Link.relationsOf s = [] := by
  have nothing : trimBlank s = [] := Text.trimBoth_eq_nil blank
  unfold Link.relationsOf
  rw [nothing]
  rfl

/-- The parameters of a link name its relations. -/
theorem relationsOf_parameters (h : w.IsSpelled) :
    (splitAt (· = ';') w.parameters).flatMap Link.relationsOf = w.relations.map (·.2) := by
  have middle : ∀ c ∈ w.middle, decide (c = ';') = false :=
    fun c hc => decide_eq_false (ne_of_isBlank (blank_middle h c hc) rfl)
  have rest : ∀ c ∈ w.inner ++ w.parameter, decide (c = ';') = false := by
    intro c hc
    refine decide_eq_false ?_
    rcases List.mem_append.mp hc with hc | hc
    · exact ne_of_isBlank (blank_inner h c hc) rfl
    · exact (mem_parameter h hc).2
  rw [parameters, Text.splitAt_append (by simp) middle, Text.splitAt_whole rest]
  simp [relationsOf_blank (blank_middle h), relationsOf_parameter h]

/-- **A written link is read back** where it is a part of a header. -/
theorem ofPart?_text (h : w.IsSpelled) : Link.ofPart? w.text = some w.link := by
  have trimmed : trimBlank w.text = '<' :: (w.target.toList ++ '>' :: w.parameters) := by
    refine Text.trimBoth_append (blank_front h) (blank_back h) (by simp; decide) ?_
    have quote : '<' :: (w.target.toList ++ '>' :: w.parameters) =
        '<' :: (w.target.toList ++ '>' :: (w.middle ++
          ';' :: (w.inner ++ (['r', 'e', 'l', '=', '"'] ++ w.listed)))) ++ ['"'] := by
      simp [parameters, parameter]
    rw [quote]
    exact solid_quote _
  have target : (w.target.toList ++ '>' :: w.parameters).takeWhile (· ≠ '>') = w.target.toList :=
    Text.takeWhile_append_stop (fun c hc => by simp [(h.target c hc).2.1]) (by simp)
  unfold Link.ofPart?
  rw [trimmed]
  simp only [target, List.drop_left, relationsOf_parameters h, String.ofList_toList]
  rfl

end WrittenLink

/-! ## Parts that are no links -/

/-- A target without its end is no link. -/
theorem ofPart?_open {front a : List Char} (blank : ∀ c ∈ front, isBlank c = true)
    (plain : ∀ c ∈ a, c ≠ '>' ∧ isBlank c = false) : Link.ofPart? (front ++ '<' :: a) = none := by
  have solid : ∀ c ∈ '<' :: a, isBlank c = false :=
    List.forall_mem_cons.mpr ⟨rfl, fun c hc => (plain c hc).2⟩
  have trimmed : trimBlank (front ++ '<' :: a) = '<' :: a := by
    have := Text.trimBoth_append (p := isBlank) (s := '<' :: a) (b := []) blank nofun
      (fun c hc => solid c (List.mem_of_head? hc)) fun c hc => solid c (List.mem_of_getLast? hc)
    rwa [List.append_nil] at this
  have target : a.takeWhile (· ≠ '>') = a :=
    List.takeWhile_eq_self_iff.mpr fun c hc => by simp [(plain c hc).1]
  unfold Link.ofPart?
  rw [trimmed]
  simp only [target, List.drop_length]

/-- What does not begin with a bracket is no link. -/
theorem ofPart?_headless {s : List Char} (head : ∀ c ∈ s.head?, c ≠ '<' ∧ isBlank c = false) :
    Link.ofPart? s = none := by
  cases s with
  | nil => rfl
  | cons c s =>
    obtain ⟨noBracket, solid⟩ := head c rfl
    have trimmed : trimBlank (c :: s) = c :: Text.trimRight isBlank s := by
      have kept : (c :: s).dropWhile isBlank = c :: s :=
        Text.dropWhile_eq_self (by simpa using solid)
      have cut := Text.trimRight_append (p := isBlank) (a := [c]) s (by simpa using solid)
      unfold trimBlank trimBoth
      rw [kept]
      exact cut
    unfold Link.ofPart?
    rw [trimmed]
    split
    · case h_1 same => exact absurd (List.cons.inj same).1 noBracket
    · rfl

/-! ## Reading headers -/

/-- The links of a header that is given by its characters. -/
def linksOf (s : List Char) : List Link := (splitAt (· = ',') s).filterMap Link.ofPart?

/-- A part without a comma is read by itself. -/
theorem linksOf_append {part : List Char} (whole : ∀ c ∈ part, c ≠ ',') (rest : List Char) :
    linksOf (part ++ ',' :: rest) = (Link.ofPart? part).toList ++ linksOf rest := by
  have stops : decide (',' = ',') = true := rfl
  have cut := Text.splitAt_append (p := fun c => decide (c = ',')) stops
    (fun c hc => decide_eq_false (whole c hc)) rest
  unfold linksOf
  rw [cut, List.filterMap_cons]
  cases Link.ofPart? part <;> rfl

/-- A comma at the end makes no difference. -/
theorem linksOf_concat (s : List Char) : linksOf (s ++ [',']) = linksOf s := by
  have stops : decide (',' = ',') = true := rfl
  have cut := Text.splitAt_concat (p := fun c => decide (c = ',')) stops s
  have empty : Link.ofPart? [] = none := rfl
  unfold linksOf
  rw [cut, List.filterMap_append, List.filterMap_cons, empty, List.filterMap_nil, List.append_nil]

/-- The end of a target, with what is behind it, is no link, into however many pieces it is cut. -/
theorem linksOf_torn {a tail : List Char} (plain : ∀ c ∈ a, c ≠ '<' ∧ isBlank c = false)
    (whole : ∀ c ∈ tail, c ≠ ',') (rest : List Char) :
    linksOf (a ++ '>' :: tail ++ ',' :: rest) = linksOf rest := by
  by_cases comma : ',' ∈ a
  · obtain ⟨piece, others, parts, first⟩ := List.eq_append_cons_of_mem comma
    rw [parts] at plain
    obtain ⟨pieces, behind⟩ := List.forall_mem_append.mp plain
    have none : Link.ofPart? piece = none :=
      ofPart?_headless fun c hc => pieces c (List.mem_of_head? hc)
    have front : ∀ c ∈ piece, c ≠ ',' := by
      rintro c hc rfl
      exact first hc
    have cut := linksOf_append front (others ++ '>' :: tail ++ ',' :: rest)
    rw [none, linksOf_torn (fun c hc => behind c (List.mem_cons_of_mem _ hc)) whole] at cut
    rw [parts]
    simpa using cut
  · have none : Link.ofPart? (a ++ '>' :: tail) = none := by
      refine ofPart?_headless fun c hc => ?_
      cases a with
      | nil =>
        obtain rfl : '>' = c := by simpa using hc
        decide
      | cons d a =>
        obtain rfl : d = c := by simpa using hc
        exact plain d List.mem_cons_self
    rw [linksOf_append, none]
    · rfl
    · intro c hc
      rcases List.mem_append.mp hc with hc | hc
      · rintro rfl
        exact comma hc
      · rcases List.mem_cons.mp hc with rfl | hc
        · decide
        · exact whole c hc
  termination_by a.length
  decreasing_by
    rw [parts, List.length_append, List.length_cons]
    omega

/-- Whether the reader gets a link: its target has no comma. -/
def IsReadable (l : Link) : Bool := !l.target.toList.contains ','

namespace WrittenLink

variable {w : WrittenLink}

/-- **A link in front of others** is read, unless its target has a comma, and does not touch them. -/
theorem linksOf_text (h : w.IsSpelled) (rest : List Char) :
    linksOf (w.text ++ ',' :: rest) = [w.link].filter IsReadable ++ linksOf rest := by
  by_cases comma : ',' ∈ w.target.toList
  · obtain ⟨piece, others, cut, first⟩ := List.eq_append_cons_of_mem comma
    have plain := h.target
    rw [cut] at plain
    obtain ⟨pieces, behind⟩ := List.forall_mem_append.mp plain
    have lost : [w.link].filter IsReadable = [] := by simp [IsReadable, link, comma]
    have opened : Link.ofPart? (w.front ++ '<' :: piece) = none :=
      ofPart?_open (blank_front h) fun c hc => (pieces c hc).2
    have text : w.text ++ ',' :: rest = (w.front ++ '<' :: piece) ++
        ',' :: (others ++ '>' :: (w.parameters ++ w.back) ++ ',' :: rest) := by
      simp [WrittenLink.text, cut]
    rw [text, linksOf_append, opened, linksOf_torn _ fun c hc => mem_parameters h hc, lost]
    · rfl
    · exact fun c hc => ⟨(behind c (List.mem_cons_of_mem _ hc)).1,
        (behind c (List.mem_cons_of_mem _ hc)).2.2⟩
    · intro c hc
      rcases List.mem_append.mp hc with hc | hc
      · exact ne_of_isBlank (blank_front h c hc) rfl
      · rcases List.mem_cons.mp hc with rfl | hc
        · decide
        · rintro rfl
          exact first hc
  · have read : [w.link].filter IsReadable = [w.link] := by simp [IsReadable, link, comma]
    rw [linksOf_append, ofPart?_text h, read]
    · rfl
    · intro c hc
      simp only [WrittenLink.text, List.append_assoc, List.mem_append, List.mem_cons,
        List.cons_append] at hc
      rcases hc with hc | rfl | hc | rfl | hc
      · exact ne_of_isBlank (blank_front h c hc) rfl
      · decide
      · rintro rfl
        exact comma hc
      · decide
      · exact mem_parameters h (List.mem_append.mpr hc)

end WrittenLink

/-- What is read of written links. -/
theorem linksOf_header {ws : List WrittenLink} (spelled : ∀ w ∈ ws, w.IsSpelled) :
    linksOf ([','].intercalate (ws.map WrittenLink.text)) =
      (ws.map WrittenLink.link).filter IsReadable := by
  induction ws with
  | nil => rfl
  | cons w ws ih =>
    obtain ⟨first, others⟩ := List.forall_mem_cons.mp spelled
    have apart : ((w :: ws).map WrittenLink.link).filter IsReadable =
        [w.link].filter IsReadable ++ (ws.map WrittenLink.link).filter IsReadable := by
      rw [← List.filter_append]
      rfl
    rw [apart, List.map_cons]
    cases ws with
    | nil =>
      have read := WrittenLink.linksOf_text first []
      rw [linksOf_concat] at read
      rw [List.map_nil, List.intercalate_singleton, read]
      rfl
    | cons w' ws =>
      rw [List.map_cons, List.intercalate_cons_cons, List.append_assoc, List.singleton_append,
        WrittenLink.linksOf_text first, ← ih others]
      rfl

/-- **A header is read back** except for the links whose targets have a comma. What is read are the
other links, in their order, with their relations; so the whole header is read exactly if there is
no such target. A relation leads to the first of the links that are read and have it. -/
theorem header_reads_back (ws : List WrittenLink) (spelled : ∀ w ∈ ws, w.IsSpelled) :
    let read := (ws.map WrittenLink.link).filter IsReadable
    Link.ofHeader (header ws) = read ∧
      (Link.ofHeader (header ws) = ws.map WrittenLink.link ↔
        ∀ w ∈ ws, ',' ∉ w.target.toList) ∧
      ∀ relation, Link.find? relation (header ws) =
        (read.find? fun l => relation ∈ l.relations).map (·.target) := by
  have links : Link.ofHeader (header ws) = (ws.map WrittenLink.link).filter IsReadable := by
    rw [← linksOf_header spelled, header, Link.ofHeader, String.toList_ofList]
    rfl
  refine ⟨links, ?_, fun relation => ?_⟩
  · rw [links, List.filter_eq_self, List.forall_mem_map]
    simp [IsReadable, WrittenLink.link]
  · rw [Link.find?, links]
    simp only [List.contains_eq_mem]

/-- The links of a description and of a type, and one whose target has a comma. -/
def threeLinks : List WrittenLink :=
  [⟨"http://r/b;v=1/d", [([], "describedby"), ([' ', ' '], "edit")], [], [' '], [], [' ']⟩,
    ⟨"http://r/b,c", [([], "up")], [' '], [], [' '], []⟩,
    ⟨"http://www.w3.org/ns/ldp#NonRDFSource", [([], "type")], [' '], [], [], []⟩]

theorem header_reads_back_threeLinks :
    header threeLinks = "<http://r/b;v=1/d> ;rel=\"describedby  edit\" , <http://r/b,c>; rel=\"up\"" ++
      ", <http://www.w3.org/ns/ldp#NonRDFSource>;rel=\"type\"" ∧
    (∀ w ∈ threeLinks, w.IsSpelled) ∧
    Link.ofHeader (header threeLinks) = [⟨"http://r/b;v=1/d", ["describedby", "edit"]⟩,
      ⟨"http://www.w3.org/ns/ldp#NonRDFSource", ["type"]⟩] ∧
    Link.find? "type" (header threeLinks) = some "http://www.w3.org/ns/ldp#NonRDFSource" := by
  have spelled : ∀ w ∈ threeLinks, w.IsSpelled := by decide +kernel
  obtain ⟨links, -, found⟩ := header_reads_back threeLinks spelled
  exact ⟨by decide +kernel, spelled, links, found "type"⟩

/-- **A comma in a target loses the link**, though it may stand in a URI. -/
theorem comma_loses_link :
    let w : WrittenLink := ⟨"http://repo/rest/a,b", [([], "describedby")], [], [], [' '], []⟩
    w.IsSpelled ∧ header [w] = "<http://repo/rest/a,b>; rel=\"describedby\"" ∧
      w.link = ⟨"http://repo/rest/a,b", ["describedby"]⟩ ∧
      Link.ofHeader (header [w]) = [] ∧ Link.find? "describedby" (header [w]) = none := by
  decide +kernel

end LinkedDeposit.Ldp
