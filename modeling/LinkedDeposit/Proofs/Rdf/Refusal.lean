import LinkedDeposit.Rdf.JsonLd

/-!
# How a document is refused

Whatever a JSON-LD document holds, the reader fails in one way: it refuses the package, for a reason.
`OnlyRefuses` says so of a step of the reader, and a sequence of such steps is one
(`OnlyRefuses.bind`).

Results:
* `onlyRefuses_readValue`: reading a value, and with it everything below, only refuses.
* `toGraph_refuses`: so does reading a document.
-/

namespace LinkedDeposit.JsonLd

/-- An error that refuses the package. -/
def IsRefusal (e : DepositError) : Prop := ∃ reason, e = .invalidPackage reason

/-- The only failures of a step are refusals. -/
def OnlyRefuses {α : Type} (a : Reader α) : Prop :=
  ∀ used reading e, (a.run used).run reading = .error e → IsRefusal e

section Steps

variable {α β : Type}

theorem OnlyRefuses.pure (v : α) : OnlyRefuses (Pure.pure v : Reader α) :=
  fun _ _ _ h => by cases h

theorem OnlyRefuses.bind {a : Reader α} {f : α → Reader β} (first : OnlyRefuses a)
    (next : ∀ v, OnlyRefuses (f v)) : OnlyRefuses (a >>= f) := by
  intro used reading e h
  rw [ReaderT.run_bind, StateT.run_bind] at h
  cases ha : (a.run used).run reading with
  | error e' =>
    rw [ha] at h
    obtain rfl : e' = e := Except.error.inj h
    exact first used reading e' ha
  | ok p =>
    rw [ha] at h
    exact next p.1 used p.2 e h

/-- What is computed beside the document may refuse it, too. -/
theorem OnlyRefuses.lift {v : Except DepositError α} (h : ∀ e, v = .error e → IsRefusal e) :
    OnlyRefuses (liftM v : Reader α) := by
  intro used reading e he
  cases v with
  | error e' =>
    obtain rfl : e' = e := Except.error.inj he
    exact h e' rfl
  | ok v => cases he

theorem OnlyRefuses.refuse (reason : String) : OnlyRefuses (JsonLd.refuse reason : Reader α) := by
  intro used reading e he
  obtain rfl : DepositError.invalidPackage reason = e := Except.error.inj he
  exact ⟨reason, rfl⟩

theorem OnlyRefuses.emit (subject : Term) (predicate : String) (object : Term) :
    OnlyRefuses (JsonLd.emit subject predicate object) :=
  fun _ _ _ h => by cases h

theorem OnlyRefuses.freshBlank : OnlyRefuses JsonLd.freshBlank :=
  fun _ _ _ h => by cases h

theorem OnlyRefuses.forM {f : α → Reader PUnit} (l : List α) (each : ∀ v, OnlyRefuses (f v)) :
    OnlyRefuses (l.forM f) := by
  induction l with
  | nil => exact .pure _
  | cons v l ih => exact (each v).bind fun _ => ih

end Steps

/-! ## IRIs and terms -/

theorem checkIri_refuses {i : String} {e : DepositError} (h : checkIri i = .error e) :
    IsRefusal e := by
  unfold checkIri at h
  split at h
  · exact ⟨_, (Except.error.inj h).symm⟩
  · cases h

/-- What is done with an IRI that can be written cannot fail. -/
theorem map_checkIri_refuses {α : Type} {i : String} {f : Unit → α} {e : DepositError}
    (h : (checkIri i).map f = .error e) : IsRefusal e := by
  cases hc : checkIri i with
  | error e' =>
    rw [hc] at h
    exact Except.error.inj h ▸ checkIri_refuses hc
  | ok u =>
    rw [hc] at h
    cases h

theorem idTerm_refuses {id : String} {e : DepositError} (h : idTerm id = .error e) :
    IsRefusal e := by
  unfold idTerm at h
  split at h
  · cases h
  · exact map_checkIri_refuses h

theorem literal_refuses {value : Json} {members : List (String × Json)} {e : DepositError}
    (h : literal value members = .error e) : IsRefusal e := by
  unfold literal at h
  dsimp only at h
  cases language : (Json.member? "@language" members).bind Json.string? with
  | some l =>
    rw [language] at h
    cases h
  | none =>
    rw [language] at h
    cases datatype : (Json.member? "@type" members).bind Json.string? with
    | some d =>
      rw [datatype] at h
      exact map_checkIri_refuses h
    | none =>
      rw [datatype] at h
      cases h

theorem reference?_refuses {members : List (String × Json)} {term : Except DepositError Term}
    (h : reference? members = some term) {e : DepositError} (he : term = .error e) :
    IsRefusal e := by
  subst he
  unfold reference? at h
  split at h
  · exact literal_refuses (Option.some.inj h)
  · exact idTerm_refuses (Option.some.inj h)
  · cases h

/-! ## Nodes -/

theorem onlyRefuses_subject (members : List (String × Json)) : OnlyRefuses (subject members) := by
  unfold subject
  split
  · exact .lift fun _ => idTerm_refuses
  · exact .refuse _
  · exact .freshBlank

theorem onlyRefuses_emitTypes (s : Term) (members : List (String × Json)) :
    OnlyRefuses (emitTypes s members) := by
  have one (type : String) : OnlyRefuses (do
      liftM (checkIri type)
      JsonLd.emit s Vocabulary.rdfType (.iri type)) :=
    (OnlyRefuses.lift fun _ => checkIri_refuses).bind fun _ => OnlyRefuses.emit s _ _
  unfold emitTypes
  split
  · exact one _
  · exact .forM _ one
  · exact .pure _

mutual

/-- **Reading a value only refuses**, and so does reading everything below it. -/
theorem onlyRefuses_readValue (v : Json) : OnlyRefuses (readValue v) := by
  cases v with
  | string s => exact .pure _
  | bool b => exact .pure _
  | number n => exact .pure _
  | null => exact .refuse _
  | array items => exact .refuse _
  | object members =>
    unfold readValue
    split
    case h_1 term h => exact .lift fun e => reference?_refuses h
    case h_2 =>
      exact (onlyRefuses_subject members).bind fun s => (onlyRefuses_emitTypes s members).bind
        fun _ => (onlyRefuses_readMembers s members).bind fun _ => .pure s

theorem onlyRefuses_readMembers (s : Term) (members : List (String × Json)) :
    OnlyRefuses (readMembers s members) := by
  cases members with
  | nil => exact .pure _
  | cons member rest =>
    obtain ⟨name, v⟩ := member
    have others := onlyRefuses_readMembers s rest
    unfold readMembers
    dsimp only
    split
    · refine (OnlyRefuses.lift fun _ => checkIri_refuses).bind fun _ => ?_
      split
      case h_1 items => exact (onlyRefuses_readItems s name items).bind fun _ => others
      case h_2 =>
        exact (onlyRefuses_readValue v).bind fun term =>
          (OnlyRefuses.emit s name term).bind fun _ => others
    · exact others

theorem onlyRefuses_readItems (s : Term) (predicate : String) (items : List Json) :
    OnlyRefuses (readItems s predicate items) := by
  cases items with
  | nil => exact .pure _
  | cons v rest =>
    exact (onlyRefuses_readValue v).bind fun term => (OnlyRefuses.emit s predicate term).bind
      fun _ => onlyRefuses_readItems s predicate rest

end

theorem onlyRefuses_readNode (v : Json) : OnlyRefuses (readNode v) := by
  unfold readNode
  split
  · exact (onlyRefuses_subject _).bind fun s => (onlyRefuses_emitTypes s _).bind fun _ =>
      onlyRefuses_readMembers s _
  · exact .refuse _

/-- **A document that cannot be read is refused.** -/
theorem toGraph_refuses {doc : Json} {e : DepositError} (h : toGraph doc = .error e) :
    IsRefusal e := by
  have reads : OnlyRefuses (readDocument doc) := by
    unfold readDocument
    split
    · exact .forM _ onlyRefuses_readNode
    · split
      · exact .forM _ onlyRefuses_readNode
      · exact .refuse _
      · exact onlyRefuses_readNode _
    · exact .refuse _
  unfold toGraph at h
  cases hr : ((readDocument doc).run (blankLabels doc)).run ⟨Graph.empty, 0⟩ with
  | error e' =>
    rw [hr] at h
    exact Except.error.inj h ▸ reads _ _ e' hr
  | ok p =>
    rw [hr] at h
    cases h

end LinkedDeposit.JsonLd
