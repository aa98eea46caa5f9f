import LinkedDeposit.Json.Document
import LinkedDeposit.Proofs.Json.Quoting
import LinkedDeposit.Proofs.Text.Cutting

/-!
# Written records

A record of texts is written as an object, in which a text that is absent has no member. It is read
back from that object by the names of its fields, whatever characters are in the texts, and the
object stays on one line.

Results:
* `value_writeTexts`: an object of texts is parsed, whatever follows.
* `parse_writeTexts`: so it is as a whole text.
* `fieldsByName_present`: the fields that are there are found by their names, the others are absent.
* `record?_writeTexts`: a written record is read back field by field.
-/

namespace LinkedDeposit.Json

/-- An object of texts, written with its members in the given order. -/
def writeTexts (ms : List (String × String)) : String :=
  writeRecord (ms.map fun m => (m.1, quote m.2))

/-- What a parser makes of a text. -/
def Source.ofText (s : String) : Source := .string (escaped s)

/-- What a parser makes of the members of an object of texts. -/
def Source.membersOf (ms : List (String × String)) : List (List Char × Source) :=
  ms.map fun m => (escaped m.1, .ofText m.2)

/-- A member of an object of texts, written. -/
def memberText (m : String × String) : List Char :=
  '"' :: escaped m.1 ++ '"' :: ':' :: '"' :: escaped m.2 ++ ['"']

/-- The members of an object of texts, written. -/
def membersText (ms : List (String × String)) : List Char := [','].intercalate (ms.map memberText)

theorem membersText_singleton (m : String × String) : membersText [m] = memberText m :=
  List.intercalate_singleton

theorem membersText_cons_cons (m m' : String × String) (ms : List (String × String)) :
    membersText (m :: m' :: ms) = memberText m ++ ',' :: membersText (m' :: ms) := by
  simp [membersText, List.intercalate_cons_cons]

theorem writeTexts_toList (ms : List (String × String)) :
    (writeTexts ms).toList = '\x7b' :: membersText ms ++ ['\x7d'] := by
  have each (m : String × String) : (quote m.1 ++ ":" ++ quote m.2).toList = memberText m := by
    simp [quote_toList, memberText]
  simp [writeTexts, writeRecord, String.toList_intercalate, membersText, Function.comp_def, each]

/-! ## Parsing -/

theorem skipSpace_cons {c : Char} (token : isSpace c = false) (s : List Char) :
    skipSpace (c :: s) = c :: s := by
  simp [skipSpace, token]

/-- **A written text is parsed**, whatever follows. -/
theorem value_quote (s : String) (fuel : Nat) (rest : List Char) :
    value (fuel + 1) ('"' :: escaped s ++ '"' :: rest) = some (.ofText s, rest) := by
  rw [value, List.cons_append, skipSpace_cons rfl]
  simp [stringBody_escaped, Source.ofText]

/-- A written member is parsed up to what follows it. -/
theorem members_memberText (m : String × String) (fuel : Nat) (s : List Char) :
    members (fuel + 2) (memberText m ++ s) =
      match skipSpace s with
      | '\x7d' :: s => some (Source.membersOf [m], s)
      | ',' :: s => (members (fuel + 1) s).map fun (ms, s) => (Source.membersOf [m] ++ ms, s)
      | _ => none := by
  have name := stringBody_escaped m.1 (':' :: '"' :: escaped m.2 ++ '"' :: s)
  have text := value_quote m.2 fuel s
  have shape : memberText m ++ s =
      '"' :: (escaped m.1 ++ '"' :: (':' :: '"' :: escaped m.2 ++ '"' :: s)) := by
    simp [memberText]
  rw [shape, members, skipSpace_cons rfl]
  simp only [name]
  rw [List.cons_append, skipSpace_cons rfl]
  simp only [text]
  rfl

/-- **Written members are parsed** up to the closing brace, whatever follows. -/
theorem members_membersText (m : String × String) (ms : List (String × String)) {fuel : Nat}
    (enough : ms.length + 2 ≤ fuel) (rest : List Char) :
    members fuel (membersText (m :: ms) ++ '\x7d' :: rest) =
      some (Source.membersOf (m :: ms), rest) := by
  -- a member takes one, and leaves its value at least one
  obtain ⟨fuel, rfl⟩ := Nat.exists_eq_add_of_le' (le_trans (Nat.le_add_left 2 _) enough)
  induction ms generalizing m fuel with
  | nil =>
    rw [membersText_singleton, members_memberText, skipSpace_cons rfl]
    rfl
  | cons m' ms ih =>
    rw [List.length_cons] at enough
    have more := ih m' (fuel - 1) (by omega)
    rw [show fuel - 1 + 2 = fuel + 1 by omega] at more
    rw [membersText_cons_cons, List.append_assoc, members_memberText, List.cons_append,
      skipSpace_cons rfl]
    simp only [more]
    rfl

/-- An object of texts is parsed, whatever follows. -/
theorem value_writeTexts (ms : List (String × String)) {fuel : Nat}
    (enough : ms.length + 2 ≤ fuel) (rest : List Char) :
    value fuel ((writeTexts ms).toList ++ rest) = some (.object (Source.membersOf ms), rest) := by
  obtain ⟨fuel, rfl⟩ := Nat.exists_eq_add_of_le' (le_trans (Nat.le_add_left 1 _) enough)
  rw [writeTexts_toList, value, List.append_assoc, List.cons_append, skipSpace_cons rfl]
  cases ms with
  | nil => rfl
  | cons m ms =>
    rw [List.length_cons] at enough
    have read := members_membersText m ms (by omega : ms.length + 2 ≤ fuel) rest
    -- the quote that follows the brace tells this object from an empty one
    have begins : ∃ s, membersText (m :: ms) ++ '\x7d' :: rest = '"' :: s := by
      cases ms <;> simp [membersText_singleton, membersText_cons_cons, memberText]
    obtain ⟨s, begins⟩ := begins
    rw [List.singleton_append]
    rw [begins] at read ⊢
    exact congrArg (Option.map fun (ms, s) => (Source.object ms, s)) read

theorem length_le_membersText (ms : List (String × String)) :
    ms.length ≤ (membersText ms).length := by
  induction ms with
  | nil => exact Nat.zero_le _
  | cons m ms ih =>
    cases ms with
    | nil => simp [membersText_singleton, memberText]
    | cons m' ms =>
      simp only [membersText_cons_cons, List.length_append, List.length_cons] at ih ⊢
      omega

/-- **A written object of texts is parsed.** -/
theorem parse_writeTexts (ms : List (String × String)) :
    parse (writeTexts ms).toList = some (.object (Source.membersOf ms)) := by
  have long := length_le_membersText ms
  have enough : ms.length + 2 ≤ 2 * (writeTexts ms).toList.length + 2 := by
    rw [writeTexts_toList, List.length_append, List.length_cons]
    omega
  have read := value_writeTexts ms enough []
  rw [List.append_nil] at read
  rw [parse, read]
  rfl

/-! ## Reading -/

/-- A text inside an object that is a whole text. -/
def textPart (s : String) : Part := ⟨maxDepth - 1, .ofText s⟩

@[simp] theorem text?_textPart (s : String) : Document.text? (textPart s) = some s :=
  stringOf?_escaped s

@[simp] theorem choice?_textPart (s : String) : Document.choice? (textPart s) = some s :=
  stringOf?_escaped s

@[simp] theorem isNull_textPart (s : String) : Document.isNull (textPart s) = false := rfl

/-- The members of a written object have their names and texts. -/
theorem members?_writeTexts (ms : List (String × String)) :
    (partOfString? (writeTexts ms)).bind Part.members? =
      some (ms.map fun m => (m.1, textPart m.2)) := by
  rw [partOfString?, parse_writeTexts]
  have room : ¬maxDepth = 0 := by decide
  simp only [Option.map_some, Option.bind_some, Part.members?, if_neg room, Source.membersOf,
    List.mapM_map]
  exact Text.mapM_eq_some_map fun m _ => by simp [stringOf?_escaped, textPart]

/-! ## Records -/

/-- The fields of a record that are there. -/
def present (fields : List (String × Option String)) : List (String × String) :=
  fields.flatMap fun f => f.2.toList.map (f.1, ·)

theorem filter_present_eq_nil {fields : List (String × Option String)} {name : String}
    (other : name ∉ fields.map (·.1)) : (present fields).filter (·.1 = name) = [] := by
  rw [List.filter_eq_nil_iff]
  intro m hm named
  obtain ⟨f, hf, hm⟩ := List.mem_flatMap.mp hm
  obtain ⟨text, -, rfl⟩ := List.mem_map.mp hm
  exact other (List.mem_map.mpr ⟨f, hf, of_decide_eq_true named⟩)

/-- A field is found by its name, as often as it is there. -/
theorem filter_present {fields : List (String × Option String)}
    (distinct : (fields.map (·.1)).Nodup) {f : String × Option String} (hf : f ∈ fields) :
    (present fields).filter (·.1 = f.1) = f.2.toList.map (f.1, ·) := by
  induction fields with
  | nil => cases hf
  | cons g fields ih =>
    obtain ⟨first, others⟩ := List.nodup_cons.mp distinct
    rw [present, List.flatMap_cons, ← present, List.filter_append]
    rcases List.mem_cons.mp hf with rfl | hf
    · rw [filter_present_eq_nil first, List.append_nil, List.filter_eq_self]
      simp
    · have apart : g.1 ≠ f.1 := fun same => first (List.mem_map.mpr ⟨f, hf, same.symm⟩)
      rw [ih others hf, List.filter_eq_nil_iff.mpr (by simp [apart]), List.nil_append]

/-- **The fields that are there are found by their names**, and the others are absent. -/
theorem fieldsByName_present {α : Type} {fields : List (String × Option String)}
    (distinct : (fields.map (·.1)).Nodup) (read : String → α) :
    fieldsByName (fields.map (·.1)) ((present fields).map fun m => (m.1, read m.2)) =
      some ⟨fields.map fun f => f.2.map read, false⟩ := by
  unfold fieldsByName
  dsimp only
  rw [List.mapM_map, Text.mapM_eq_some_map (f := fun f => f.2.map read), Option.map_some]
  intro f hf
  have found : ((present fields).map fun m => (m.1, read m.2)).filter (·.1 = f.1) =
      f.2.toList.map fun text => (f.1, read text) := by
    rw [List.filter_map]
    exact (congrArg (List.map _) (filter_present distinct hf)).trans List.map_map
  dsimp only [Function.comp_apply]
  rw [found]
  cases f.2 <;> rfl

/-- What is found of a written record: the fields that are there, with their texts. -/
def received (fields : List (String × Option String)) : Fields Part :=
  ⟨fields.map fun f => f.2.map textPart, false⟩

/-- **A written record is read back**, field by field. -/
theorem record?_writeTexts {fields : List (String × Option String)}
    (distinct : (fields.map (·.1)).Nodup) :
    (partOfString? (writeTexts (present fields))).bind (Document.record? (fields.map (·.1))) =
      some (received fields) := by
  have read := members?_writeTexts (present fields)
  rw [partOfString?, parse_writeTexts, Option.map_some, Option.bind_some] at read ⊢
  rw [received, ← fieldsByName_present distinct textPart]
  exact congrArg (·.bind (fieldsByName (fields.map (·.1)))) read

section Fields

variable {fields : List (String × Option String)} {i : Nat} {field : String}

theorem get?_received {v : Option String} (given : fields[i]? = some (field, v)) :
    (received fields).get? i = v.map textPart := by
  simp [received, Fields.get?, given]

theorem nullable_received {β : Type} {v : Option String} (given : fields[i]? = some (field, v))
    (read : Part → Option β) :
    (received fields).nullable i read =
      v.elim (some none) fun s => (read (textPart s)).map some := by
  have byName : (received fields).byPosition = false := rfl
  cases v <;> simp [Fields.nullable, Fields.optional, get?_received given, byName]

/-- A text that may be absent is read back. -/
theorem nullable_text {v : Option String} (given : fields[i]? = some (field, v)) :
    (received fields).nullable i Document.text? = some v := by
  rw [nullable_received given]
  cases v <;> simp

variable {α : Type} {name : α → String} {ofName? : String → Option α}

/-- A choice is read back by its name. -/
theorem required_choice (named : ∀ a, ofName? (name a) = some a) {a : α}
    (given : fields[i]? = some (field, some (name a))) :
    (received fields).required i (fun p => (Document.choice? p).bind ofName?) = some a := by
  simp [Fields.required, get?_received given, named]

/-- A choice that may be absent is read back by its name. -/
theorem nullable_choice (named : ∀ a, ofName? (name a) = some a) {v : Option α}
    (given : fields[i]? = some (field, v.map name)) :
    (received fields).nullable i (fun p => (Document.choice? p).bind ofName?) = some v := by
  rw [nullable_received given]
  cases v <;> simp [named]

end Fields

/-! ## Lines -/

theorem printable_memberText (m : String × String) : ∀ d ∈ memberText m, ¬d.toNat < 0x20 := by
  intro d hd
  simp only [memberText, List.mem_append, List.mem_cons] at hd
  rcases hd with ((rfl | hd) | rfl | rfl | rfl | hd) | rfl | hd
  case inl.inl.inr => exact printable_escaped m.1 d hd
  case inl.inr.inr.inr.inr => exact printable_escaped m.2 d hd
  case inr.inr => cases hd
  all_goals decide

/-- **A written object of texts is on one line.** -/
theorem printable_writeTexts (ms : List (String × String)) :
    ∀ d ∈ (writeTexts ms).toList, ¬d.toNat < 0x20 := by
  have inside : ∀ d ∈ membersText ms, ¬d.toNat < 0x20 := by
    induction ms with
    | nil => exact nofun
    | cons m ms ih =>
      cases ms with
      | nil => exact membersText_singleton m ▸ printable_memberText m
      | cons m' ms =>
        rw [membersText_cons_cons]
        exact List.forall_mem_append.mpr
          ⟨printable_memberText m, List.forall_mem_cons.mpr ⟨by decide, ih⟩⟩
  rw [writeTexts_toList]
  exact List.forall_mem_append.mpr ⟨List.forall_mem_cons.mpr ⟨by decide, inside⟩, by decide⟩

end LinkedDeposit.Json
