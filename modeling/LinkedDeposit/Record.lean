/-!
# Reading records

Settings, manifests and events are records: named fields, some of them optional. They are written
in more than one notation, so a record's reader asks a notation (`Document`) only for the few shapes
it needs. A record may be given by name or by position: a sequence lists the fields in their
declared order, and fields at its end that have a default may be missing. Names that are not asked
for are passed over; a field named twice is refused.
-/

namespace LinkedDeposit

/-- The values found for the fields asked for, in their order. -/
structure Fields (α : Type) where
  values : List (Option α)
  /-- Whether the record was given as a sequence. -/
  byPosition : Bool

/-- A notation in which records are written. -/
class Document (α : Type) where
  /-- The fields of a record under the given names. -/
  record? : List String → α → Option (Fields α)
  /-- The members of a sequence. -/
  items? : α → Option (List α)
  text? : α → Option String
  flag? : α → Option Bool
  /-- A whole number that is not negative and fits 64 bits. -/
  natural? : α → Option Nat
  /-- The name chosen from an enumeration. -/
  choice? : α → Option String
  /-- Whether the value stands for an absent one. -/
  isNull : α → Bool

namespace Fields

variable {α β : Type}

/-- The value of the field at a position. -/
def get? (f : Fields α) (i : Nat) : Option α := (f.values[i]?).join

/-- A field that must be given. -/
def required (f : Fields α) (i : Nat) (read : α → Option β) : Option β := (f.get? i).bind read

/-- A field that takes a default when it is not given. -/
def defaulted (f : Fields α) (i : Nat) (default : β) (read : α → Option β) : Option β :=
  match f.get? i with
  | none => some default
  | some v => read v

/-- A field that may be absent or null. -/
def optional [Document α] (f : Fields α) (i : Nat) (read : α → Option β) : Option (Option β) :=
  match f.get? i with
  | none => some none
  | some v => if Document.isNull v then some none else (read v).map some

/-- A field that may be absent by name or null; a sequence has to give it. -/
def nullable [Document α] (f : Fields α) (i : Nat) (read : α → Option β) : Option (Option β) :=
  if f.byPosition && (f.get? i).isNone then none else f.optional i read

end Fields

/-- Pairs each name with the value given for it; nothing when a name is given twice. -/
def fieldsByName {α : Type} (names : List String) (members : List (String × α)) :
    Option (Fields α) :=
  let find (name : String) : Option (Option α) :=
    match members.filter (·.1 = name) with
    | [] => some none
    | [(_, v)] => some (some v)
    | _ => none
  (names.mapM find).map (⟨·, false⟩)

/-- Pairs the names with the values of a sequence. -/
def fieldsByPosition {α : Type} (names : List String) (items : List α) : Fields α :=
  ⟨names.zipIdx.map fun (_, i) => items[i]?, true⟩

end LinkedDeposit
