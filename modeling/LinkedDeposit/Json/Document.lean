import LinkedDeposit.Json.Reader
import LinkedDeposit.Record

/-!
# Records in JSON

JSON as a notation for records. A record is an object or an array of exactly its fields; a choice is
a string or an object whose one member has the value null; null stands for an absent value. Members
that are not asked for are held to the grammar alone.
-/

namespace LinkedDeposit.Json

/-- A part of a JSON text and the number of containers that may still nest in it. -/
structure Part where
  room : Nat
  source : Source

namespace Part

/-- The parts inside a container. -/
def inner? (p : Part) (items : List Source) : Option (List Part) :=
  if p.room = 0 then none else some (items.map (⟨p.room - 1, ·⟩))

/-- The members of an object with their names decoded. -/
def members? (p : Part) : Option (List (String × Part)) :=
  match p.source with
  | .object members =>
    if p.room = 0 then none
    else members.mapM fun (raw, v) => (stringOf? raw).map fun name => (name, ⟨p.room - 1, v⟩)
  | _ => none

def items? (p : Part) : Option (List Part) :=
  match p.source with
  | .array items => p.inner? items
  | _ => none

def record? (names : List String) (p : Part) : Option (Fields Part) :=
  match p.source with
  | .object _ => p.members?.bind (fieldsByName names)
  | .array items =>
    if names.length < items.length then none
    else (p.inner? items).map (fieldsByPosition names)
  | _ => none

def text? (p : Part) : Option String :=
  match p.source with
  | .string raw => stringOf? raw
  | _ => none

def flag? (p : Part) : Option Bool :=
  match p.source with
  | .bool b => some b
  | _ => none

def natural? (p : Part) : Option Nat :=
  match p.source with
  | .number t =>
    match t.toNumber? with
    | some (.whole (.ofNat n)) => some n
    | _ => none
  | _ => none

def isNull (p : Part) : Bool :=
  match p.source with
  | .null => true
  | _ => false

def choice? (p : Part) : Option String :=
  match p.source with
  | .string raw => stringOf? raw
  | .object _ =>
    match p.members? with
    | some [(name, v)] => if v.isNull then some name else none
    | _ => none
  | _ => none

/-- The value of a part. -/
def json? (p : Part) : Option Json := p.source.toJson? p.room

end Part

instance : Document Part where
  record? := Part.record?
  items? := Part.items?
  text? := Part.text?
  flag? := Part.flag?
  natural? := Part.natural?
  choice? := Part.choice?
  isNull := Part.isNull

/-- A whole text as a part. -/
def partOfString? (s : String) : Option Part := (parse s.toList).map (⟨maxDepth, ·⟩)

/-- A whole text in bytes as a part. -/
def partOfBytes? (bytes : List UInt8) : Option Part :=
  (parse (textOfBytes bytes)).map (⟨maxDepth, ·⟩)

/-- An object written with its members in the given order. -/
def writeRecord (members : List (String × String)) : String :=
  "\x7b" ++ ",".intercalate (members.map fun (name, v) => quote name ++ ":" ++ v) ++ "\x7d"

/-- An array of written values. -/
def writeArray (items : List String) : String := "[" ++ ",".intercalate items ++ "]"

/-- A member that is left out when it has no value. -/
def optionalMember (name : String) (v : Option String) : List (String × String) :=
  match v with
  | some v => [(name, quote v)]
  | none => []

end LinkedDeposit.Json
