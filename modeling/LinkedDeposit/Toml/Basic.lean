/-!
# TOML tables

The values of a TOML document and the rules by which its lines fill tables.

A table remembers how it came about. One that only stands on the way to another is implicit and may
still get a header of its own; one that a dotted key created may only grow through dotted keys. With
these two marks every line has one function that fills the tables (`setPair`, `openTable`,
`appendTable`), and nothing is defined twice.
-/

namespace LinkedDeposit.Toml

/-- A value. Numbers with a fraction or an exponent, dates and times are kept as they are spelled.
-/
inductive Value where
  | string (s : String)
  | integer (n : Int)
  | float (text : String)
  | bool (b : Bool)
  | time (text : String)
  | array (items : List Value)
  | table (entries : List (String × Value))
  deriving Repr, Inhabited

/-- How a table came about. -/
structure Origin where
  /-- The table stands on the way to another and has no header. -/
  isImplicit : Bool
  /-- The table was created by a dotted key. -/
  isDotted : Bool
  deriving DecidableEq, Repr, Inhabited

/-- What a key leads to while a document is read. -/
inductive Node where
  | value (v : Value)
  | table (origin : Origin) (entries : List (String × Node))
  /-- The elements of an array of tables, the last one first. -/
  | tables (elements : List (List (String × Node)))
  deriving Inhabited

abbrev Entries := List (String × Node)

namespace Node

mutual

/-- The value of a node once the document is read. -/
def toValue : Node → Value
  | value v => v
  | table _ entries => .table (entriesToValues entries)
  | tables elements => .array (elementsToValues elements).reverse

def entriesToValues : List (String × Node) → List (String × Value)
  | [] => []
  | (k, n) :: entries => (k, n.toValue) :: entriesToValues entries

def elementsToValues : List (List (String × Node)) → List Value
  | [] => []
  | entries :: elements => .table (entriesToValues entries) :: elementsToValues elements

end

end Node

namespace Entries

/-- The node of a key. -/
def find? (entries : Entries) (key : String) : Option Node :=
  (List.find? (·.1 = key) entries).map (·.2)

/-- Puts a node under a key in place of what was there. -/
def set (entries : Entries) (key : String) (node : Node) : Entries :=
  List.filter (·.1 ≠ key) entries ++ [(key, node)]

/-- The origin of tables that are created on the way. -/
def onTheWay (isDotted : Bool) : Origin := ⟨true, isDotted⟩

/-- Changes the table that a path leads to, creating tables on the way. A path that is dotted passes
through no table that has a header. -/
def descend (isDotted : Bool) (change : Origin → Entries → Option Entries) :
    (path : List String) → Origin → Entries → Option Entries
  | [], origin, entries => change origin entries
  | key :: path, _, entries =>
    match entries.find? key with
    | none => do
      let inner ← descend isDotted change path (onTheWay isDotted) []
      return entries.set key (.table (onTheWay isDotted) inner)
    | some (.value _) => none
    | some (.tables []) => none
    | some (.tables (last :: elements)) => do
      return entries.set key (.tables ((← descend isDotted change path ⟨false, false⟩ last) ::
        elements))
    | some (.table origin inner) =>
      if isDotted && !origin.isImplicit then none
      else do
        return entries.set key (.table origin (← descend isDotted change path origin inner))

/-- The origin of tables with a header. -/
def headed : Origin := ⟨false, false⟩

/-- Sets the value of a key, with a path before it, below a table with a header. -/
def setPair (path : List String) (key : String) (v : Value) (entries : Entries) :
    Option Entries :=
  descend true (fun origin entries =>
    if origin.isDotted = path.isEmpty || (entries.find? key).isSome then none
    else some (entries.set key (.value v))) path headed entries

/-- A line that sets a value: the keys before the last one, the last one, and the value. -/
abbrev Pair := List String × String × Value

/-- Sets values in order. -/
def setPairs (pairs : List Pair) (entries : Entries) : Option Entries :=
  pairs.foldlM (fun entries (path, key, v) => setPair path key v entries) entries

/-- Opens the table of a header and sets its values. Its keys may lead to a table that had no header
so far. -/
def openTable (path : List String) (key : String) (pairs : List Pair) (entries : Entries) :
    Option Entries :=
  descend false (fun _ entries =>
    match entries.find? key with
    | none => do return entries.set key (.table headed (← setPairs pairs []))
    | some (.table origin inner) =>
      if origin.isImplicit && !origin.isDotted then do
        return entries.set key (.table headed (← setPairs pairs inner))
      else none
    | some _ => none) path headed entries

/-- Adds a table to an array of tables and sets its values. -/
def appendTable (path : List String) (key : String) (pairs : List Pair) (entries : Entries) :
    Option Entries :=
  descend false (fun _ entries =>
    match entries.find? key with
    | none => do return entries.set key (.tables [← setPairs pairs []])
    | some (.tables elements) => do
      return entries.set key (.tables ((← setPairs pairs []) :: elements))
    | some _ => none) path headed entries

end Entries

/-- The entries of a table that is written on one line. -/
def inlineTable (pairs : List Entries.Pair) : Option Value :=
  (Entries.setPairs pairs []).map fun entries => .table (Node.entriesToValues entries)

end LinkedDeposit.Toml
