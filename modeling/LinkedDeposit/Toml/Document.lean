import LinkedDeposit.Record
import LinkedDeposit.Toml.Basic

/-!
# Records in TOML

TOML as a notation for records. A record is a table, or an array of its fields whose further
elements do not count; a choice is a string, or a table with one key and nothing under it. A date
stands for a record of which no field is known. Nothing stands for an absent value.
-/

namespace LinkedDeposit.Toml.Value

def record? (names : List String) : Value → Option (Fields Value)
  | table entries => fieldsByName names entries
  | array items => some (fieldsByPosition names items)
  | time _ => fieldsByName names []
  | _ => none

def items? : Value → Option (List Value)
  | array items => some items
  | _ => none

def text? : Value → Option String
  | string s => some s
  | _ => none

def flag? : Value → Option Bool
  | bool b => some b
  | _ => none

def natural? : Value → Option Nat
  | integer (.ofNat n) => some n
  | _ => none

/-- Whether a table or an array has nothing in it. -/
def isEmpty : Value → Bool
  | table entries => entries.isEmpty
  | array items => items.isEmpty
  | _ => false

def choice? : Value → Option String
  | string s => some s
  | table [(name, v)] => if v.isEmpty then some name else none
  | _ => none

instance : Document Value where
  record? := record?
  items? := items?
  text? := text?
  flag? := flag?
  natural? := natural?
  choice? := choice?
  isNull _ := false

end LinkedDeposit.Toml.Value
