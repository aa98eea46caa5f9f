import LinkedDeposit.Decimal.Shortest
import LinkedDeposit.Table

/-!
# JSON values

A JSON value, with the members of an object by ascending name and each name once, and its compact
text. A number is whole where the text gives no fraction and no exponent and the value fits 64 bits;
any other number is a double.
-/

namespace LinkedDeposit

/-- A whole number or a double. -/
inductive JsonNumber where
  | whole (n : Int)
  | double (x : Binary64)
  deriving DecidableEq, Repr, Inhabited

/-- A JSON value. The members of an object are listed by ascending name. -/
inductive Json where
  | null
  | bool (b : Bool)
  | number (n : JsonNumber)
  | string (s : String)
  | array (items : List Json)
  | object (members : List (String × Json))
  deriving Repr, Inhabited, BEq

namespace JsonNumber

/-- A number in its shortest spelling. -/
def toText : JsonNumber → String
  | .whole n => toString n
  | .double x => x.toText

end JsonNumber

namespace Json

/-- Two lower-case hexadecimal digits. -/
def hexByte (n : Nat) : List Char := [Nat.digitChar (n / 16), Nat.digitChar (n % 16)]

/-- A character inside a written string. -/
def escapeChar (c : Char) : List Char :=
  match c with
  | '"' => ['\\', '"']
  | '\\' => ['\\', '\\']
  | '\n' => ['\\', 'n']
  | '\r' => ['\\', 'r']
  | '\t' => ['\\', 't']
  | c =>
    if c.toNat = 8 then ['\\', 'b']
    else if c.toNat = 12 then ['\\', 'f']
    else if c.toNat < 0x20 then ['\\', 'u', '0', '0'] ++ hexByte c.toNat
    else [c]

/-- A string between its quotes. -/
def quote (s : String) : String :=
  String.ofList ('"' :: s.toList.flatMap escapeChar ++ ['"'])

mutual

/-- A value without blanks. -/
def compact : Json → String
  | null => "null"
  | bool b => if b then "true" else "false"
  | number n => n.toText
  | string s => quote s
  | array items => "[" ++ ",".intercalate (compactItems items) ++ "]"
  | object members => "\x7b" ++ ",".intercalate (compactMembers members) ++ "\x7d"

def compactItems : List Json → List String
  | [] => []
  | v :: items => v.compact :: compactItems items

def compactMembers : List (String × Json) → List String
  | [] => []
  | (name, v) :: members => (quote name ++ ":" ++ v.compact) :: compactMembers members

end

/-- The value of a member. -/
def member? (name : String) (members : List (String × Json)) : Option Json :=
  Table.find? name members

/-- The text of a string. -/
def string? : Json → Option String
  | string s => some s
  | _ => none

end Json

end LinkedDeposit
