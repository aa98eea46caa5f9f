import LinkedDeposit.Json.Basic
import LinkedDeposit.Json.Source
import LinkedDeposit.Text.Utf8

/-!
# Reading JSON values

What a reader keeps of a text is read strictly: escapes must spell characters, so the halves of a
surrogate pair stand together; numbers must fit; containers nest at most 127 deep. Of members with
one name the last wins.

A number with a fraction or an exponent, a whole one beyond 64 bits, and `-0` are doubles. A double
takes the leading digits of its text that fit 64 bits and scales them by the power of ten that
remains.
-/

namespace LinkedDeposit.Json

/-- The deepest nesting of arrays and objects. -/
def maxDepth : Nat := 127

/-! ## Numbers -/

def digitValue (c : Char) : Nat := c.toNat - '0'.toNat

/-- The bound of whole numbers, `2 ^ 64`. -/
def wordBound : Nat := 0x10000000000000000

/-- Takes digits into a number while it stays below the bound; gives the number and the digits that
are left. -/
def takeDigits (n : Nat) : List Char → Nat × List Char
  | [] => (n, [])
  | c :: s => if n * 10 + digitValue c < wordBound then takeDigits (n * 10 + digitValue c) s
    else (n, c :: s)

/-- The value of a decimal numeral. -/
def natOfDigits (s : List Char) : Nat := s.foldl (fun n c => n * 10 + digitValue c) 0

/-- The greatest exponent magnitude that is still counted. -/
def maxExponentText : Nat := 0x7FFFFFFF

/-- The number that a text denotes, and nothing when it is too large for a double. -/
def NumberText.toNumber? (t : NumberText) : Option JsonNumber :=
  let (n, dropped) := takeDigits 0 t.whole
  match t.fraction, t.exponent, dropped with
  | [], none, [] =>
    if !t.negative then some (.whole n)
    else if n = 0 || wordBound / 2 < n then some (.double { Binary64.ofNat n with negative := true })
    else some (.whole (-n))
  | fraction, exponent, dropped =>
    let (m, rest) := takeDigits n fraction
    let point : Int := dropped.length - (fraction.length - rest.length : Nat)
    match exponent with
    | none => (Binary64.ofDecimal t.negative m point).map .double
    | some (negative, digits) =>
      let e := natOfDigits digits
      if maxExponentText < e then
        if m ≠ 0 && !negative then none else some (.double (Binary64.zero t.negative))
      else
        (Binary64.ofDecimal t.negative m (if negative then point - e else point + e)).map .double

/-! ## Strings -/

def hexValue (c : Char) : Nat :=
  if c.isDigit then c.toNat - '0'.toNat
  else if 'a' ≤ c then c.toNat - 'a'.toNat + 10 else c.toNat - 'A'.toNat + 10

/-- The code unit of four hexadecimal digits. -/
def hexUnit (a b c d : Char) : Nat :=
  ((hexValue a * 16 + hexValue b) * 16 + hexValue c) * 16 + hexValue d

/-- The character of a simple escape. -/
def unescape (c : Char) : Char :=
  match c with
  | 'b' => Char.ofNat 8
  | 'f' => Char.ofNat 12
  | 'n' => '\n'
  | 'r' => '\r'
  | 't' => '\t'
  | c => c

/-- Gives escapes their characters, and nothing when half of a surrogate pair stands alone. -/
def unescapeAll : List Char → Option (List Char)
  | [] => some []
  | '\\' :: 'u' :: a :: b :: c :: d :: s =>
    let n := hexUnit a b c d
    if 0xD800 ≤ n && n < 0xDC00 then
      match s with
      | '\\' :: 'u' :: e :: f :: g :: h :: s =>
        let m := hexUnit e f g h
        if 0xDC00 ≤ m && m < 0xE000 then
          (unescapeAll s).map (Char.ofNat (0x10000 + (n - 0xD800) * 0x400 + (m - 0xDC00)) :: ·)
        else none
      | _ => none
    else if 0xDC00 ≤ n && n < 0xE000 then none
    else (unescapeAll s).map (Char.ofNat n :: ·)
  | '\\' :: c :: s => (unescapeAll s).map (unescape c :: ·)
  | c :: s => (unescapeAll s).map (c :: ·)

/-- The text of a raw string. -/
def stringOf? (raw : List Char) : Option String := (unescapeAll raw).map String.ofList

/-! ## Values -/

mutual

/-- The value of a source, with room for `room` nested containers. -/
def Source.toJson? : (room : Nat) → Source → Option Json
  | _, .null => some .null
  | _, .bool b => some (.bool b)
  | _, .number t => t.toNumber?.map .number
  | _, .string raw => (stringOf? raw).map .string
  | room, .array items => if room = 0 then none else (itemsToJson? (room - 1) items).map .array
  | room, .object members =>
    if room = 0 then none else (membersToJson? (room - 1) members []).map .object

def itemsToJson? : (room : Nat) → List Source → Option (List Json)
  | _, [] => some []
  | room, v :: items =>
    match v.toJson? room, itemsToJson? room items with
    | some v, some vs => some (v :: vs)
    | _, _ => none

/-- Adds members in the order of the text, so that a later one replaces an earlier one. -/
def membersToJson? : (room : Nat) → List (List Char × Source) → List (String × Json) →
    Option (List (String × Json))
  | _, [], acc => some acc
  | room, (raw, v) :: members, acc =>
    match stringOf? raw, v.toJson? room with
    | some name, some v => membersToJson? room members (Table.insertEntry name v acc)
    | _, _ => none

end

/-- The value of a JSON text. -/
def ofString? (s : String) : Option Json := (parse s.toList).bind (Source.toJson? maxDepth)

/-- A text for bytes that may not be UTF-8. What is no character is written as an escape that no
kept string may hold and that is no token either; the letter before it keeps it from completing an
escape that was cut short. -/
def textOfBytes (bytes : List UInt8) : List Char :=
  (Text.decodeUtf8 bytes).flatMap fun
    | some c => [c]
    | none => ['x', '\\', 'u', 'd', '8', '0', '0']

/-- The value of a JSON text in bytes. -/
def ofBytes? (bytes : List UInt8) : Option Json :=
  (parse (textOfBytes bytes)).bind (Source.toJson? maxDepth)

end LinkedDeposit.Json
