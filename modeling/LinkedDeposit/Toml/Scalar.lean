import LinkedDeposit.Text.Blank
import LinkedDeposit.Toml.Basic

/-!
# TOML scalars

Numbers, dates, times and truth values by their whole spelling. A scalar is read as the longest run
of characters that may stand in one, and `Scalar.ofToken?` says what that run means.
-/

namespace LinkedDeposit.Toml

/-! ## Digits -/

def isOctal (c : Char) : Bool := '0' ≤ c && c ≤ '7'

def isBinary (c : Char) : Bool := c = '0' || c = '1'

def isHex (c : Char) : Bool :=
  c.isDigit || ('a' ≤ c && c ≤ 'f') || ('A' ≤ c && c ≤ 'F')

/-- The value of a digit up to `f`. -/
def digitValue (c : Char) : Nat :=
  if c.isDigit then c.toNat - '0'.toNat
  else if 'a' ≤ c then c.toNat - 'a'.toNat + 10 else c.toNat - 'A'.toNat + 10

/-- The number of some digits. -/
def numberOf (base : Nat) (digits : List Char) : Nat :=
  digits.foldl (fun n c => n * base + digitValue c) 0

/-- The digits of a run in which single underscores may stand between digits. -/
def digits? (isDigit : Char → Bool) (s : List Char) : Option (List Char) :=
  let parts := Text.splitAt (· = '_') s
  if parts.all fun part => !part.isEmpty && part.all isDigit then some parts.flatten else none

/-- Decimal digits without a leading zero. -/
def wholeDigits? (s : List Char) : Option (List Char) :=
  match digits? Char.isDigit s with
  | some ('0' :: _ :: _) => none
  | ds => ds

/-- A sign, if there is one, and what follows it. -/
def splitSign : List Char → Bool × List Char
  | '-' :: s => (true, s)
  | '+' :: s => (false, s)
  | s => (false, s)

/-! ## Numbers -/

/-- Whether a whole number fits 64 bits. -/
def fits (n : Int) : Bool := -0x8000000000000000 ≤ n && n < 0x8000000000000000

def integer? (s : List Char) : Option Int :=
  let n := match s with
    | '0' :: 'x' :: s => (digits? isHex s).map fun ds => Int.ofNat (numberOf 16 ds)
    | '0' :: 'o' :: s => (digits? isOctal s).map fun ds => Int.ofNat (numberOf 8 ds)
    | '0' :: 'b' :: s => (digits? isBinary s).map fun ds => Int.ofNat (numberOf 2 ds)
    | s =>
      let (negative, s) := splitSign s
      (wholeDigits? s).map fun ds =>
        if negative then -(Int.ofNat (numberOf 10 ds)) else Int.ofNat (numberOf 10 ds)
  n.filter fits

/-- Whether a whole number, scaled by a power of ten, is beyond every double: at least halfway from
the greatest one to the next power of two. -/
def isTooLarge (digits : List Char) (exponent : Int) : Bool :=
  let ds := digits.dropWhile (· = '0')
  let magnitude := (ds.length : Int) + exponent
  if ds.isEmpty || magnitude < 300 then false
  else if 320 < magnitude then true
  else
    let bound := Nat.pow 2 1024 - Nat.pow 2 970
    if 0 ≤ exponent then bound ≤ numberOf 10 ds * Nat.pow 10 exponent.toNat
    else bound * Nat.pow 10 (-exponent).toNat ≤ numberOf 10 ds

/-- The digits of an optional part after a mark; no digits when the mark is missing. -/
def partAfter (mark : Char → Bool) (s : List Char) : List Char × Option (List Char) :=
  (s.takeWhile (! mark ·), (s.dropWhile (! mark ·)).tail?)

/-- Whether a text is a number with a fraction or an exponent. Positive ones beyond every double are
refused. -/
def isFloat (s : List Char) : Bool :=
  let (negative, s) := splitSign s
  let (mantissa, exponent) := partAfter (fun c => c = 'e' || c = 'E') s
  let (whole, fraction) := partAfter (· = '.') mantissa
  let exponentDigits : Option (Option Int) := exponent.elim (some none) fun e =>
    let (negative, e) := splitSign e
    (digits? Char.isDigit e).map fun ds =>
      some (if negative then -(Int.ofNat (numberOf 10 ds)) else Int.ofNat (numberOf 10 ds))
  let fractionDigits : Option (List Char) := fraction.elim (some []) (digits? Char.isDigit)
  match wholeDigits? whole, fractionDigits, exponentDigits with
  | some w, some f, some e =>
    (fraction.isSome || e.isSome) &&
      (negative || !isTooLarge (w ++ f) (e.getD 0 - (f.length : Int)))
  | _, _, _ => false

def isSpecialFloat (s : List Char) : Bool :=
  (splitSign s).2 ∈ [['i', 'n', 'f'], ['n', 'a', 'n']]

/-! ## Dates and times -/

/-- The number of a fixed count of decimal digits. -/
def fixed? (count : Nat) (s : List Char) : Option Nat :=
  if s.length = count && s.all Char.isDigit then some (numberOf 10 s) else none

def isLeapYear (year : Nat) : Bool := year % 4 = 0 && (year % 100 ≠ 0 || year % 400 = 0)

def daysIn (year month : Nat) : Nat :=
  if month = 2 then if isLeapYear year then 29 else 28
  else if month ∈ [4, 6, 9, 11] then 30 else 31

/-- Whether a text is a date, year first. -/
def isDate (s : List Char) : Bool :=
  match Text.splitAt (· = '-') s with
  | [y, m, d] =>
    match fixed? 4 y, fixed? 2 m, fixed? 2 d with
    | some y, some m, some d => 1 ≤ m && m ≤ 12 && 1 ≤ d && d ≤ daysIn y m
    | _, _, _ => false
  | _ => false

/-- Whether a text is an hour and a minute. -/
def isMinute (s : List Char) : Bool :=
  match Text.splitAt (· = ':') s with
  | [h, m] =>
    match fixed? 2 h, fixed? 2 m with
    | some h, some m => h < 24 && m < 60
    | _, _ => false
  | _ => false

/-- Whether a text is a second, perhaps with a fraction. -/
def isSecond (s : List Char) : Bool :=
  let (whole, fraction) := partAfter (· = '.') s
  (fixed? 2 whole).any (· ≤ 60) && fraction.all fun f => !f.isEmpty && f.all Char.isDigit

/-- Whether a text is a time of day. -/
def isTime (s : List Char) : Bool :=
  isMinute (s.take 5) && (s.drop 5).head? = some ':' && isSecond (s.drop 6)

/-- Whether a text is a time of day with an offset at most. -/
def isOffsetTime (s : List Char) : Bool :=
  match s.getLast? with
  | none => false
  | some c =>
    if c = 'Z' || c = 'z' then isTime s.dropLast
    else
      let (time, offset) := (s.takeWhile fun c => c ≠ '+' && c ≠ '-',
        s.dropWhile fun c => c ≠ '+' && c ≠ '-')
      isTime time && (offset.isEmpty || isMinute offset.tail)

/-- Whether a text is a date, a time of day, or both. -/
def isDateOrTime (s : List Char) : Bool :=
  isDate s || isTime s ||
    (isDate (s.take 10) && (s.drop 10).head?.any (fun c => c = 'T' || c = 't') &&
      isOffsetTime (s.drop 11))

/-! ## Tokens -/

/-- Whether a character may stand in a scalar. -/
def isTokenChar (c : Char) : Bool :=
  c.isAlphanum || c = '_' || c = '+' || c = '-' || c = '.' || c = ':'

/-- The meaning of a whole token. -/
def ofToken? (s : List Char) : Option Value :=
  if s = ['t', 'r', 'u', 'e'] then some (.bool true)
  else if s = ['f', 'a', 'l', 's', 'e'] then some (.bool false)
  else
    match integer? s with
    | some n => some (.integer n)
    | none =>
      if isFloat s || isSpecialFloat s then some (.float (String.ofList s))
      else if isDateOrTime s then some (.time (String.ofList s))
      else none

/-- The scalar at the start of a text. A blank may stand between a date and a time. -/
def scalar (s : List Char) : Option (Value × List Char) :=
  let token := s.takeWhile isTokenChar
  let rest := s.dropWhile isTokenChar
  match rest with
  | ' ' :: after =>
    let time := after.takeWhile isTokenChar
    if isDate token && time.head?.any Char.isDigit then
      if isOffsetTime time then
        some (.time (String.ofList (token ++ 'T' :: time)), after.dropWhile isTokenChar)
      else none
    else (ofToken? token).map (·, rest)
  | rest => (ofToken? token).map (·, rest)

end LinkedDeposit.Toml
