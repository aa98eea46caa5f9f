/-!
# JSON texts

A JSON text is first read for its structure alone (`Source`): strings are cut at their closing quote
and numbers into their parts, but neither is given a value. What a reader does not ask for is held
to this grammar and to nothing more; what it keeps is read strictly, in `Json.Reader`.

`parse` reads a whole text. Its recursion is on a fuel that the length of the text bounds, since
each step but the one between brackets takes a character.
-/

namespace LinkedDeposit.Json

/-- The parts of a number: sign, digits before and after the point, and the exponent with its
sign. -/
structure NumberText where
  negative : Bool
  whole : List Char
  fraction : List Char
  exponent : Option (Bool × List Char)
  deriving DecidableEq, Repr, Inhabited

/-- The structure of a JSON text. Strings hold what stands between the quotes. -/
inductive Source where
  | null
  | bool (b : Bool)
  | number (n : NumberText)
  | string (raw : List Char)
  | array (items : List Source)
  | object (members : List (List Char × Source))
  deriving Repr, Inhabited

/-- Whether a character may stand between tokens. -/
def isSpace (c : Char) : Bool := c = ' ' || c = '\n' || c = '\t' || c = '\r'

def skipSpace (s : List Char) : List Char := s.dropWhile isSpace

def isHexDigit (c : Char) : Bool :=
  c.isDigit || ('a' ≤ c && c ≤ 'f') || ('A' ≤ c && c ≤ 'F')

/-- Whether a character may follow a backslash by itself. -/
def isEscape (c : Char) : Bool :=
  c ∈ ['"', '\\', '/', 'b', 'f', 'n', 'r', 't']

/-- Reads up to the closing quote. A control character or a bad escape ends the reading. -/
def stringBody : List Char → Option (List Char × List Char)
  | [] => none
  | '"' :: s => some ([], s)
  | '\\' :: 'u' :: a :: b :: c :: d :: s =>
    if [a, b, c, d].all isHexDigit then
      (stringBody s).map fun (raw, rest) => ('\\' :: 'u' :: a :: b :: c :: d :: raw, rest)
    else none
  | '\\' :: c :: s =>
    if isEscape c then (stringBody s).map fun (raw, rest) => ('\\' :: c :: raw, rest) else none
  | c :: s =>
    if c.toNat < 0x20 || c = '\\' then none
    else (stringBody s).map fun (raw, rest) => (c :: raw, rest)

/-- The digits at the start of a text and what follows them. -/
def spanDigits (s : List Char) : List Char × List Char :=
  (s.takeWhile Char.isDigit, s.dropWhile Char.isDigit)

/-- The exponent part, if there is one. -/
def exponentPart (s : List Char) : Option (Option (Bool × List Char) × List Char) :=
  match s with
  | e :: s =>
    if e = 'e' || e = 'E' then
      let (negative, s) := match s with
        | '+' :: s => (false, s)
        | '-' :: s => (true, s)
        | s => (false, s)
      match spanDigits s with
      | ([], _) => none
      | (ds, s) => some (some (negative, ds), s)
    else some (none, e :: s)
  | [] => some (none, [])

/-- The digits after the point, if there is one. -/
def fractionPart (s : List Char) : Option (List Char × List Char) :=
  match s with
  | '.' :: s =>
    match spanDigits s with
    | ([], _) => none
    | (ds, s) => some (ds, s)
  | s => some ([], s)

/-- A number. A whole part of several digits does not begin with a zero. -/
def numberText (s : List Char) : Option (NumberText × List Char) :=
  let (negative, s) := match s with
    | '-' :: s => (true, s)
    | s => (false, s)
  match spanDigits s with
  | ([], _) => none
  | ('0' :: _ :: _, _) => none
  | (whole, s) => do
    let (fraction, s) ← fractionPart s
    let (exponent, s) ← exponentPart s
    some (⟨negative, whole, fraction, exponent⟩, s)

/-- What follows a fixed word. -/
def word (w : List Char) (v : Source) (s : List Char) : Option (Source × List Char) :=
  if w.isPrefixOf s then some (v, s.drop w.length) else none

mutual

/-- A value and what follows it. -/
def value : (fuel : Nat) → List Char → Option (Source × List Char)
  | 0, _ => none
  | fuel + 1, s =>
    match skipSpace s with
    | [] => none
    | '"' :: s => (stringBody s).map fun (raw, s) => (.string raw, s)
    | '[' :: s =>
      match skipSpace s with
      | ']' :: s => some (.array [], s)
      | s => (items fuel s).map fun (vs, s) => (.array vs, s)
    | '\x7b' :: s =>
      match skipSpace s with
      | '\x7d' :: s => some (.object [], s)
      | s => (members fuel s).map fun (ms, s) => (.object ms, s)
    | 't' :: s => word ['r', 'u', 'e'] (.bool true) s
    | 'f' :: s => word ['a', 'l', 's', 'e'] (.bool false) s
    | 'n' :: s => word ['u', 'l', 'l'] .null s
    | s => (numberText s).map fun (n, s) => (.number n, s)

/-- The values up to the closing bracket, at least one. -/
def items : (fuel : Nat) → List Char → Option (List Source × List Char)
  | 0, _ => none
  | fuel + 1, s =>
    match value fuel s with
    | none => none
    | some (v, s) =>
      match skipSpace s with
      | ']' :: s => some ([v], s)
      | ',' :: s => (items fuel s).map fun (vs, s) => (v :: vs, s)
      | _ => none

/-- The members up to the closing brace, at least one. -/
def members : (fuel : Nat) → List Char → Option (List (List Char × Source) × List Char)
  | 0, _ => none
  | fuel + 1, s =>
    match skipSpace s with
    | '"' :: s =>
      match stringBody s with
      | none => none
      | some (name, s) =>
        match skipSpace s with
        | ':' :: s =>
          match value fuel s with
          | none => none
          | some (v, s) =>
            match skipSpace s with
            | '\x7d' :: s => some ([(name, v)], s)
            | ',' :: s => (members fuel s).map fun (ms, s) => ((name, v) :: ms, s)
            | _ => none
        | _ => none
    | _ => none

end

/-- Reads a whole text. -/
def parse (s : List Char) : Option Source :=
  match value (2 * s.length + 2) s with
  | some (v, rest) => if (skipSpace rest).isEmpty then some v else none
  | none => none

end LinkedDeposit.Json
