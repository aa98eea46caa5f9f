import LinkedDeposit.Toml.Scalar

/-!
# TOML documents

Reads the lines of a document and fills its tables with them. Lines may end in a carriage return and
a newline; a carriage return anywhere else is refused, like every other control character but the
tab.

The recursion is on a fuel that the length of the text bounds. Arrays and inline tables nest at most
79 deep, and as many keys may be joined by dots.
-/

namespace LinkedDeposit.Toml

/-- The greatest depth of values and the greatest number of joined keys. -/
def maxDepth : Nat := 79

/-- Makes every end of a line a single newline. -/
def normalizeLines : List Char → List Char
  | '\r' :: '\n' :: s => '\n' :: normalizeLines s
  | c :: s => c :: normalizeLines s
  | [] => []

def isSpace (c : Char) : Bool := c = ' ' || c = '\t'

def skipSpace (s : List Char) : List Char := s.dropWhile isSpace

/-- Whether a character may stand in a comment or a string as it is. -/
def isText (c : Char) : Bool := c = '\t' || (0x20 ≤ c.toNat && c.toNat ≠ 0x7F)

/-- Skips blanks, newlines and comments. -/
def skipLines : (inComment : Bool) → List Char → List Char
  | _, [] => []
  | inComment, c :: s =>
    if c = '\n' then skipLines false s
    else if inComment then if isText c then skipLines true s else c :: s
    else if isSpace c then skipLines false s
    else if c = '#' then skipLines true s
    else c :: s

/-- What follows the end of a line, which may have a comment. -/
def endLine (s : List Char) : Option (List Char) :=
  let s := skipSpace s
  let s := if s.head? = some '#' then s.dropWhile isText else s
  match s with
  | [] => some []
  | '\n' :: s => some s
  | _ => none

/-! ## Strings -/

/-- The character of a code point in hexadecimal. -/
def charOfHex (digits : List Char) : Option Char :=
  let n := numberOf 16 digits
  if digits.all isHex && (n < 0xD800 || (0xE000 ≤ n && n < 0x110000)) then some (Char.ofNat n)
  else none

/-- The character that an escape stands for. -/
def escaped : Char → Option Char
  | 'b' => some (Char.ofNat 8)
  | 't' => some '\t'
  | 'n' => some '\n'
  | 'f' => some (Char.ofNat 12)
  | 'r' => some '\r'
  | '"' => some '"'
  | '\\' => some '\\'
  | _ => none

/-- Reads an escape after its backslash. -/
def escape : List Char → Option (Char × List Char)
  | 'u' :: s => if s.length < 4 then none else (charOfHex (s.take 4)).map (·, s.drop 4)
  | 'U' :: s => if s.length < 8 then none else (charOfHex (s.take 8)).map (·, s.drop 8)
  | c :: s => (escaped c).map (·, s)
  | [] => none

/-- The rest of a string between double quotes. -/
def basicBody : (fuel : Nat) → List Char → Option (List Char × List Char)
  | 0, _ | _, [] => none
  | _, '"' :: s => some ([], s)
  | fuel + 1, '\\' :: s => do
    let (c, s) ← escape s
    let (body, s) ← basicBody fuel s
    return (c :: body, s)
  | fuel + 1, c :: s =>
    if isText c then (basicBody fuel s).map fun (body, s) => (c :: body, s) else none

/-- The rest of a string between single quotes. -/
def literalBody (s : List Char) : Option (List Char × List Char) :=
  let body := s.takeWhile fun c => c ≠ '\'' && isText c
  match s.drop body.length with
  | '\'' :: s => some (body, s)
  | _ => none

/-- Ends a string of several lines at a run of three to five quotes; those before the last three
belong to it. -/
def closing (quote : Char) (s : List Char) : Option (List Char × List Char) :=
  let run := (s.take 5).takeWhile (· = quote)
  if 3 ≤ run.length then some (run.drop 3, s.drop run.length) else none

/-- The rest of a string of several lines. `quote` tells the two kinds apart. A backslash before the
end of a line joins it to the next text. -/
def linesBody (quote : Char) : (fuel : Nat) → List Char → Option (List Char × List Char)
  | 0, _ | _, [] => none
  | fuel + 1, c :: s =>
    match closing quote (c :: s) with
    | some (body, rest) => some (body, rest)
    | none =>
      if c = '\\' && quote = '"' then
        match skipSpace s with
        | '\n' :: rest => linesBody quote fuel (rest.dropWhile fun c => isSpace c || c = '\n')
        | _ => do
          let (c, s) ← escape s
          let (body, s) ← linesBody quote fuel s
          return (c :: body, s)
      else if isText c || c = '\n' then
        (linesBody quote fuel s).map fun (body, s) => (c :: body, s)
      else none

/-- A newline right after the opening quotes does not count. -/
def dropFirstNewline : List Char → List Char
  | '\n' :: s => s
  | s => s

/-- The string at the start of a text, which begins with a quote. -/
def stringValue (s : List Char) : Option (List Char × List Char) :=
  match s with
  | '"' :: '"' :: '"' :: s => linesBody '"' (s.length + 1) (dropFirstNewline s)
  | '\'' :: '\'' :: '\'' :: s => linesBody '\'' (s.length + 1) (dropFirstNewline s)
  | '"' :: s => basicBody (s.length + 1) s
  | '\'' :: s => literalBody s
  | _ => none

/-! ## Keys -/

def isBareKey (c : Char) : Bool := c.isAlphanum || c = '_' || c = '-'

/-- One key. -/
def simpleKey (s : List Char) : Option (String × List Char) :=
  match s with
  | '"' :: s => (basicBody (s.length + 1) s).map fun (k, s) => (String.ofList k, s)
  | '\'' :: s => (literalBody s).map fun (k, s) => (String.ofList k, s)
  | s =>
    match s.takeWhile isBareKey with
    | [] => none
    | k => some (String.ofList k, s.dropWhile isBareKey)

/-- Keys joined by dots, with blanks around each: those before the last one, and the last one. -/
def dottedKey : (fuel : Nat) → List Char → Option (List String × String × List Char)
  | 0, _ => none
  | fuel + 1, s => do
    let (k, s) ← simpleKey (skipSpace s)
    match skipSpace s with
    | '.' :: s => do
      let (path, key, s) ← dottedKey fuel s
      return (k :: path, key, s)
    | s => return ([], k, s)

/-! ## Values -/

mutual

/-- A value. -/
def value : (fuel room : Nat) → List Char → Option (Value × List Char)
  | 0, _, _ => none
  | fuel + 1, room, s =>
    match s with
    | '"' :: _ | '\'' :: _ => (stringValue s).map fun (t, s) => (.string (String.ofList t), s)
    | '[' :: s =>
      if room = 0 then none
      else (items fuel (room - 1) s).map fun (vs, s) => (.array vs, s)
    | '\x7b' :: s =>
      if room = 0 then none
      else
        match skipSpace s with
        | '\x7d' :: s => some (.table [], s)
        | s => do
          let (ps, s) ← pairs fuel (room - 1) s
          return (← inlineTable ps, s)
    | s => scalar s

/-- The values up to the closing bracket. -/
def items : (fuel room : Nat) → List Char → Option (List Value × List Char)
  | 0, _, _ => none
  | fuel + 1, room, s =>
    match skipLines false s with
    | ']' :: s => some ([], s)
    | s => do
      let (v, s) ← value fuel room s
      match skipLines false s with
      | ']' :: s => return ([v], s)
      | ',' :: s => do
        let (vs, s) ← items fuel room s
        return (v :: vs, s)
      | _ => none

/-- The pairs up to the closing brace, at least one. -/
def pairs : (fuel room : Nat) → List Char → Option (List Entries.Pair × List Char)
  | 0, _, _ => none
  | fuel + 1, room, s => do
    let (p, s) ← pair fuel room s
    match skipSpace s with
    | '\x7d' :: s => return ([p], s)
    | ',' :: s => do
      let (ps, s) ← pairs fuel room s
      return (p :: ps, s)
    | _ => none

/-- A key, an equals sign and a value. -/
def pair : (fuel room : Nat) → List Char → Option (Entries.Pair × List Char)
  | 0, _, _ => none
  | fuel + 1, room, s => do
    let (path, key, s) ← dottedKey maxDepth s
    match s with
    | '=' :: s => do
      let (v, s) ← value fuel room (skipSpace s)
      return ((path, key, v), s)
    | _ => none

end

/-! ## Documents -/

/-- A table's header. -/
inductive Header where
  | table (path : List String) (key : String)
  | element (path : List String) (key : String)
  deriving Repr

/-- A header with the pairs below it. -/
structure Part where
  header : Header
  pairs : List Entries.Pair

/-- A header, from its bracket to the end of its line. -/
def header (s : List Char) : Option (Header × List Char) :=
  match s with
  | '[' :: '[' :: s => do
    let (path, key, s) ← dottedKey maxDepth s
    match s with
    | ']' :: ']' :: s => return (.element path key, ← endLine s)
    | _ => none
  | '[' :: s => do
    let (path, key, s) ← dottedKey maxDepth s
    match s with
    | ']' :: s => return (.table path key, ← endLine s)
    | _ => none
  | _ => none

/-- The pairs before the first header, and the parts. -/
def parts : (fuel : Nat) → List Char → Option (List Entries.Pair × List Part)
  | 0, _ => none
  | fuel + 1, s =>
    match skipLines false s with
    | [] => some ([], [])
    | '[' :: s => do
      let (h, s) ← header ('[' :: s)
      let (ps, rest) ← parts fuel s
      return ([], ⟨h, ps⟩ :: rest)
    | s => do
      let (p, s) ← pair (2 * s.length + 2) maxDepth s
      let (ps, rest) ← parts fuel (← endLine s)
      return (p :: ps, rest)

/-- Fills the tables with one part. -/
def Part.fill (entries : Entries) (p : Part) : Option Entries :=
  match p.header with
  | .table path key => entries.openTable path key p.pairs
  | .element path key => entries.appendTable path key p.pairs

/-- The document of a text, as a table. A mark of byte order at the start does not count. -/
def ofString? (s : String) : Option Value := do
  let text := match s.toList with
    | c :: s => if c = Char.ofNat 0xFEFF then s else c :: s
    | [] => []
  let text := normalizeLines text
  let (pairs, parts) ← parts (text.length + 1) text
  let root ← Entries.setPairs pairs []
  return .table (Node.entriesToValues (← parts.foldlM Part.fill root))

end LinkedDeposit.Toml
