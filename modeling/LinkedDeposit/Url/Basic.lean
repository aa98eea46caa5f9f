import LinkedDeposit.Url.Host

/-!
# URLs

Reads absolute URLs as browsers do: blanks at both ends and newlines anywhere do not count, schemes
and hosts may be in capitals, and the special schemes take backslashes for slashes and any number of
them before the host. A URL that cannot be read has no scheme, or an authority that is none.
-/

namespace LinkedDeposit

/-- What an absolute URL names. The path keeps its spelling, with the query behind it. -/
structure Url where
  scheme : String
  host : String
  port : Option Nat
  path : String
  deriving DecidableEq, Repr, Inhabited

namespace Url

/-- How the text after a scheme is read. -/
inductive SchemeKind where
  | file
  | special
  | other
  deriving DecidableEq, Repr

def SchemeKind.of (scheme : String) : SchemeKind :=
  if scheme = "file" then .file
  else if scheme ∈ ["http", "https", "ws", "wss", "ftp"] then .special
  else .other

/-- The text without what does not count in a URL. -/
def significant (s : String) : List Char :=
  (Text.trimBoth (fun c => c.toNat ≤ 0x20) s.toList).filter fun c =>
    c ≠ '\t' && c ≠ '\n' && c ≠ '\r'

/-- Whether a character may stand in a scheme after its first letter. -/
def isSchemeChar (c : Char) : Bool := c.isAlphanum || c = '+' || c = '-' || c = '.'

/-- The scheme in small letters, and what follows its colon. -/
def scheme? (s : List Char) : Option (String × List Char) :=
  let name := s.takeWhile isSchemeChar
  match s.drop name.length with
  | ':' :: rest =>
    if name.head?.any Char.isAlpha then some (String.ofList (name.map Char.toLower), rest) else none
  | _ => none

/-- Whether a character ends the authority. -/
def endsAuthority (k : SchemeKind) (c : Char) : Bool :=
  c = '/' || c = '?' || c = '#' || (c = '\\' && k ≠ .other)

/-- The host's part of an authority without user information: it ends at a colon outside
brackets. -/
def hostPart : (inBrackets : Bool) → List Char → List Char × List Char
  | _, [] => ([], [])
  | inBrackets, c :: s =>
    if c = ':' && !inBrackets then ([], c :: s)
    else
      let inBrackets := if c = '[' then true else if c = ']' then false else inBrackets
      let (host, rest) := hostPart inBrackets s
      (c :: host, rest)

/-- The greatest port. -/
def maxPort : Nat := 65535

/-- The port after a colon. No digits are no port. In what follows an authority a backslash ends the
digits too. -/
def port? (s : List Char) : Option (Option Nat) :=
  match s with
  | [] => some none
  | _ :: s =>
    let digits := s.takeWhile (· ≠ '\\')
    if digits.isEmpty then some none
    else if digits.all Char.isDigit then
      ((number? 10 digits).filter (· ≤ maxPort)).map some
    else none

/-- The user information of an authority, if there is any, and what follows it. -/
def splitUser (authority : List Char) : Option (List Char) × List Char :=
  if authority.contains '@' then
    (some (authority.reverse.dropWhile (· ≠ '@')).tail.reverse,
      (authority.reverse.takeWhile (· ≠ '@')).reverse)
  else (none, authority)

/-- Whether user information says nothing. -/
def isBlankUser : Option (List Char) → Bool
  | none | some [] | some [':'] => true
  | some _ => false

/-- Reads an authority and what follows it. -/
def ofAuthority? (k : SchemeKind) (scheme : String) (s : List Char) : Option Url := do
  let authority := s.takeWhile (! endsAuthority k ·)
  let path := s.drop authority.length
  let (user, rest) := splitUser authority
  let (hostText, portText) := hostPart false rest
  if user = some [] && hostText.isEmpty && !path.isEmpty then none
  else if hostText.isEmpty then
    if k = .special || !portText.isEmpty || !isBlankUser user then none
    else some ⟨scheme, "", none, String.ofList path⟩
  else do
    let host ← if k = .special then specialHost? hostText else opaqueHost? hostText
    let port ← port? portText
    some ⟨scheme, String.ofList host, port, String.ofList path⟩

/-- Whether a text is a drive in place of a host. -/
def isDrive (s : List Char) : Bool :=
  match s with
  | [letter, mark] => letter.isAlpha && (mark = ':' || mark = '|')
  | _ => false

/-- Reads what follows the scheme of a file's URL. -/
def ofFile? (s : List Char) : Option Url :=
  match s with
  | a :: b :: rest =>
    if (a = '/' || a = '\\') && (b = '/' || b = '\\') then
      let host := rest.takeWhile (! endsAuthority .file ·)
      let path := String.ofList (rest.drop host.length)
      if host.isEmpty || isDrive host then some ⟨"file", "", none, path⟩
      else (specialHost? host).map fun host => ⟨"file", String.ofList host, none, path⟩
    else some ⟨"file", "", none, String.ofList s⟩
  | s => some ⟨"file", "", none, String.ofList s⟩

/-- Reads an absolute URL. -/
def ofString? (s : String) : Option Url := do
  let (scheme, rest) ← scheme? (significant s)
  match SchemeKind.of scheme with
  | .file => ofFile? rest
  | .special => ofAuthority? .special scheme (rest.dropWhile fun c => c = '/' || c = '\\')
  | .other =>
    match rest with
    | '/' :: '/' :: rest => ofAuthority? .other scheme rest
    | rest => some ⟨scheme, "", none, String.ofList rest⟩

/-- Whether the URL is one that requests can be sent to. -/
def isHttp (u : Url) : Bool := u.scheme = "http" || u.scheme = "https"

end Url

end LinkedDeposit
