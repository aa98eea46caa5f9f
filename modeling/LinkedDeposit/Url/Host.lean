import LinkedDeposit.Text.Blank
import LinkedDeposit.Text.Utf8
import LinkedDeposit.Url.HostTable
import LinkedDeposit.Url.Punycode

/-!
# Hosts of URLs

The host of a URL with a special scheme is an IPv6 address in brackets, an IPv4 address, or a
domain. A domain may be written with percent escapes and in Unicode; it is lowered to ASCII before
it is judged. A domain whose last label is a number has to be an IPv4 address. The host of any other
URL is taken as it is, but for a few characters that no host holds.
-/

namespace LinkedDeposit.Url

/-! ## Addresses -/

def hexDigit? (c : Char) : Option Nat :=
  if c.isDigit then some (c.toNat - '0'.toNat)
  else if 'a' ≤ c && c ≤ 'f' then some (c.toNat - 'a'.toNat + 10)
  else if 'A' ≤ c && c ≤ 'F' then some (c.toNat - 'A'.toNat + 10)
  else none

/-- The number of some digits of a base. -/
def number? (base : Nat) (s : List Char) : Option Nat :=
  s.foldl (fun n c => do
    let n ← n
    let d ← hexDigit? c
    if d < base then some (n * base + d) else none) (some 0)

/-- A part of an IPv4 address: decimal, octal after a zero, or hexadecimal after `0x`. -/
def ipv4Part? (s : List Char) : Option Nat :=
  match s with
  | [] => none
  | '0' :: 'x' :: s | '0' :: 'X' :: s => number? 16 s
  | '0' :: c :: s => number? 8 (c :: s)
  | s => number? 10 s

/-- The parts between dots; one dot at the end does not count. -/
def dotParts (s : List Char) : List (List Char) :=
  let parts := Text.splitAt (· = '.') s
  if parts.getLast? = some [] then parts.dropLast else parts

/-- Whether a text is an IPv4 address. Its last part fills the bytes that the parts before it
leave. -/
def isIpv4 (s : List Char) : Bool :=
  match (dotParts s).mapM ipv4Part? with
  | some numbers =>
    match numbers.reverse with
    | last :: before =>
      numbers.length ≤ 4 && before.all (· < 256) && last < Nat.pow 256 (5 - numbers.length)
    | [] => false
  | none => false

/-- Whether the last label of a domain is a number, so that the domain has to be an address. -/
def endsInNumber (s : List Char) : Bool :=
  match (dotParts s).getLast? with
  | some last => (!last.isEmpty && last.all Char.isDigit) || (ipv4Part? last).isSome
  | none => false

/-- Whether a text is four decimal bytes without leading zeros. -/
def isDottedBytes (s : List Char) : Bool :=
  let parts := Text.splitAt (· = '.') s
  parts.length = 4 && parts.all fun part =>
    !part.isEmpty && part.all Char.isDigit && (part.head? ≠ some '0' || part.length = 1)
      && (number? 10 part).any (· < 256)

/-- Whether a text completes an IPv6 address of which some groups are read. `compressed` tells
whether a double colon was met, which stands for any number of groups. -/
def completesIpv6 : (fuel groups : Nat) → (compressed : Bool) → List Char → Bool
  | _, groups, compressed, [] => compressed || groups = 8
  | 0, _, _, _ => false
  | fuel + 1, groups, compressed, s =>
    if groups = 8 then false
    else
      match s with
      | ':' :: s => !compressed && completesIpv6 fuel (groups + 1) true s
      | s =>
        let digits := (s.take 4).takeWhile (hexDigit? · |>.isSome)
        match s.drop digits.length with
        | [] => completesIpv6 fuel (groups + 1) compressed []
        | '.' :: _ =>
          !digits.isEmpty && groups ≤ 6 && isDottedBytes s && (compressed || groups = 6)
        | ':' :: rest => !rest.isEmpty && completesIpv6 fuel (groups + 1) compressed rest
        | _ => false

/-- Whether a text is an IPv6 address. -/
def isIpv6 (s : List Char) : Bool :=
  match s with
  | ':' :: ':' :: rest => completesIpv6 (s.length + 1) 1 true rest
  | ':' :: _ => false
  | s => completesIpv6 (s.length + 1) 0 false s

/-! ## Domains -/

/-- The bytes of a text in which percent escapes are resolved; a percent sign that begins no escape
stays. -/
def percentDecode : List UInt8 → List UInt8
  | [] => []
  | b :: s =>
    match b, s with
    | 0x25, h :: l :: rest =>
      match hexDigit? (Char.ofNat h.toNat), hexDigit? (Char.ofNat l.toNat) with
      | some h, some l => (h * 16 + l).toUInt8 :: percentDecode rest
      | _, _ => b :: percentDecode (h :: l :: rest)
    | b, s => b :: percentDecode s

/-- ASCII characters that no domain holds. -/
def isForbidden (c : Char) : Bool :=
  c.toNat ≤ 0x20 || c.toNat = 0x7F ||
    c ∈ ['%', '#', '/', ':', '<', '>', '?', '@', '[', '\\', ']', '^', '\x60', '\x7b', '|', '\x7d']

/-- What a character of a domain is taken as; nothing when no domain holds it. -/
def mapChar (c : Char) : Option (List Char) :=
  if c.toNat < 0x80 then if isForbidden c then none else some [c.toLower]
  else if inRanges disallowed c then none
  else if inRanges ignored c then some []
  else
    match inRuns asciiForms c, inRuns numberForms c with
    | some n, _ => some [Char.ofNat n]
    | none, some n => some (Nat.toDigits 10 n)
    | none, none => some [c]

/-- Whether every joiner of a label follows a mark that it may follow. -/
def joinersFit : (before : Char) → List Char → Bool
  | _, [] => true
  | before, c :: s =>
    (c.toNat ≠ 0x200C && c.toNat ≠ 0x200D || inRanges viramas before) && joinersFit c s

/-- Whether a label in Unicode may stand in a domain. -/
def isUnicodeLabel (s : List Char) : Bool :=
  s.all (fun c => !inRanges disallowed c && !inRanges ignored c) &&
    (s.head?.all fun c => !inRanges marks c) && joinersFit ' ' s

/-- Whether a label may stand in a domain. One that begins with `xn--` spells a label in Unicode. -/
def isLabel (s : List Char) : Bool :=
  match s with
  | 'x' :: 'n' :: '-' :: '-' :: spelled =>
    match Punycode.decode spelled with
    | some label =>
      spelled.all (·.toNat < 0x80) && !label.all (·.toNat < 0x80) && isUnicodeLabel label
    | none => false
  | s => isUnicodeLabel s

/-- The domain that a text in a special URL stands for. -/
def domain? (s : List Char) : Option (List Char) := do
  let decoded ← Text.ofUtf8? (percentDecode (Text.toUtf8 (String.ofList s)))
  let mapped ← decoded.toList.mapM mapChar
  let domain := mapped.flatten
  if !domain.isEmpty && (Text.splitAt (· = '.') domain).all isLabel then some domain else none

/-- What stands between brackets. -/
def bracketed? (s : List Char) : Option (List Char) :=
  match s with
  | '[' :: s => if s.getLast? = some ']' then some s.dropLast else none
  | _ => none

/-- The host of a special URL. -/
def specialHost? (s : List Char) : Option (List Char) :=
  if s.head? = some '[' then
    match bracketed? s with
    | some address => if isIpv6 address then some s else none
    | none => none
  else do
    let domain ← domain? s
    if endsInNumber domain && !isIpv4 domain then none else some domain

/-- Characters that the host of no URL holds. -/
def isForbiddenOpaque (c : Char) : Bool :=
  c ∈ ['\x00', '\t', '\n', '\r', ' ', '#', '/', ':', '<', '>', '?', '@', '[', '\\', ']', '^', '|']

/-- The host of a URL whose scheme is not special. -/
def opaqueHost? (s : List Char) : Option (List Char) :=
  if s.head? = some '[' then
    match bracketed? s with
    | some address => if isIpv6 address then some s else none
    | none => none
  else if s.any isForbiddenOpaque then none else some s

end LinkedDeposit.Url
