import LinkedDeposit.Text.Blank
import LinkedDeposit.Text.Utf8

/-!
# Charsets

The encodings in which a text can arrive, with the labels that name them. `Charset.decode` reads
bytes in an encoding; a mark of byte order at their start goes before what was said of them.
Of the encodings that are older than Unicode there is only the western one, which also goes by the
names of its parts. A label of another one is read as UTF-8, like one that nobody knows.
-/

namespace LinkedDeposit.Text

inductive Charset where
  | utf8
  | utf16LE
  | utf16BE
  | windows1252
  deriving DecidableEq, Repr, Inhabited

namespace Charset

/-- The labels of an encoding, in small letters. -/
def labels : Charset → List String
  | utf8 => ["utf-8", "utf8", "unicode-1-1-utf-8", "unicode11utf8", "unicode20utf8",
      "x-unicode20utf8"]
  | utf16LE => ["utf-16le", "utf-16", "csunicode", "iso-10646-ucs-2", "ucs-2", "unicode",
      "unicodefeff"]
  | utf16BE => ["utf-16be", "unicodefffe"]
  | windows1252 => ["windows-1252", "iso-8859-1", "us-ascii", "ascii", "latin1", "l1",
      "ansi_x3.4-1968", "cp1252", "cp819", "csisolatin1", "ibm819", "iso-ir-100", "iso8859-1",
      "iso88591", "iso_8859-1", "iso_8859-1:1987", "x-cp1252"]

/-- The encoding that a label names. -/
def ofLabel (label : String) : Charset :=
  let small := String.ofList ((trimBlank label.toList).map Char.toLower)
  ([utf16LE, utf16BE, windows1252].find? fun c => c.labels.contains small).getD utf8

/-! ## Characters -/

/-- The numbers in pairs of bytes; a byte that is left over is a gap. -/
def units (bigEndian : Bool) : List UInt8 → List (Option Nat)
  | [] => []
  | [_] => [none]
  | a :: b :: rest =>
    some (if bigEndian then a.toNat * 256 + b.toNat else b.toNat * 256 + a.toNat) ::
      units bigEndian rest

/-- Whether a number is the first half of a character beyond 16 bits. -/
def isHigh (u : Nat) : Bool := 0xD800 ≤ u && u < 0xDC00

/-- Whether a number is the second half of such a character. -/
def isLow (u : Nat) : Bool := 0xDC00 ≤ u && u < 0xE000

/-- The characters of some numbers; a half without the other one is a gap. -/
def ofUnits : List (Option Nat) → List (Option Char)
  | [] => []
  | none :: rest => none :: ofUnits rest
  | [some u] => [if isHigh u || isLow u then none else some (Char.ofNat u)]
  | some u :: some v :: rest =>
    if isHigh u && isLow v then
      some (Char.ofNat (0x10000 + (u - 0xD800) * 0x400 + (v - 0xDC00))) :: ofUnits rest
    else
      (if isHigh u || isLow u then none else some (Char.ofNat u)) :: ofUnits (some v :: rest)
  | some u :: none :: rest =>
    if isHigh u then none :: ofUnits rest
    else (if isLow u then none else some (Char.ofNat u)) :: none :: ofUnits rest

/-- The characters of the bytes from 0x80 to 0x9F in the western encoding. -/
def westernSigns : String :=
  "€\x81‚ƒ„…†‡ˆ‰Š‹Œ\x8dŽ\x8f\x90‘’“”•–—˜™š›œ\x9džŸ"

/-- The character of a byte in the western encoding. -/
def westernChar (b : UInt8) : Char :=
  if 0x80 ≤ b && b < 0xA0 then westernSigns.toList.getD (b.toNat - 0x80) ' '
  else Char.ofNat b.toNat

/-- The characters of some bytes, with gaps. -/
def chars : Charset → List UInt8 → List (Option Char)
  | utf8, bytes => decodeUtf8 bytes
  | utf16LE, bytes => ofUnits (units false bytes)
  | utf16BE, bytes => ofUnits (units true bytes)
  | windows1252, bytes => bytes.map (some ∘ westernChar)

/-- The encoding that a mark of byte order gives, and the bytes after the mark. -/
def marked? (bytes : List UInt8) : Option (Charset × List UInt8) :=
  if bytes.take 3 = [0xEF, 0xBB, 0xBF] then some (utf8, bytes.drop 3)
  else if bytes.take 2 = [0xFF, 0xFE] then some (utf16LE, bytes.drop 2)
  else if bytes.take 2 = [0xFE, 0xFF] then some (utf16BE, bytes.drop 2)
  else none

/-- The text of some bytes, with the replacement character for each gap. -/
def decode (c : Charset) (bytes : List UInt8) : String :=
  let (c, bytes) := (marked? bytes).getD (c, bytes)
  ofGaps (c.chars bytes)

example : decode windows1252 [0x63, 0xE9, 0x80] = "cé€" ∧
    decode windows1252 [0xFE, 0xFF, 0xD8, 0x3D, 0xDE, 0x00, 0xD8, 0x00] = "😀\ufffd" := by
  decide +kernel

end Charset

end LinkedDeposit.Text
