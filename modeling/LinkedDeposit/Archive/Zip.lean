import LinkedDeposit.Archive.Inflate
import LinkedDeposit.Text.Utf8

/-!
# Zip archives

An archive is a list of named entries. `ofBytes?` reads it from the directory at the end of a file,
so bytes before the archive do no harm; an entry's content is only unpacked, and its checksum
compared, when it is read. `toBytes` writes an archive with its entries stored.
-/

namespace LinkedDeposit

abbrev ArchiveBytes := List UInt8

/-- An entry: its name and its bytes, or the reason why they cannot be had. -/
structure ArchiveEntry where
  name : String
  content : Except String ArchiveBytes

instance : DecidableEq ArchiveEntry
  | ⟨n, .ok bytes⟩, ⟨n', .ok bytes'⟩ => decidable_of_iff (n = n' ∧ bytes = bytes') (by simp)
  | ⟨n, .error e⟩, ⟨n', .error e'⟩ => decidable_of_iff (n = n' ∧ e = e') (by simp)
  | ⟨_, .ok _⟩, ⟨_, .error _⟩ | ⟨_, .error _⟩, ⟨_, .ok _⟩ => isFalse (by simp)

abbrev Archive := List ArchiveEntry

namespace Archive

/-- The entry of a name. Of entries with one name the last counts. -/
def find? (a : Archive) (name : String) : Option ArchiveEntry :=
  a.reverse.find? (·.name = name)

/-! ## Numbers in bytes -/

/-- A little-endian number of some bytes. -/
def number (n : Nat) (bytes : ArchiveBytes) : Option Nat :=
  if bytes.length < n then none
  else some ((bytes.take n).foldr (fun b v => b.toNat + 256 * v) 0)

def number16 (bytes : ArchiveBytes) (position : Nat) : Option Nat := number 2 (bytes.drop position)

def number32 (bytes : ArchiveBytes) (position : Nat) : Option Nat := number 4 (bytes.drop position)

/-- The little-endian bytes of a number. -/
def littleEndian : (width : Nat) → Nat → ArchiveBytes
  | 0, _ => []
  | width + 1, n => n.toUInt8 :: littleEndian width (n / 256)

/-! ## Checksums

An archive keeps the CRC-32 of each entry.
-/

/-- One step of the polynomial division, for one bit. -/
def crcBit (c : UInt32) : UInt32 := if c &&& 1 = 1 then (c >>> 1) ^^^ 0xEDB88320 else c >>> 1

/-- Takes a byte into the remainder. -/
def crcByte (c : UInt32) (b : UInt8) : UInt32 :=
  crcBit (crcBit (crcBit (crcBit (crcBit (crcBit (crcBit (crcBit (c ^^^ b.toUInt32))))))))

/-- The checksum of some bytes. -/
def checksum (bytes : List UInt8) : UInt32 := bytes.foldl crcByte 0xFFFFFFFF ^^^ 0xFFFFFFFF

/-! ## Reading -/

/-- The upper half of the code page in which old archives spell their names. -/
def codePage : String :=
  "ÇüéâäàåçêëèïîìÄÅÉæÆôöòûùÿÖÜ¢£¥₧ƒáíóúñÑªº¿⌐¬½¼¡«»░▒▓│┤╡╢╖╕╣║╗╝╜╛┐" ++
  "└┴┬├─┼╞╟╚╔╩╦╠═╬╧╨╤╥╙╘╒╓╫╪┘┌█▄▌▐▀" ++
  "αßΓπΣσµτΦΘΩδ∞φε∩≡±≥≤⌠⌡÷≈°∙·√ⁿ²■\u00a0"

/-- The name of an entry, in UTF-8 or in the old code page. -/
def entryName (utf8 : Bool) (bytes : ArchiveBytes) : String :=
  if utf8 then Text.ofUtf8Lenient bytes
  else String.ofList (bytes.map fun b =>
    if b < 0x80 then Char.ofNat b.toNat else codePage.toList.getD (b.toNat - 0x80) ' ')

/-- Unpacks the bytes of an entry and compares their checksum. -/
def unpack (method crc : Nat) (packed : ArchiveBytes) : Except String ArchiveBytes := do
  let bytes ← match method with
    | 0 => .ok packed
    | 8 => match inflate packed with
      | some bytes => .ok bytes
      | none => .error "corrupt deflate stream"
    | _ => .error "Compression method not supported"
  if (checksum bytes).toNat = crc then .ok bytes else .error "Invalid checksum"

/-- The packed bytes of an entry, found through its local header. -/
def packedBytes (file : ArchiveBytes) (header size : Nat) : Option ArchiveBytes := do
  let signature ← number32 file header
  let nameLength ← number16 file (header + 26)
  let extraLength ← number16 file (header + 28)
  let packed := (file.drop (header + 30 + nameLength + extraLength)).take size
  if signature = 0x04034B50 && packed.length = size then some packed else none

/-- One record of the directory and the position of the next. `start` is where the archive begins
in the file. -/
def directoryEntry (file : ArchiveBytes) (start position : Nat) : Option (ArchiveEntry × Nat) := do
  let signature ← number32 file position
  let flags ← number16 file (position + 8)
  let method ← number16 file (position + 10)
  let crc ← number32 file (position + 16)
  let size ← number32 file (position + 20)
  let nameLength ← number16 file (position + 28)
  let extraLength ← number16 file (position + 30)
  let commentLength ← number16 file (position + 32)
  let header ← number32 file (position + 42)
  let name := (file.drop (position + 46)).take nameLength
  if signature ≠ 0x02014B50 || name.length ≠ nameLength then none
  else
    let content := match packedBytes file (start + header) size with
      | some packed => unpack method crc packed
      | none => .error "Invalid local file header"
    some (⟨entryName (flags / 0x800 % 2 = 1) name, content⟩,
      position + 46 + nameLength + extraLength + commentLength)

/-- A number of directory records. -/
def directory (file : ArchiveBytes) (start : Nat) : (count position : Nat) → Option Archive
  | 0, _ => some []
  | count + 1, position => do
    let (entry, next) ← directoryEntry file start position
    return entry :: (← directory file start count next)

/-- The length of an end record without its comment. -/
def endLength : Nat := 22

/-- Reads the archive whose end record is at a position. -/
def endRecord (file : ArchiveBytes) (position : Nat) : Option Archive := do
  let signature ← number32 file position
  let count ← number16 file (position + 10)
  let size ← number32 file (position + 12)
  let offset ← number32 file (position + 16)
  let commentLength ← number16 file (position + 20)
  if signature ≠ 0x06054B50 || file.length < position + endLength + commentLength
      || position < size + offset then none
  else directory file (position - size - offset) count (position - size)

/-- Looks for an end record from a number of positions on downwards. -/
def searchEnd (file : ArchiveBytes) : (positions : Nat) → Option Archive
  | 0 => none
  | n + 1 =>
    if number32 file n = some 0x06054B50 then
      match endRecord file n with
      | some a => some a
      | none => searchEnd file n
    else searchEnd file n

/-- The archive in a file. -/
def ofBytes? (file : ArchiveBytes) : Option Archive := searchEnd file (file.length + 1 - endLength)

/-! ## Writing -/

/-- The fields that the local header and the directory record of a stored entry share. -/
def commonFields (name bytes : ArchiveBytes) : ArchiveBytes :=
  littleEndian 2 20 ++ littleEndian 2 0x800 ++ littleEndian 2 0 ++ littleEndian 4 0x00210000 ++
    littleEndian 4 (checksum bytes).toNat ++ littleEndian 4 bytes.length ++
    littleEndian 4 bytes.length ++ littleEndian 2 name.length ++ littleEndian 2 0

/-- A stored entry with its header. -/
def localRecord (name bytes : ArchiveBytes) : ArchiveBytes :=
  littleEndian 4 0x04034B50 ++ commonFields name bytes ++ name ++ bytes

/-- The directory record of a stored entry whose header is at an offset. -/
def directoryRecord (offset : Nat) (name bytes : ArchiveBytes) : ArchiveBytes :=
  littleEndian 4 0x02014B50 ++ littleEndian 2 20 ++ commonFields name bytes ++
    littleEndian 2 0 ++ littleEndian 2 0 ++ littleEndian 2 0 ++ littleEndian 4 0 ++
    littleEndian 4 offset ++ name

/-- The stored entries, then their directory records, from an offset on. -/
def records (offset : Nat) : List (ArchiveBytes × ArchiveBytes) → ArchiveBytes × ArchiveBytes
  | [] => ([], [])
  | (name, bytes) :: rest =>
    let first := localRecord name bytes
    let (locals, central) := records (offset + first.length) rest
    (first ++ locals, directoryRecord offset name bytes ++ central)

/-- A file that holds the entries as an archive. -/
def toBytes (entries : List (String × ArchiveBytes)) : ArchiveBytes :=
  let (locals, central) := records 0 (entries.map fun (name, bytes) => (Text.toUtf8 name, bytes))
  locals ++ central ++ littleEndian 4 0x06054B50 ++ littleEndian 4 0 ++
    littleEndian 2 entries.length ++ littleEndian 2 entries.length ++
    littleEndian 4 central.length ++ littleEndian 4 locals.length ++ littleEndian 2 0

end Archive

end LinkedDeposit
