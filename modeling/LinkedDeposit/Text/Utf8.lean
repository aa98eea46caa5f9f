/-!
# Reading UTF-8

Bytes are read as a list of characters with a gap (`none`) for each longest run of bytes that begins
a character and does not complete it, and for each byte that begins none. The two readers differ
only in what they make of a gap: the strict one refuses it, the lenient one puts the replacement
character.
-/

namespace LinkedDeposit.Text

/-- A character of which some bytes are still to come: their number, the bounds of the next one and
the value so far. -/
structure Partial where
  left : Nat
  low : Nat
  high : Nat
  value : Nat

/-- Takes a byte that begins a character: what it yields and what it leaves open. -/
def beginChar (b : Nat) : List (Option Char) × Option Partial :=
  if b < 0x80 then ([some (Char.ofNat b)], none)
  else if 0xC2 ≤ b && b < 0xE0 then ([], some ⟨1, 0x80, 0xBF, b - 0xC0⟩)
  else if b = 0xE0 then ([], some ⟨2, 0xA0, 0xBF, 0⟩)
  else if b = 0xED then ([], some ⟨2, 0x80, 0x9F, 0xD⟩)
  else if 0xE1 ≤ b && b < 0xF0 then ([], some ⟨2, 0x80, 0xBF, b - 0xE0⟩)
  else if b = 0xF0 then ([], some ⟨3, 0x90, 0xBF, 0⟩)
  else if b = 0xF4 then ([], some ⟨3, 0x80, 0x8F, 4⟩)
  else if 0xF1 ≤ b && b < 0xF4 then ([], some ⟨3, 0x80, 0xBF, b - 0xF0⟩)
  else ([none], none)

/-- Takes one byte after what is open. -/
def takeByte (p : Option Partial) (b : Nat) : List (Option Char) × Option Partial :=
  match p with
  | none => beginChar b
  | some p =>
    if p.low ≤ b && b ≤ p.high then
      let value := p.value * 64 + (b - 0x80)
      if p.left = 1 then ([some (Char.ofNat value)], none)
      else ([], some ⟨p.left - 1, 0x80, 0xBF, value⟩)
    else
      let (out, open?) := beginChar b
      (none :: out, open?)

def decodeFrom (p : Option Partial) : List UInt8 → List (Option Char)
  | [] => if p.isSome then [none] else []
  | b :: bytes =>
    let (out, open?) := takeByte p b.toNat
    out ++ decodeFrom open? bytes

/-- The characters of some bytes, with gaps. -/
def decodeUtf8 (bytes : List UInt8) : List (Option Char) := decodeFrom none bytes

/-- The text of some bytes, if they are UTF-8. -/
def ofUtf8? (bytes : List UInt8) : Option String :=
  ((decodeUtf8 bytes).mapM id).map String.ofList

/-- A text with the replacement character for each gap. -/
def ofGaps (chars : List (Option Char)) : String :=
  String.ofList (chars.map (·.getD (Char.ofNat 0xFFFD)))

/-- The text of some bytes, with the replacement character for each gap. -/
def ofUtf8Lenient (bytes : List UInt8) : String := ofGaps (decodeUtf8 bytes)

/-- The bytes of a text. -/
def toUtf8 (s : String) : List UInt8 := s.toUTF8.toList

theorem toList_loop (bytes : ByteArray) (i : Nat) (read : List UInt8) :
    ByteArray.toList.loop bytes i read = read.reverse ++ bytes.data.toList.drop i := by
  fun_induction ByteArray.toList.loop bytes i read with
  | case1 i read h ih =>
    have next : bytes.data.toList.drop i = bytes.get! i :: bytes.data.toList.drop (i + 1) := by
      rw [List.drop_eq_getElem_cons (by simpa using h)]
      simp [ByteArray.get!, h]
    rw [ih, next, List.reverse_cons, List.append_assoc, List.singleton_append]
  | case2 i read h => rw [List.drop_eq_nil_of_le (by simpa using h), List.append_nil]

/-- Two texts have different bytes. -/
theorem toUtf8_injective {s t : String} (h : toUtf8 s = toUtf8 t) : s = t := by
  have all (bytes : ByteArray) : bytes.toList = bytes.data.toList := toList_loop bytes 0 []
  unfold toUtf8 at h
  rw [all, all] at h
  exact String.toByteArray_inj.mp (ByteArray.ext (Array.toList_inj.mp h))

/-- The two hexadecimal digits of each byte. -/
def toHex (bytes : List UInt8) : String :=
  String.ofList (bytes.flatMap fun b =>
    [Nat.digitChar (b.toNat / 16), Nat.digitChar (b.toNat % 16)])

end LinkedDeposit.Text
