/-!
# Inflating deflated bytes

A deflated stream is a sequence of blocks, each stored or coded with two Huffman codes: one for
literal bytes and lengths, one for distances. Codes are kept as the number of codes of each length
and the symbols in the order of their codes; a symbol is found by taking bits until the code so far
is one of its length.

Every loop takes at least one bit of the input, so the number of bits bounds it.
-/

namespace LinkedDeposit.Archive

/-- Compressed bytes with the position of the next bit, and what has been inflated so far. -/
structure Inflation where
  input : Array UInt8
  position : Nat
  output : Array UInt8

namespace Inflation

/-- Takes a number of bits, the least significant first. -/
def bits : (n : Nat) → Inflation → Option (Nat × Inflation)
  | 0, s => some (0, s)
  | n + 1, s =>
    match s.input[s.position / 8]? with
    | none => none
    | some b =>
      let bit := b.toNat / Nat.pow 2 (s.position % 8) % 2
      (bits n { s with position := s.position + 1 }).map fun (v, s) => (bit + 2 * v, s)

/-- Skips to the next whole byte. -/
def align (s : Inflation) : Inflation := { s with position := (s.position + 7) / 8 * 8 }

def emit (s : Inflation) (b : UInt8) : Inflation := { s with output := s.output.push b }

/-- Repeats bytes from some distance back. -/
def copy (distance : Nat) : (length : Nat) → Inflation → Option Inflation
  | 0, s => some s
  | length + 1, s =>
    if distance = 0 || s.output.size < distance then none
    else copy distance length (s.emit (s.output.getD (s.output.size - distance) 0))

end Inflation

/-- A canonical code: how many codes there are of each length, and the symbols by code. -/
structure Code where
  counts : List Nat
  symbols : Array Nat

/-- The code that gives each symbol a code of its length; length zero gives none. -/
def Code.ofLengths (lengths : List Nat) : Code where
  counts := (List.range 15).map fun l => lengths.countP (· = l + 1)
  symbols := ((List.range 15).flatMap fun l =>
    lengths.zipIdx.filterMap fun (n, i) => if n = l + 1 then some i else none).toArray

/-- Takes one symbol. `code` is the code so far, `first` the first code of its length and `index`
the number of shorter codes. -/
def Code.symbol (symbols : Array Nat) : (counts : List Nat) → (code first index : Nat) →
    Inflation → Option (Nat × Inflation)
  | [], _, _, _, _ => none
  | count :: counts, code, first, index, s =>
    match s.bits 1 with
    | none => none
    | some (bit, s) =>
      let code := code + bit
      if code < first + count then (symbols[index + (code - first)]?).map (·, s)
      else Code.symbol symbols counts (2 * code) (2 * (first + count)) (index + count) s

def Code.take (c : Code) (s : Inflation) : Option (Nat × Inflation) :=
  Code.symbol c.symbols c.counts 0 0 0 s

def lengthBase : List Nat :=
  [3, 4, 5, 6, 7, 8, 9, 10, 11, 13, 15, 17, 19, 23, 27, 31, 35, 43, 51, 59, 67, 83, 99, 115, 131,
    163, 195, 227, 258]

def lengthExtra : List Nat :=
  [0, 0, 0, 0, 0, 0, 0, 0, 1, 1, 1, 1, 2, 2, 2, 2, 3, 3, 3, 3, 4, 4, 4, 4, 5, 5, 5, 5, 0]

def distanceBase : List Nat :=
  [1, 2, 3, 4, 5, 7, 9, 13, 17, 25, 33, 49, 65, 97, 129, 193, 257, 385, 513, 769, 1025, 1537, 2049,
    3073, 4097, 6145, 8193, 12289, 16385, 24577]

def distanceExtra : List Nat :=
  [0, 0, 0, 0, 1, 1, 2, 2, 3, 3, 4, 4, 5, 5, 6, 6, 7, 7, 8, 8, 9, 9, 10, 10, 11, 11, 12, 12, 13, 13]

/-- The value of a symbol with extra bits. -/
def extended (base extra : List Nat) (i : Nat) (s : Inflation) : Option (Nat × Inflation) := do
  let b ← base[i]?
  let e ← extra[i]?
  let (n, s) ← s.bits e
  return (b + n, s)

/-- Takes the symbols of a coded block up to its end. -/
def codedBlock (literals distances : Code) : (fuel : Nat) → Inflation → Option Inflation
  | 0, _ => none
  | fuel + 1, s =>
    match literals.take s with
    | none => none
    | some (symbol, s) =>
      if symbol < 256 then codedBlock literals distances fuel (s.emit symbol.toUInt8)
      else if symbol = 256 then some s
      else
        let copied := do
          let (length, s) ← extended lengthBase lengthExtra (symbol - 257) s
          let (d, s) ← distances.take s
          let (distance, s) ← extended distanceBase distanceExtra d s
          s.copy distance length
        match copied with
        | none => none
        | some s => codedBlock literals distances fuel s

/-- The code lengths of the fixed literal code. -/
def fixedLengths : List Nat :=
  List.replicate 144 8 ++ List.replicate 112 9 ++ List.replicate 24 7 ++ List.replicate 8 8

/-- The order in which the lengths of the length code are given. -/
def lengthOrder : List Nat := [16, 17, 18, 0, 8, 7, 9, 6, 10, 5, 11, 4, 12, 3, 13, 2, 14, 1, 15]

/-- Takes code lengths until there are `wanted`. -/
def codeLengths (c : Code) (wanted : Nat) : (fuel : Nat) → List Nat → Inflation →
    Option (List Nat × Inflation)
  | 0, _, _ => none
  | fuel + 1, found, s =>
    if wanted < found.length then none
    else if found.length = wanted then some (found, s)
    else
      match c.take s with
      | none => none
      | some (symbol, s) =>
        if symbol < 16 then codeLengths c wanted fuel (found ++ [symbol]) s
        else
          let repeated : Option (Nat × Nat × Nat) :=
            if symbol = 16 then found.getLast?.map (·, 2, 3)
            else if symbol = 17 then some (0, 3, 3) else some (0, 7, 11)
          match repeated with
          | none => none
          | some (length, extra, base) =>
            match s.bits extra with
            | none => none
            | some (n, s) =>
              codeLengths c wanted fuel (found ++ List.replicate (base + n) length) s

/-- Takes some three-bit lengths. -/
def shortLengths : (n : Nat) → Inflation → Option (List Nat × Inflation)
  | 0, s => some ([], s)
  | n + 1, s =>
    match s.bits 3 with
    | none => none
    | some (l, s) => (shortLengths n s).map fun (ls, s) => (l :: ls, s)

/-- A block that brings its own codes. -/
def dynamicBlock (fuel : Nat) (s : Inflation) : Option Inflation := do
  let (hlit, s) ← s.bits 5
  let (hdist, s) ← s.bits 5
  let (hclen, s) ← s.bits 4
  let (short, s) ← shortLengths (hclen + 4) s
  let lengths := (List.range 19).map fun i => (short[lengthOrder.idxOf i]?).getD 0
  let (all, s) ← codeLengths (Code.ofLengths lengths) (hlit + 257 + hdist + 1) fuel [] s
  let (literals, distances) := all.splitAt (hlit + 257)
  codedBlock (Code.ofLengths literals) (Code.ofLengths distances) fuel s

/-- Bytes that stand in the stream as they are. -/
def storedBytes : (n : Nat) → Inflation → Option Inflation
  | 0, s => some s
  | n + 1, s =>
    match s.bits 8 with
    | none => none
    | some (b, s) => storedBytes n (s.emit b.toUInt8)

def storedBlock (s : Inflation) : Option Inflation := do
  let (n, s) ← s.align.bits 16
  let (complement, s) ← s.bits 16
  if n + complement = 0xFFFF then storedBytes n s else none

/-- Takes blocks up to the last one. -/
def blocks (limit : Nat) : (fuel : Nat) → Inflation → Option Inflation
  | 0, _ => none
  | fuel + 1, s => do
    let (last, s) ← s.bits 1
    let (kind, s) ← s.bits 2
    let s ← if kind = 0 then storedBlock s
      else if kind = 1 then
        codedBlock (Code.ofLengths fixedLengths) (Code.ofLengths (List.replicate 30 5)) limit s
      else if kind = 2 then dynamicBlock limit s
      else none
    if last = 1 then some s else blocks limit fuel s

/-- The bytes of a deflated stream. -/
def inflate (bytes : List UInt8) : Option (List UInt8) :=
  let limit := 8 * bytes.length + 1
  (blocks limit limit ⟨bytes.toArray, 0, #[]⟩).map (·.output.toList)

end LinkedDeposit.Archive
