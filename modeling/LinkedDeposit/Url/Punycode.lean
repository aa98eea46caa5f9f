/-!
# Punycode

Reads a label in which characters beyond ASCII are spelled as insertions. Each insertion is a number
in digits of base 36 whose last digit is told by a threshold, which adapts from insertion to
insertion.
-/

namespace LinkedDeposit.Url.Punycode

/-- The value of a digit. -/
def digit? (c : Char) : Option Nat :=
  if 'a' ≤ c && c ≤ 'z' then some (c.toNat - 'a'.toNat)
  else if 'A' ≤ c && c ≤ 'Z' then some (c.toNat - 'A'.toNat)
  else if c.isDigit then some (c.toNat - '0'.toNat + 26)
  else none

/-- A digit below the threshold of its place ends a number. -/
def threshold (place bias : Nat) : Nat := min 26 (max 1 (place - bias))

/-- Numbers stay below this bound. -/
def bound : Nat := 0x100000000

/-- Reads a number and gives what follows it. -/
def number (bias : Nat) : (place weight value : Nat) → List Char → Option (Nat × List Char)
  | _, _, _, [] => none
  | place, weight, value, c :: s => do
    let d ← digit? c
    let value := value + d * weight
    let t := threshold place bias
    if bound ≤ value then none
    else if d < t then return (value, s)
    else number bias (place + 36) (weight * (36 - t)) value s

/-- Divides until the number is small; counts the divisions in steps of the base. -/
def settle (delta : Nat) : Nat × Nat :=
  if delta ≤ 455 then (0, delta)
  else
    let (k, d) := settle (delta / 35)
    (k + 36, d)
termination_by delta
decreasing_by exact Nat.div_lt_self (by omega) (by omega)

/-- The threshold's bias after an insertion. -/
def adapt (delta count : Nat) (isFirst : Bool) : Nat :=
  let delta := if isFirst then delta / 700 else delta / 2
  let (k, delta) := settle (delta + delta / count)
  k + 36 * delta / (delta + 38)

/-- Puts characters into the text read so far. Each insertion takes a digit at least. -/
def insertAll : (fuel : Nat) → (code position bias : Nat) → (out : List Char) → List Char →
    Option (List Char)
  | _, _, _, _, out, [] => some out
  | 0, _, _, _, _, _ => none
  | fuel + 1, code, position, bias, out, s => do
    let (delta, s) ← number bias 36 1 0 s
    let count := out.length + 1
    let code := code + (position + delta) / count
    let place := (position + delta) % count
    if bound ≤ code || !decide code.isValidChar then none
    else
      let out := out.take place ++ Char.ofNat code :: out.drop place
      insertAll fuel code (place + 1) (adapt delta count (position = 0)) out s

/-- The text of a label that is spelled this way: ASCII characters before the last hyphen, if there
are any, then the insertions. -/
def decode (s : List Char) : Option (List Char) :=
  let basic := (s.reverse.dropWhile (· ≠ '-')).tail.reverse
  let insertions := if basic.isEmpty then s else s.drop (basic.length + 1)
  if basic.all (·.toNat < 0x80) then insertAll (s.length + 1) 0x80 0 72 basic insertions else none

end LinkedDeposit.Url.Punycode
