import LinkedDeposit.Decimal.Binary64

/-!
# The shortest decimal of a double

A double is written with the fewest significant digits that read back to it; of several such
numbers the nearest is taken. The search runs on exact naturals: for one digit, two digits and so
on it tries the two neighbours of the double on the grid of that precision against the interval of
numbers that round to the double.

`Binary64.toText` then spells the digits: positionally from `10 ^ -5` up to `10 ^ 16`, always with a
point, and otherwise as a mantissa and a signed power of ten.
-/

namespace LinkedDeposit.Binary64

/-- The ends of the interval of numbers that round to a double, in units of a quarter of its last
place, with the double in the middle; `closed` says whether the ends belong to it. -/
structure Interval where
  low : Nat
  middle : Nat
  high : Nat
  closed : Bool

/-- The rounding interval. The gap below a power of two is half as wide. -/
def interval (x : Binary64) : Interval :=
  let m := 4 * x.mantissa
  let below := if x.mantissa = fullMantissa && minExponent < x.exponent then 1 else 2
  ⟨m - below, m, m + 2, x.mantissa % 2 = 0⟩

/-- `n` units of the interval over `10 ^ k`, as a quotient of naturals. -/
def overTen (x : Binary64) (n : Nat) (k : Int) : Nat × Nat :=
  let e := x.exponent - 2
  let num := if 0 ≤ e then n * Nat.pow 2 e.toNat else n
  let den := if 0 ≤ e then 1 else Nat.pow 2 (-e).toNat
  if 0 ≤ k then (num, den * Nat.pow 10 k.toNat) else (num * Nat.pow 10 (-k).toNat, den)

/-- Whether `d · 10 ^ k` rounds to the double. -/
def reads (x : Binary64) (k : Int) (d : Nat) : Bool :=
  let i := x.interval
  let (ln, ld) := x.overTen i.low k
  let (hn, hd) := x.overTen i.high k
  if i.closed then ln ≤ d * ld && d * hd ≤ hn else ln < d * ld && d * hd < hn

/-- The multiple of `10 ^ k` next to the double that reads back to it, the nearer one if both do. -/
def hit? (x : Binary64) (k : Int) : Option Nat :=
  let (n, d) := x.overTen x.interval.middle k
  let q := n / d
  match x.reads k q, x.reads k (q + 1) with
  | true, true =>
    let twice := 2 * (n % d)
    some (if twice < d then q else if d < twice then q + 1 else q + q % 2)
  | true, false => some q
  | false, true => some (q + 1)
  | false, false => none

/-- The exponent of the leading decimal digit of a double that is not zero. -/
def leadingExponent (x : Binary64) : Int :=
  let estimate : Int := ((x.mantissa.log2 : Int) + x.exponent) * 30103 / 100000
  let isBelow (k : Int) : Bool :=
    let (n, d) := x.overTen x.interval.middle k
    n < d
  if isBelow estimate then estimate - 1 else if isBelow (estimate + 1) then estimate
  else estimate + 1

/-- Tries one digit more in each step. -/
def searchDigits (x : Binary64) (lead : Int) : (steps digits : Nat) → Nat × Int
  | 0, digits => ((x.hit? (lead + 1 - digits)).getD 0, lead + 1 - digits)
  | steps + 1, digits =>
    match x.hit? (lead + 1 - digits) with
    | some d => (d, lead + 1 - digits)
    | none => searchDigits x lead steps (digits + 1)

/-- Drops zeros at the end of a number into its power of ten. -/
def dropZeros : (fuel : Nat) → Nat → Int → Nat × Int
  | 0, d, k => (d, k)
  | fuel + 1, d, k => if d ≠ 0 && d % 10 = 0 then dropZeros fuel (d / 10) (k + 1) else (d, k)

/-- The shortest decimal `d · 10 ^ k` of the magnitude, where `d` does not end in a zero. -/
def shortest (x : Binary64) : Nat × Int :=
  if x.isZero then (0, 0)
  else
    let (d, k) := x.searchDigits x.leadingExponent 16 1
    dropZeros 20 d k

/-- The digits of a natural number. -/
def digitsOf (n : Nat) : List Char := Nat.toDigits 10 n

/-- A magnitude with its digits and the power of ten of its last digit. -/
def spell (digits : List Char) (k : Int) : List Char :=
  let point : Int := digits.length + k
  if -5 < point && point ≤ 16 then
    if 0 ≤ k then digits ++ List.replicate k.toNat '0' ++ ['.', '0']
    else if 0 < point then digits.take point.toNat ++ '.' :: digits.drop point.toNat
    else '0' :: '.' :: List.replicate (-point).toNat '0' ++ digits
  else
    let power := point - 1
    let mantissa := match digits with
      | [d] => [d]
      | d :: rest => d :: '.' :: rest
      | [] => []
    mantissa ++ 'e' :: (if power < 0 then '-' else '+') :: digitsOf power.natAbs

/-- The text of a double. -/
def toText (x : Binary64) : String :=
  let (d, k) := x.shortest
  let magnitude := if x.isZero then ['0', '.', '0'] else spell (digitsOf d) k
  String.ofList (if x.negative then '-' :: magnitude else magnitude)

end LinkedDeposit.Binary64
