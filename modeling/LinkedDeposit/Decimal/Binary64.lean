/-!
# Doubles as exact numbers

A finite double is a sign, a whole mantissa and a power of two. Arithmetic on magnitudes is done on
exact quotients and rounded once, to nearest with ties to the even mantissa (`ofQuotient`).
-/

namespace LinkedDeposit

/-- A finite double `± mantissa · 2 ^ exponent`. -/
structure Binary64 where
  negative : Bool
  mantissa : Nat
  exponent : Int
  deriving DecidableEq, Repr, Inhabited

namespace Binary64

/-- The least exponent, that of the subnormal numbers. -/
def minExponent : Int := -1074

/-- The greatest exponent of a finite double. -/
def maxExponent : Int := 971

/-- The least mantissa with all of its 53 bits, `2 ^ 52`. -/
def fullMantissa : Nat := 0x10000000000000

def zero (negative : Bool) : Binary64 := ⟨negative, 0, minExponent⟩

def isZero (x : Binary64) : Bool := x.mantissa = 0

/-- The quotient of two naturals to the nearest whole number, ties to the even one. -/
def divEven (num den : Nat) : Nat :=
  let q := num / den
  let twice := 2 * (num % den)
  if twice < den then q else if den < twice then q + 1 else q + q % 2

/-- `num / den` divided by a power of two, as a quotient of naturals. -/
def scaled (num den : Nat) (exponent : Int) : Nat × Nat :=
  if 0 ≤ exponent then (num, den * Nat.pow 2 exponent.toNat)
  else (num * Nat.pow 2 (-exponent).toNat, den)

/-- An exponent for which `num / den` has a mantissa of 53 bits, or the least exponent. -/
def chooseExponent (num den : Nat) : Int :=
  let e : Int := (num.log2 : Int) - (den.log2 : Int) - 53
  let (n, d) := scaled num den e
  max minExponent (if n / d < 2 * fullMantissa then e else e + 1)

/-- The double nearest to `num / den`, and nothing when it is too large for one. -/
def ofQuotient (negative : Bool) (num den : Nat) : Option Binary64 :=
  if num = 0 then some (zero negative)
  else
    let e := chooseExponent num den
    let (n, d) := scaled num den e
    let m := divEven n d
    let (m, e) := if m = 2 * fullMantissa then (fullMantissa, e + 1) else (m, e)
    if maxExponent < e then none else some ⟨negative, m, if m = 0 then minExponent else e⟩

/-- The magnitude as a quotient of naturals. -/
def quotient (x : Binary64) : Nat × Nat :=
  if 0 ≤ x.exponent then (x.mantissa * Nat.pow 2 x.exponent.toNat, 1)
  else (x.mantissa, Nat.pow 2 (-x.exponent).toNat)

/-- The double nearest to a natural number below `2 ^ 64`. -/
def ofNat (n : Nat) : Binary64 := (ofQuotient false n 1).getD (zero false)

/-- The double nearest to a power of ten, for exponents up to 308. -/
def tenPow (k : Nat) : Binary64 := (ofQuotient false (Nat.pow 10 k) 1).getD (zero false)

/-- The rounded product of two magnitudes, and nothing on overflow. -/
def mul (x y : Binary64) : Option Binary64 :=
  let (n, d) := x.quotient
  let (n', d') := y.quotient
  ofQuotient x.negative (n * n') (d * d')

/-- The rounded quotient of two magnitudes. -/
def div (x y : Binary64) : Binary64 :=
  let (n, d) := x.quotient
  let (n', d') := y.quotient
  (ofQuotient x.negative (n * d') (d * n')).getD (zero x.negative)

/-- A double times a power of ten. Each step multiplies or divides by a rounded power and rounds
the result; powers below `10 ^ -308` take several steps. Nothing on overflow. -/
def scaleTen (x : Binary64) : (steps : Nat) → (exponent : Int) → Option Binary64
  | 0, _ => some x
  | steps + 1, e =>
    if 0 ≤ e then
      if e ≤ 308 then x.mul (tenPow e.toNat) else if x.isZero then some x else none
    else if -308 ≤ e then some (x.div (tenPow (-e).toNat))
    else if x.isZero then some x
    else (x.div (tenPow 308)).scaleTen steps (e + 308)

/-- `significand · 10 ^ exponent` for a significand below `2 ^ 64`. Three divisions by `10 ^ 308`
leave nothing of such a significand, so four steps are enough. -/
def ofDecimal (negative : Bool) (significand : Nat) (exponent : Int) : Option Binary64 :=
  ((ofNat significand).scaleTen 4 exponent).map fun x => { x with negative }

end Binary64

end LinkedDeposit
