/-!
# Base64

Bytes as letters, digits, `+` and `/`, three bytes in four characters, with `=` in the places that
the last bytes leave.
-/

namespace LinkedDeposit.Text

/-- The character of a number below 64. -/
def base64Char (n : Nat) : Char :=
  if n < 26 then Char.ofNat ('A'.toNat + n)
  else if n < 52 then Char.ofNat ('a'.toNat + (n - 26))
  else if n < 62 then Char.ofNat ('0'.toNat + (n - 52))
  else if n = 62 then '+' else '/'

/-- The characters of some bytes. -/
def base64Chars : List UInt8 → List Char
  | [] => []
  | [a] =>
    let n := a.toNat * 16
    [base64Char (n / 64), base64Char (n % 64), '=', '=']
  | [a, b] =>
    let n := (a.toNat * 256 + b.toNat) * 4
    [base64Char (n / 4096), base64Char (n / 64 % 64), base64Char (n % 64), '=']
  | a :: b :: c :: rest =>
    let n := (a.toNat * 256 + b.toNat) * 256 + c.toNat
    base64Char (n / 262144) :: base64Char (n / 4096 % 64) :: base64Char (n / 64 % 64) ::
      base64Char (n % 64) :: base64Chars rest

def toBase64 (bytes : List UInt8) : String := String.ofList (base64Chars bytes)

example : toBase64 [77, 97, 110] = "TWFu" ∧ toBase64 [77, 97] = "TWE=" ∧
    toBase64 [77] = "TQ==" := by decide +kernel

end LinkedDeposit.Text
