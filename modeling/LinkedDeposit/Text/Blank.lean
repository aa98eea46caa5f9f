/-!
# Blank characters

A character is blank when Unicode counts it as white space. `trimBlank` cuts blanks at both ends,
`words` cuts a text at its blanks.
-/

namespace LinkedDeposit.Text

/-- Whether Unicode counts the character as white space. -/
def isBlank (c : Char) : Bool :=
  let n := c.toNat
  (9 ≤ n && n ≤ 13) || n = 0x20 || n = 0x85 || n = 0xA0 || n = 0x1680 || (0x2000 ≤ n && n ≤ 0x200A)
    || n = 0x2028 || n = 0x2029 || n = 0x202F || n = 0x205F || n = 0x3000

/-- Cuts characters of a class at the end. -/
def trimRight (p : Char → Bool) (s : List Char) : List Char := (s.reverse.dropWhile p).reverse

/-- Cuts characters of a class at both ends. -/
def trimBoth (p : Char → Bool) (s : List Char) : List Char := trimRight p (s.dropWhile p)

/-- Cuts blanks at both ends. -/
def trimBlank (s : List Char) : List Char := trimBoth isBlank s

/-- The parts between characters of a class; there is one more part than such characters. -/
def splitAt (p : Char → Bool) : List Char → List (List Char)
  | [] => [[]]
  | c :: s =>
    match splitAt p s with
    | [] => [[c]]
    | part :: parts => if p c then [] :: part :: parts else (c :: part) :: parts

/-- The longest runs of characters that are not blank. -/
def words (s : List Char) : List (List Char) := (splitAt isBlank s).filter (! ·.isEmpty)

theorem splitAt_ne_nil (p : Char → Bool) (s : List Char) : splitAt p s ≠ [] := by
  induction s with
  | nil => simp [splitAt]
  | cons c s ih =>
    unfold splitAt
    split
    · simp
    · split <;> simp

end LinkedDeposit.Text
