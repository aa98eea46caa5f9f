import Mathlib.Data.List.Basic
import LinkedDeposit.Json.Reader

/-!
# Quoted strings

A string can be written between quotes whatever characters are in it: the reader finds the closing
quote, and gives back the string. No character of the written form is a control character, so a
quoted string stays on its line.

Results:
* `spelling_escapeChar`: the three ways in which a character is written.
* `stringBody_escaped`: the reader finds the end of a written string, whatever follows.
* `stringOf?_escaped`: a written string is read back.
* `printable_escaped`: there is no control character in a written string.
-/

namespace LinkedDeposit.Json

/-- What stands between the quotes of a written string. -/
def escaped (s : String) : List Char := s.toList.flatMap escapeChar

theorem quote_toList (s : String) : (quote s).toList = '"' :: escaped s ++ ['"'] := by
  simp [quote, escaped]

/-- How a character is spelled inside a string. -/
inductive Spelling (c : Char) : List Char → Prop where
  /-- By a letter behind a backslash. -/
  | letter {e : Char} (escapes : isEscape e = true) (means : unescape e = c) : Spelling c ['\\', e]
  /-- By its number. -/
  | number (control : c.toNat < 0x20) : Spelling c ('\\' :: 'u' :: '0' :: '0' :: hexByte c.toNat)
  /-- By itself. -/
  | plain (printable : ¬c.toNat < 0x20) (quote : c ≠ '"') (backslash : c ≠ '\\') : Spelling c [c]

theorem ofNat_eq {c : Char} {n : Nat} (h : c.toNat = n) : Char.ofNat n = c := by
  rw [← h, Char.ofNat_toNat]

/-- Every character has a spelling. -/
theorem spelling_escapeChar (c : Char) : Spelling c (escapeChar c) := by
  unfold escapeChar
  split
  case h_1 => exact .letter rfl rfl
  case h_2 => exact .letter rfl rfl
  case h_3 => exact .letter rfl rfl
  case h_4 => exact .letter rfl rfl
  case h_5 => exact .letter rfl rfl
  case h_6 quote backslash _ _ _ =>
    split_ifs with backspace feed control
    · exact .letter rfl (ofNat_eq backspace)
    · exact .letter rfl (ofNat_eq feed)
    · exact .number control
    · exact .plain control quote backslash

variable {c : Char} {w : List Char}

/-! ## Numbers -/

theorem isHexDigit_number {n : Nat} (control : n < 0x20) :
    ('0' :: '0' :: hexByte n).all isHexDigit = true := by
  decide +revert

theorem hexUnit_number {n : Nat} (control : n < 0x20) :
    hexUnit '0' '0' (Nat.digitChar (n / 16)) (Nat.digitChar (n % 16)) = n := by
  decide +revert

theorem printable_number {n : Nat} (control : n < 0x20) :
    ∀ d ∈ '\\' :: 'u' :: '0' :: '0' :: hexByte n, ¬d.toNat < 0x20 := by
  decide +revert

/-- A number below the surrogates stands for its character. -/
theorem unescapeAll_number {a b c d : Char} (low : hexUnit a b c d < 0xD800) (s : List Char) :
    unescapeAll ('\\' :: 'u' :: a :: b :: c :: d :: s) =
      (unescapeAll s).map (Char.ofNat (hexUnit a b c d) :: ·) := by
  have first : ¬0xD800 ≤ hexUnit a b c d := by omega
  have second : ¬0xDC00 ≤ hexUnit a b c d := by omega
  rw [unescapeAll.eq_def]
  simp [first, second]

/-! ## One character -/

theorem ne_u_of_isEscape {e : Char} (escapes : isEscape e = true) : e ≠ 'u' := by
  rintro rfl
  cases escapes

theorem printable_of_isEscape {e : Char} (escapes : isEscape e = true) : ¬e.toNat < 0x20 := by
  have all : ∀ e ∈ ['"', '\\', '/', 'b', 'f', 'n', 'r', 't'], ¬e.toNat < 0x20 := by decide
  exact all e (of_decide_eq_true escapes)

theorem stringBody_spelling (spelled : Spelling c w) (s : List Char) :
    stringBody (w ++ s) = (stringBody s).map fun (raw, rest) => (w ++ raw, rest) := by
  cases spelled with
  | letter escapes means => simp [stringBody, escapes, ne_u_of_isEscape escapes]
  | number control => exact if_pos (isHexDigit_number control)
  | plain printable quote backslash => simp [stringBody, printable, backslash]

theorem unescapeAll_spelling (spelled : Spelling c w) (s : List Char) :
    unescapeAll (w ++ s) = (unescapeAll s).map (c :: ·) := by
  cases spelled with
  | letter escapes means => simp [unescapeAll, means, ne_u_of_isEscape escapes]
  | number control =>
    have number := hexUnit_number control
    have low : hexUnit '0' '0' (Nat.digitChar (c.toNat / 16)) (Nat.digitChar (c.toNat % 16)) <
        0xD800 := by omega
    rw [hexByte, List.cons_append, List.cons_append, List.cons_append, List.cons_append,
      List.cons_append, List.cons_append, List.nil_append, unescapeAll_number low, number,
      Char.ofNat_toNat]
  | plain printable quote backslash => simp [unescapeAll, backslash]

theorem printable_spelling (spelled : Spelling c w) : ∀ d ∈ w, ¬d.toNat < 0x20 := by
  cases spelled with
  | letter escapes means =>
    exact List.forall_mem_cons.mpr ⟨by decide, by simpa using printable_of_isEscape escapes⟩
  | number control => exact printable_number control
  | plain printable quote backslash => simpa using printable

/-! ## Strings -/

/-- **The end of a written string is found**, whatever follows. -/
theorem stringBody_escaped (s : String) (rest : List Char) :
    stringBody (escaped s ++ '"' :: rest) = some (escaped s, rest) := by
  unfold escaped
  induction s.toList with
  | nil => rfl
  | cons c s ih =>
    rw [List.flatMap_cons, List.append_assoc, stringBody_spelling (spelling_escapeChar c), ih]
    rfl

/-- **A written string is read back.** -/
theorem stringOf?_escaped (s : String) : stringOf? (escaped s) = some s := by
  have chars (s : List Char) : unescapeAll (s.flatMap escapeChar) = some s := by
    induction s with
    | nil => rfl
    | cons c s ih =>
      rw [List.flatMap_cons, unescapeAll_spelling (spelling_escapeChar c), ih]
      rfl
  rw [stringOf?, escaped, chars]
  exact congrArg some (String.ofList_toList)

/-- **A written string has no control characters.** -/
theorem printable_escaped (s : String) : ∀ d ∈ escaped s, ¬d.toNat < 0x20 := by
  intro d hd
  obtain ⟨c, -, hd⟩ := List.mem_flatMap.mp hd
  exact printable_spelling (spelling_escapeChar c) d hd

end LinkedDeposit.Json
