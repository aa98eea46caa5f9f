/-!
# Cutting texts

URIs, identifiers and paths are cut at single characters. The cuts are stated on lists of
characters; `String` versions wrap them.
-/

namespace LinkedDeposit.Text

/-- What holds of all characters of a text is decided character by character, not by going through
all characters that there are. -/
instance (priority := high) decidableForallChar (p : Char → Prop) [DecidablePred p] (s : List Char) :
    Decidable (∀ c ∈ s, p c) := List.decidableBAll p s

/-- What follows `p` in `s`, if `s` begins with it. -/
def afterPrefix? : (p s : List Char) → Option (List Char)
  | [], s => some s
  | _ :: _, [] => none
  | a :: p, c :: s => if a = c then afterPrefix? p s else none

theorem afterPrefix?_eq_some_iff {p s r : List Char} : afterPrefix? p s = some r ↔ s = p ++ r := by
  induction p generalizing s with
  | nil => simp [afterPrefix?, eq_comm]
  | cons a p ih =>
    cases s with
    | nil => simp [afterPrefix?]
    | cons c s =>
      by_cases h : a = c
      · subst h
        simp [afterPrefix?, ih]
      · simp only [afterPrefix?, if_neg h, List.cons_append, List.cons.injEq]
        grind

/-- What follows `p` in `s`, if `s` begins with it. -/
def dropPrefix? (p s : String) : Option String :=
  (afterPrefix? p.toList s.toList).map String.ofList

theorem dropPrefix?_eq_some_iff {p s r : String} : dropPrefix? p s = some r ↔ s = p ++ r := by
  simp only [dropPrefix?, Option.map_eq_some_iff, afterPrefix?_eq_some_iff]
  constructor
  · rintro ⟨l, h, rfl⟩
    exact String.toList_injective (by simpa using h)
  · rintro rfl
    exact ⟨r.toList, by simp, by simp⟩

/-- The text without the slashes at its end. -/
def trimSlashes (s : String) : String :=
  String.ofList ((s.toList.reverse.dropWhile (· = '/')).reverse)

theorem getLast?_trimSlashes (s : String) : (trimSlashes s).toList.getLast? ≠ some '/' := by
  simp only [trimSlashes, String.toList_ofList, List.getLast?_reverse]
  intro h
  have := List.head?_dropWhile_not (fun c => decide (c = '/')) s.toList.reverse
  rw [h] at this
  simp at this

/-- Cuts at the first character of a class, which begins the second part. -/
def cutBefore (p : Char → Bool) (s : String) : String × String :=
  (String.ofList (s.toList.takeWhile (! p ·)), String.ofList (s.toList.dropWhile (! p ·)))

/-- A cut loses nothing. -/
theorem cutBefore_append (p : Char → Bool) (s : String) :
    (cutBefore p s).1 ++ (cutBefore p s).2 = s :=
  String.toList_injective (by simp [cutBefore, List.takeWhile_append_dropWhile])

/-- The part after the last character of a class. -/
def afterLast (p : Char → Bool) (s : List Char) : List Char :=
  (s.reverse.takeWhile (! p ·)).reverse

end LinkedDeposit.Text
