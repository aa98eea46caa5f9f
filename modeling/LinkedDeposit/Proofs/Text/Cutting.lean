import Mathlib.Data.List.TakeWhile
import LinkedDeposit.Text.Blank

/-!
# Cutting texts apart

What the cuts of `Text.Blank` do to a text that is put together from parts: characters of a class
are cut off where they stand at an end, and a text comes apart at the characters of a class into
what was between them.

Results:
* `trimBoth_append`: what stands between characters of a class is what remains.
* `splitAt_append`: the first part of a text ends at the first character of the class.
* `splitAt_lines`: lines that are ended come apart again.
* `words_blank_append`, `words_token_append`: words are what stands between blanks.
-/

namespace LinkedDeposit.Text

variable {p : Char → Bool} {a b s : List Char}

/-! ## Cutting at an end -/

/-- Cutting in front leaves what begins with another character. -/
theorem dropWhile_eq_self (h : ∀ c ∈ s.head?, p c = false) : s.dropWhile p = s := by
  cases s with
  | nil => rfl
  | cons c s => simp [h c rfl]

/-- A run of characters ends where another one begins the rest. -/
theorem takeWhile_append_stop (run : ∀ c ∈ a, p c = true) (stop : ∀ c ∈ b.head?, p c = false) :
    (a ++ b).takeWhile p = a := by
  rw [List.takeWhile_append_of_pos run]
  cases b with
  | nil => simp
  | cons c b => simp [stop c rfl]

theorem drop_takeWhile (p : Char → Bool) (s : List Char) :
    s.drop (s.takeWhile p).length = s.dropWhile p := by
  induction s with
  | nil => rfl
  | cons c s ih => by_cases h : p c <;> simp [h, ih]

/-- Cutting at the end leaves what ends in another character. -/
theorem trimRight_append (b : List Char) (h : ∀ c ∈ a.getLast?, p c = false) :
    trimRight p (a ++ b) = a ++ trimRight p b := by
  have kept : a.reverse.dropWhile p = a.reverse :=
    dropWhile_eq_self fun c hc => h c (by rwa [List.head?_reverse] at hc)
  unfold trimRight
  rw [List.reverse_append, List.dropWhile_append, kept]
  by_cases cut : (b.reverse.dropWhile p).isEmpty
  · simp [List.isEmpty_iff.mp cut]
  · simp [cut]

theorem trimRight_isPrefix (p : Char → Bool) (s : List Char) : trimRight p s <+: s := by
  have tail := List.dropWhile_suffix p (l := s.reverse)
  unfold trimRight
  rw [← List.reverse_suffix]
  simpa using tail

/-- Nothing remains of characters that are all cut. -/
theorem trimRight_eq_nil (h : ∀ c ∈ s, p c = true) : trimRight p s = [] := by
  unfold trimRight
  rw [List.reverse_eq_nil_iff, List.dropWhile_eq_nil_iff]
  exact fun c hc => h c (List.mem_reverse.mp hc)

/-- Nothing remains of characters that are all cut. -/
theorem trimBoth_eq_nil (h : ∀ c ∈ s, p c = true) : trimBoth p s = [] := by
  unfold trimBoth
  rw [List.dropWhile_eq_nil_iff.mpr h]
  rfl

/-- **What stands between characters that are cut** remains. -/
theorem trimBoth_append (front : ∀ c ∈ a, p c = true) (back : ∀ c ∈ b, p c = true)
    (first : ∀ c ∈ s.head?, p c = false) (last : ∀ c ∈ s.getLast?, p c = false) :
    trimBoth p (a ++ s ++ b) = s := by
  cases s with
  | nil =>
    refine trimBoth_eq_nil fun c hc => ?_
    rw [List.append_nil] at hc
    exact (List.mem_append.mp hc).elim (front c) (back c)
  | cons c s =>
    have kept : (c :: s ++ b).dropWhile p = c :: s ++ b := dropWhile_eq_self first
    unfold trimBoth
    rw [List.append_assoc, List.dropWhile_append_of_pos front, kept, trimRight_append b last,
      trimRight_eq_nil back, List.append_nil]

/-! ## Cutting apart -/

/-- The first part of a text ends at the first character of the class. -/
theorem splitAt_append {stop : Char} (stops : p stop = true) (whole : ∀ c ∈ a, p c = false)
    (rest : List Char) : splitAt p (a ++ stop :: rest) = a :: splitAt p rest := by
  induction a with
  | nil =>
    rw [List.nil_append, splitAt]
    cases h : splitAt p rest with
    | nil => exact absurd h (splitAt_ne_nil _ _)
    | cons part parts => simp [stops]
  | cons c a ih =>
    obtain ⟨first, others⟩ := List.forall_mem_cons.mp whole
    rw [List.cons_append, splitAt, ih others]
    simp [first]

/-- What has no character of the class stays whole. -/
theorem splitAt_whole (whole : ∀ c ∈ s, p c = false) : splitAt p s = [s] := by
  induction s with
  | nil => rfl
  | cons c s ih =>
    obtain ⟨first, others⟩ := List.forall_mem_cons.mp whole
    rw [splitAt, ih others]
    simp [first]

/-- Behind a character of the class at the end there is an empty part. -/
theorem splitAt_concat {stop : Char} (stops : p stop = true) (s : List Char) :
    splitAt p (s ++ [stop]) = splitAt p s ++ [[]] := by
  induction s with
  | nil => simp [splitAt, stops]
  | cons c s ih =>
    rw [List.cons_append, splitAt, splitAt, ih]
    cases h : splitAt p s with
    | nil => exact absurd h (splitAt_ne_nil _ _)
    | cons part parts => by_cases cut : p c <;> simp [cut]

/-- Lines that are ended come apart again. -/
theorem splitAt_lines {ends : Char → Bool} {stop : Char} (stops : ends stop = true)
    {lines : List (List Char)} (whole : ∀ line ∈ lines, ∀ c ∈ line, ends c = false) :
    splitAt ends (lines.flatMap (· ++ [stop])) = lines ++ [[]] := by
  induction lines with
  | nil => rfl
  | cons line lines ih =>
    obtain ⟨first, others⟩ := List.forall_mem_cons.mp whole
    rw [List.flatMap_cons, List.append_assoc, List.singleton_append, splitAt_append stops
      first, ih others]
    rfl

/-! ## Reading the parts -/

/-- What is read from every part, and nothing else. -/
theorem mapM_eq_some_map {α β : Type} {read : α → Option β} {f : α → β} {l : List α}
    (each : ∀ a ∈ l, read a = some (f a)) : l.mapM read = some (l.map f) := by
  induction l with
  | nil => rfl
  | cons a l ih =>
    obtain ⟨first, others⟩ := List.forall_mem_cons.mp each
    rw [List.mapM_cons, first, ih others]
    rfl

theorem exists_of_mem_mapM {α β : Type} {read : α → Option β} {l : List α} {read' : List β}
    (h : l.mapM read = some read') {b : β} (hb : b ∈ read') : ∃ a ∈ l, read a = some b := by
  induction l generalizing read' with
  | nil =>
    cases h
    cases hb
  | cons a l ih =>
    simp only [List.mapM_cons, Option.bind_eq_bind, Option.bind_eq_some_iff] at h
    obtain ⟨first, ha, others, hl, same⟩ := h
    cases same
    rcases List.mem_cons.mp hb with rfl | hb
    · exact ⟨a, List.mem_cons_self, ha⟩
    · obtain ⟨a', ha', read⟩ := ih hl hb
      exact ⟨a', List.mem_cons_of_mem _ ha', read⟩

/-! ## Words -/

/-- Blanks in front of a text are no part of its words. -/
theorem words_blank_append (blank : ∀ c ∈ a, isBlank c = true) (s : List Char) :
    words (a ++ s) = words s := by
  induction a with
  | nil => rfl
  | cons c a ih =>
    obtain ⟨first, others⟩ := List.forall_mem_cons.mp blank
    have cut := splitAt_append first (a := []) nofun (a ++ s)
    rw [List.nil_append] at cut
    rw [List.cons_append, words, cut, ← ih others]
    rfl

/-- **A word ends at a blank** or with its text. -/
theorem words_token_append (nonempty : a ≠ []) (plain : ∀ c ∈ a, isBlank c = false)
    (ends : ∀ c ∈ s.head?, isBlank c = true) : words (a ++ s) = a :: words s := by
  cases s with
  | nil =>
    rw [List.append_nil, words, splitAt_whole plain]
    simp [nonempty, words, splitAt]
  | cons c s =>
    have cut : words (c :: s) = words s :=
      words_blank_append (a := [c]) (by simpa using ends) s
    rw [cut, words, splitAt_append (ends c rfl) plain]
    simp [nonempty, words]

end LinkedDeposit.Text
