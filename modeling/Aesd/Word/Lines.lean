import Mathlib.Data.List.DropRight
import Mathlib.Data.List.Count

/-!
# Words delimited into lines

A word over an alphabet with a distinguished delimiter splits uniquely into its
delimiter-terminated lines and the undelimited remainder after the last of
them.  `firstLine` is the part of a word that a line-oriented consumer takes at
once: everything up to and including the first delimiter, or the whole word.
-/

namespace Aesd.Word

universe u

variable {α : Type u} [DecidableEq α]

/-- The prefix up to and including the first delimiter, the whole word when it
has none. -/
def firstLine (delimiter : α) : List α → List α
  | [] => []
  | letter :: word =>
      if letter = delimiter then [letter] else letter :: firstLine delimiter word

/-- The undelimited remainder after the last delimiter. -/
def remainder (delimiter : α) : List α → List α
  | [] => []
  | letter :: word =>
      if delimiter ∈ letter :: word then remainder delimiter word else letter :: word

/-- The delimiter-terminated lines of a word, in order. -/
def lines (delimiter : α) : List α → List (List α)
  | [] => []
  | letter :: word =>
      if letter = delimiter then
        [letter] :: lines delimiter word
      else
        match lines delimiter word with
        | [] => []
        | line :: rest => (letter :: line) :: rest

variable {delimiter : α}

/-! ## The first line -/

@[simp]
theorem firstLine_nil : firstLine delimiter [] = [] :=
  rfl

theorem firstLine_isPrefix (word : List α) : firstLine delimiter word <+: word := by
  induction word with
  | nil => simp
  | cons letter word ih =>
      simp only [firstLine]
      split
      · exact ⟨word, rfl⟩
      · exact List.prefix_cons_inj letter |>.mpr ih

theorem length_firstLine_le (word : List α) :
    (firstLine delimiter word).length ≤ word.length :=
  (firstLine_isPrefix word).length_le

theorem firstLine_of_not_mem {word : List α} (absent : delimiter ∉ word) :
    firstLine delimiter word = word := by
  induction word with
  | nil => rfl
  | cons letter word ih =>
      simp only [List.mem_cons, not_or] at absent
      simp [firstLine, Ne.symm absent.1, ih absent.2]

/-- A delimited body is taken whole, whatever follows it. -/
theorem firstLine_append_delimiter {body : List α} (absent : delimiter ∉ body)
    (rest : List α) :
    firstLine delimiter (body ++ delimiter :: rest) = body ++ [delimiter] := by
  induction body with
  | nil => simp [firstLine]
  | cons letter body ih =>
      simp only [List.mem_cons, not_or] at absent
      simp [firstLine, Ne.symm absent.1, ih absent.2]

/-- A word without its delimiter splits off no line; otherwise its first line is
a body free of delimiters followed by one. -/
theorem firstLine_cases (delimiter : α) (word : List α) :
    (delimiter ∉ word ∧ firstLine delimiter word = word) ∨
      ∃ body rest, delimiter ∉ body ∧ word = body ++ delimiter :: rest ∧
        firstLine delimiter word = body ++ [delimiter] := by
  by_cases present : delimiter ∈ word
  · obtain ⟨body, rest, rfl, absent⟩ := List.eq_append_cons_of_mem present
    exact Or.inr ⟨body, rest, absent, rfl, firstLine_append_delimiter absent rest⟩
  · exact Or.inl ⟨present, firstLine_of_not_mem present⟩

theorem firstLine_append_of_not_mem {front : List α} (absent : delimiter ∉ front)
    (rest : List α) : firstLine delimiter (front ++ rest) = front ++ firstLine delimiter rest := by
  induction front with
  | nil => rfl
  | cons letter front ih =>
      simp only [List.mem_cons, not_or] at absent
      simp [firstLine, Ne.symm absent.1, ih absent.2]

theorem firstLine_append_of_mem {front : List α} (present : delimiter ∈ front)
    (rest : List α) : firstLine delimiter (front ++ rest) = firstLine delimiter front := by
  obtain ⟨body, behind, rfl, absent⟩ := List.eq_append_cons_of_mem present
  rw [List.append_assoc, List.cons_append, firstLine_append_delimiter absent,
    firstLine_append_delimiter absent]

theorem length_firstLine_pos {word : List α} (nonempty : word ≠ []) :
    0 < (firstLine delimiter word).length := by
  obtain ⟨_, whole⟩ | ⟨body, rest, _, _, whole⟩ := firstLine_cases delimiter word
  · rw [whole]
    exact List.length_pos_of_ne_nil nonempty
  · simp [whole]

/-! ## Lines and remainder -/

@[simp]
theorem lines_nil : lines delimiter [] = [] :=
  rfl

@[simp]
theorem remainder_nil : remainder delimiter [] = [] :=
  rfl

theorem lines_eq_nil_iff {word : List α} : lines delimiter word = [] ↔ delimiter ∉ word := by
  induction word with
  | nil => simp
  | cons letter word ih =>
      by_cases equal : letter = delimiter
      · simp [lines, equal]
      · simp only [lines, equal, if_false, List.mem_cons, Ne.symm equal, false_or, ← ih]
        cases lines delimiter word <;> simp

theorem remainder_of_not_mem {word : List α} (absent : delimiter ∉ word) :
    remainder delimiter word = word := by
  cases word with
  | nil => rfl
  | cons letter word => simp [remainder, absent]

/-- The lines followed by the remainder give the word back. -/
theorem flatten_lines_append_remainder (word : List α) :
    (lines delimiter word).flatten ++ remainder delimiter word = word := by
  induction word with
  | nil => rfl
  | cons letter word ih =>
      by_cases equal : letter = delimiter
      · simp [lines, remainder, equal, ih]
      · cases split : lines delimiter word with
        | nil =>
            have absent : delimiter ∉ letter :: word := by
              simpa [Ne.symm equal] using lines_eq_nil_iff.mp split
            simp [lines, equal, split, remainder_of_not_mem absent]
        | cons line rest =>
            have present : delimiter ∈ word := by
              by_contra absent
              simp [lines_eq_nil_iff.mpr absent] at split
            rw [split] at ih
            simpa [lines, equal, split, remainder, present] using ih

/-- Letters other than the delimiter extend the remainder only. -/
theorem lines_append_of_not_mem (word : List α) {tail : List α} (absent : delimiter ∉ tail) :
    lines delimiter (word ++ tail) = lines delimiter word ∧
      remainder delimiter (word ++ tail) = remainder delimiter word ++ tail := by
  induction word with
  | nil => simp [lines_eq_nil_iff.mpr absent, remainder_of_not_mem absent]
  | cons letter word ih =>
      obtain ⟨sameLines, longer⟩ := ih
      have present : delimiter ∈ letter :: (word ++ tail) ↔ delimiter ∈ letter :: word := by
        simp [absent]
      constructor
      · simp [lines, sameLines]
      · by_cases inside : delimiter ∈ letter :: word
        · rw [List.cons_append, remainder, if_pos (present.mpr inside), remainder,
            if_pos inside, longer]
        · rw [List.cons_append, remainder, if_neg (inside ∘ present.mp), remainder,
            if_neg inside, List.cons_append]

/-- A delimiter closes the remainder into the newest line. -/
theorem lines_append_delimiter (word : List α) :
    lines delimiter (word ++ [delimiter]) =
        lines delimiter word ++ [remainder delimiter word ++ [delimiter]] ∧
      remainder delimiter (word ++ [delimiter]) = [] := by
  induction word with
  | nil => simp [lines, remainder]
  | cons letter word ih =>
      obtain ⟨newLines, closed⟩ := ih
      refine ⟨?_, by simp [remainder, closed]⟩
      by_cases equal : letter = delimiter
      · simp [lines, equal, newLines, remainder]
      · rw [List.cons_append, lines, if_neg equal, newLines]
        cases split : lines delimiter word with
        | nil =>
            have absent : delimiter ∉ word := lines_eq_nil_iff.mp split
            have absent' : delimiter ∉ letter :: word := by simpa [Ne.symm equal] using absent
            simp [lines, equal, split, remainder_of_not_mem absent, remainder_of_not_mem absent']
        | cons line rest =>
            have present : delimiter ∈ word := by
              by_contra absent
              simp [lines_eq_nil_iff.mpr absent] at split
            simp [lines, equal, split, remainder, present]

/-- Appending a delimited body commits exactly one line. -/
theorem lines_append_line (word : List α) {body : List α} (absent : delimiter ∉ body) :
    lines delimiter (word ++ (body ++ [delimiter])) =
        lines delimiter word ++ [remainder delimiter word ++ (body ++ [delimiter])] ∧
      remainder delimiter (word ++ (body ++ [delimiter])) = [] := by
  obtain ⟨sameLines, longer⟩ := lines_append_of_not_mem word absent
  obtain ⟨newLines, closed⟩ := @lines_append_delimiter _ _ delimiter (word ++ body)
  rw [← List.append_assoc, newLines, closed, sameLines, longer, List.append_assoc]
  exact ⟨rfl, rfl⟩

/-- A word has as many lines as delimiters. -/
theorem length_lines (word : List α) :
    (lines delimiter word).length = word.count delimiter := by
  induction word using List.reverseRecOn with
  | nil => rfl
  | append_singleton word letter ih =>
      by_cases equal : letter = delimiter
      · subst equal
        simp [(lines_append_delimiter word).1, ih]
      · have absent : delimiter ∉ [letter] := by simpa using Ne.symm equal
        simp [(lines_append_of_not_mem word absent).1, ih, equal]

end Aesd.Word
