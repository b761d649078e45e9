import Mathlib.Data.List.DropRight

/-!
# Words separated into fields

The fields of a word are its maximal parts without a separator.  Runs of
separators count as one, and those at the ends separate nothing.
-/

namespace Aesd.Word

universe u

variable {α : Type u} {isSeparator : α → Bool}

/-- The maximal parts of a word without a separator, in order. -/
def fields (isSeparator : α → Bool) (word : List α) : List (List α) :=
  (word.splitOnP isSeparator).filter fun field => !field.isEmpty

@[simp]
theorem fields_nil : fields isSeparator [] = [] := by
  simp [fields]

/-- A separator is the end of all fields before it. -/
theorem fields_append_cons (front rest : List α) {letter : α}
    (separator : isSeparator letter = true) :
    fields isSeparator (front ++ letter :: rest) =
      fields isSeparator front ++ fields isSeparator rest := by
  simp only [fields, List.splitOnP_append_cons front rest separator, List.filter_append]

theorem fields_concat (front : List α) {letter : α} (separator : isSeparator letter = true) :
    fields isSeparator (front ++ [letter]) = fields isSeparator front := by
  rw [fields_append_cons front [] separator, fields_nil, List.append_nil]

/-- A word without a separator is its own only field. -/
theorem fields_eq_singleton {word : List α} (nonempty : word ≠ [])
    (unseparated : ∀ letter ∈ word, isSeparator letter = false) :
    fields isSeparator word = [word] := by
  rw [fields, List.splitOnP_eq_singleton unseparated]
  simp [nonempty]

/-- Terminated words have the fields of each word. -/
theorem fields_flatMap_concat (words : List (List α)) {letter : α}
    (separator : isSeparator letter = true) :
    fields isSeparator (words.flatMap (· ++ [letter])) = words.flatMap (fields isSeparator) := by
  induction words with
  | nil => simp
  | cons word words ih =>
      rw [List.flatMap_cons, List.append_assoc, List.singleton_append,
        fields_append_cons word _ separator, ih, List.flatMap_cons]

/-- Separators at the end can be dropped. -/
theorem fields_rdropWhile {drops : α → Bool}
    (separators : ∀ letter, drops letter = true → isSeparator letter = true) (word : List α) :
    fields isSeparator (word.rdropWhile drops) = fields isSeparator word := by
  induction word using List.reverseRecOn with
  | nil => simp
  | append_singleton word letter ih =>
      by_cases dropped : drops letter = true
      · rw [List.rdropWhile_concat_pos _ _ _ dropped, ih,
          fields_concat word (separators letter dropped)]
      · rw [List.rdropWhile_concat_neg _ _ _ dropped]

end Aesd.Word
