import Aesd.Word.Lines

/-!
# Bounded line stores

A line store is described by the word it has accepted so far.  Of that history
it shows the last `capacity` complete lines, oldest first, and the incomplete
line after them; older lines have been evicted.
-/

namespace Aesd.Word.LineStore

universe u

variable {α : Type u} [DecidableEq α] (capacity : Nat) (delimiter : α)

/-- The lines still shown. -/
def stored (history : List α) : List (List α) :=
  (lines delimiter history).rtake capacity

/-- The lines that newer ones have displaced. -/
def evicted (history : List α) : List (List α) :=
  (lines delimiter history).rdrop capacity

/-- The stored lines, concatenated oldest first. -/
def content (history : List α) : List α :=
  (stored capacity delimiter history).flatten

variable {capacity delimiter}

omit [DecidableEq α] in
theorem rdrop_append_rtake (whole : List (List α)) :
    whole.rdrop capacity ++ whole.rtake capacity = whole := by
  simp [List.rdrop, List.rtake]

theorem evicted_append_stored (history : List α) :
    evicted capacity delimiter history ++ stored capacity delimiter history =
      lines delimiter history :=
  rdrop_append_rtake _

theorem length_stored (history : List α) :
    (stored capacity delimiter history).length =
      min (history.count delimiter) capacity := by
  rw [stored, List.rtake, List.length_drop, length_lines]
  omega

/-- Evicted lines, stored lines and the incomplete line partition the history. -/
theorem evicted_append_content_append_remainder (history : List α) :
    (evicted capacity delimiter history).flatten ++ content capacity delimiter history ++
      remainder delimiter history = history := by
  rw [content, ← List.flatten_append, evicted_append_stored, flatten_lines_append_remainder]

omit [DecidableEq α] in
/-- What has left the window stays outside while lines are added. -/
theorem rdrop_isPrefix {front whole : List (List α)} (isPrefix : front <+: whole) :
    front.rdrop capacity <+: whole.rdrop capacity := by
  rcases isPrefix with ⟨more, rfl⟩
  rw [List.rdrop, List.rdrop, List.length_append]
  have within : front.length - capacity ≤ front.length := Nat.sub_le ..
  have same : front.take (front.length - capacity) =
      (front ++ more).take (front.length - capacity) := (List.take_append_of_le_length within).symm
  rw [same]
  exact List.take_prefix_take_left (Nat.sub_le_sub_right (Nat.le_add_right ..) _)

theorem length_content_le (history : List α) :
    (content capacity delimiter history).length ≤ history.length := by
  have whole : ((evicted capacity delimiter history).flatten ++
      content capacity delimiter history ++ remainder delimiter history).length =
        history.length := congrArg List.length (evicted_append_content_append_remainder history)
  rw [List.length_append, List.length_append] at whole
  omega

end Aesd.Word.LineStore
