import Mathlib.Algebra.BigOperators.Group.List.Basic
import Mathlib.Algebra.Order.Ring.Int
import Mathlib.Data.List.Chain

/-!
# Positions inside a concatenation

A position of a concatenated word falls into exactly one segment, at an offset
below that segment's length, unless it is at or beyond the end.
-/

namespace Aesd.Word

universe u

variable {α : Type u}

/-- The index of the segment that contains a position, with the offset inside
it. -/
def locate : List Nat → Nat → Option (Nat × Nat)
  | [], _ => none
  | size :: sizes, position =>
      if position < size then
        some (0, position)
      else
        (locate sizes (position - size)).map fun found => (found.1 + 1, found.2)

/-- A position has no segment exactly when it is at or beyond the total size. -/
theorem locate_eq_none_iff (sizes : List Nat) (position : Nat) :
    locate sizes position = none ↔ sizes.sum ≤ position := by
  induction sizes generalizing position with
  | nil => simp [locate]
  | cons size sizes ih =>
      simp only [locate, List.sum_cons]
      split
      · simp only [reduceCtorEq, false_iff]
        omega
      · rw [Option.map_eq_none_iff, ih]
        omega

/-- The located offset lies inside its segment, and the sizes of the earlier
segments account for the rest of the position. -/
theorem locate_eq_some_iff (sizes : List Nat) (position index offset : Nat) :
    locate sizes position = some (index, offset) ↔
      ∃ size, sizes[index]? = some size ∧ offset < size ∧
        (sizes.take index).sum + offset = position := by
  induction sizes generalizing position index with
  | nil => simp [locate]
  | cons size sizes ih =>
      simp only [locate]
      split
      · cases index with
        | zero =>
            simp only [Option.some.injEq, Prod.mk.injEq, true_and, List.getElem?_cons_zero,
              List.take_zero, List.sum_nil, Nat.zero_add]
            constructor
            · rintro rfl
              exact ⟨size, rfl, ‹_›, rfl⟩
            · rintro ⟨_, rfl, _, rfl⟩
              rfl
        | succ index =>
            simp only [Option.some.injEq, Prod.mk.injEq, List.take_succ_cons, List.sum_cons]
            constructor
            · rintro ⟨⟨⟩, _⟩
            · rintro ⟨_, _, _, total⟩
              omega
      · cases index with
        | zero =>
            simp only [Option.map_eq_some_iff, Prod.mk.injEq, Nat.add_eq_zero_iff,
              List.getElem?_cons_zero, Option.some.injEq, List.take_zero, List.sum_nil]
            constructor
            · rintro ⟨_, _, ⟨_, ⟨⟩⟩, _⟩
            · rintro ⟨_, rfl, small, total⟩
              omega
        | succ index =>
            simp only [Option.map_eq_some_iff, Prod.mk.injEq, Nat.add_right_cancel_iff,
              Prod.exists, List.getElem?_cons_succ, List.take_succ_cons, List.sum_cons]
            constructor
            · rintro ⟨_, _, found, rfl, rfl⟩
              obtain ⟨actual, present, small, total⟩ := (ih _ _).mp found
              exact ⟨actual, present, small, by omega⟩
            · rintro ⟨actual, present, small, total⟩
              exact ⟨index, offset, (ih _ _).mpr ⟨actual, present, small, by omega⟩, rfl, rfl⟩

theorem sum_map_length (segments : List (List α)) :
    (segments.map List.length).sum = segments.flatten.length := by
  rw [List.length_flatten]

theorem sum_lengths_take_succ (segments : List (List α)) (index : Nat) :
    ((segments.take (index + 1)).map List.length).sum =
      ((segments.take index).map List.length).sum + (segments[index]?.getD []).length := by
  rw [List.take_add_one, List.map_append, List.sum_append]
  cases segments[index]? <;> simp

theorem sum_lengths_take_le (segments : List (List α)) (index : Nat) :
    ((segments.take index).map List.length).sum ≤ segments.flatten.length := by
  rw [← sum_map_length segments]
  conv_rhs => rw [← List.take_append_drop index segments, List.map_append, List.sum_append]
  exact Nat.le_add_right ..

theorem length_flatten_le {segments : List (List α)} {bound : Nat}
    (each : ∀ segment ∈ segments, segment.length ≤ bound) :
    segments.flatten.length ≤ segments.length * bound := by
  induction segments with
  | nil => exact Nat.zero_le _
  | cons segment segments ih =>
      have first := each segment List.mem_cons_self
      have rest := ih fun other member => each other (List.mem_cons_of_mem _ member)
      rw [List.flatten_cons, List.length_append, List.length_cons, Nat.add_mul, Nat.one_mul,
        Nat.add_comm]
      exact Nat.add_le_add rest first

/-- From a located position the concatenation continues with the rest of its
segment. -/
theorem drop_flatten_of_locate {segments : List (List α)} {position index offset : Nat}
    (found : locate (segments.map List.length) position = some (index, offset)) :
    ∃ segment, segments[index]? = some segment ∧ offset < segment.length ∧
      segments.flatten.drop position =
        segment.drop offset ++ (segments.drop (index + 1)).flatten := by
  obtain ⟨size, present, small, total⟩ := (locate_eq_some_iff _ _ _ _).mp found
  rw [List.getElem?_map, Option.map_eq_some_iff] at present
  obtain ⟨segment, member, rfl⟩ := present
  refine ⟨segment, member, small, ?_⟩
  obtain ⟨bound, rfl⟩ := List.getElem?_eq_some_iff.mp member
  have front : (segments.take index).flatten.length + offset = position := by
    rw [← total, ← List.map_take, sum_map_length]
  calc
    segments.flatten.drop position =
        ((segments.take index).flatten ++ (segments.drop index).flatten).drop position := by
          rw [← List.flatten_append, List.take_append_drop]
    _ = (segments.drop index).flatten.drop offset := by
          rw [← front, List.drop_append]
          simp
    _ = segments[index].drop offset ++ (segments.drop (index + 1)).flatten := by
          rw [List.drop_eq_getElem_cons bound, List.flatten_cons,
            List.drop_append_of_le_length (by omega)]

/-! ## Stretches of a word -/

/-- A stretch of a word is one of every longer word. -/
theorem isPrefix_drop_append {word stretch : List α} {start : Nat}
    (inside : stretch <+: word.drop start) (more : List α) :
    stretch <+: (word ++ more).drop start := by
  by_cases behind : start ≤ word.length
  · rw [List.drop_append_of_le_length behind]
    exact inside.trans (List.prefix_append ..)
  · rw [List.drop_of_length_le (Nat.le_of_not_le behind)] at inside
    rw [List.prefix_nil.mp inside]
    exact List.nil_prefix

/-- A stretch is continued by what follows it. -/
theorem append_isPrefix_drop {word first second : List α} {start : Nat}
    (inside : first <+: word.drop start) (next : second <+: word.drop (start + first.length)) :
    first ++ second <+: word.drop start := by
  rcases inside with ⟨rest, split⟩
  rw [← List.drop_drop, ← split, List.drop_left] at next
  rw [← split]
  exact (List.prefix_append_right_inj first).mpr next

/-- Stretches of a word that follow one another join to a stretch. -/
theorem flatten_isPrefix_of_adjacent {word : List α} {stretches : List (Nat × List α)}
    (inside : ∀ stretch ∈ stretches, stretch.2 <+: word.drop stretch.1)
    (adjacent : stretches.IsChain fun first second => second.1 = first.1 + first.2.length) :
    ∀ first ∈ stretches.head?, (stretches.map Prod.snd).flatten <+: word.drop first.1 := by
  induction stretches with
  | nil => simp
  | cons first rest ih =>
      intro _ same
      cases same
      rcases inside first List.mem_cons_self with ⟨behind, split⟩
      rw [List.map_cons, List.flatten_cons, ← split]
      apply (List.prefix_append_right_inj _).mpr
      cases rest with
      | nil => exact List.nil_prefix
      | cons second rest =>
          rw [List.isChain_cons_cons] at adjacent
          have later := ih (fun stretch member => inside stretch (List.mem_cons_of_mem _ member))
            adjacent.2 second rfl
          rwa [adjacent.1, ← List.drop_drop, ← split, List.drop_left] at later

end Aesd.Word
