import Mathlib.Data.List.DropRight
import Mathlib.Data.List.Rotate
import Mathlib.Logic.Function.Basic

/-!
# Ring buffers with a fullness flag

A ring of fixed capacity keeps a write index, a read index and a flag that
tells the full ring from the empty one when the two indices coincide.  Pushing
into a full ring overwrites the oldest element.  Walking the ring from its read
index therefore yields the most recently pushed elements, oldest first.
-/

namespace Aesd.Queue

universe u

/-- What has left a window on the end of a list does not matter for the window one
element later. -/
theorem rtake_append_rtake {α : Type u} {size : Nat} (front : List α) (element : α) :
    (front.rtake size ++ [element]).rtake size = (front ++ [element]).rtake size := by
  cases size with
  | zero => simp
  | succ rest =>
      rw [List.rtake_concat_succ, List.rtake_concat_succ]
      congr 1
      simp only [List.rtake, List.length_drop, List.drop_drop]
      congr 1
      omega

/-- The slots of a ring, seen as a function of the index, with its two indices
and its fullness flag. -/
structure Ring (α : Type u) where
  slot : Nat → α
  inOffs : Nat
  outOffs : Nat
  full : Bool

namespace Ring

variable {α : Type u} (capacity : Nat)

/-- Store an element at the write index, and let the read index follow when the
overwritten slot was occupied. -/
def push (ring : Ring α) (element : α) : Ring α :=
  let inOffs := (ring.inOffs + 1) % capacity
  let outOffs := if ring.full then inOffs else ring.outOffs
  { slot := Function.update ring.slot ring.inOffs element
    inOffs := inOffs
    outOffs := outOffs
    full := inOffs == outOffs }

/-- Number of occupied slots. -/
def count (ring : Ring α) : Nat :=
  if ring.full then capacity else (ring.inOffs + capacity - ring.outOffs) % capacity

/-- The occupied slots, walked from the read index. -/
def contents (ring : Ring α) : List α :=
  (List.range (ring.count capacity)).map fun position =>
    ring.slot ((ring.outOffs + position) % capacity)

/-- Both indices address slots, and they coincide in a full ring. -/
structure WellFormed (ring : Ring α) : Prop where
  in_lt : ring.inOffs < capacity
  out_lt : ring.outOffs < capacity
  full_eq : ring.full = true → ring.inOffs = ring.outOffs

variable {capacity}

private theorem wrap_eq (index : Nat) (bound : index < 2 * capacity) :
    index % capacity = if index < capacity then index else index - capacity := by
  split
  · exact Nat.mod_eq_of_lt ‹_›
  · rw [Nat.mod_eq_sub_mod (by omega)]
    exact Nat.mod_eq_of_lt (by omega)

@[simp]
theorem length_contents (ring : Ring α) :
    (ring.contents capacity).length = ring.count capacity := by
  simp [contents]

/-- The count is the distance from the read index to the write index, and it
reaches the capacity exactly when the flag is set. -/
theorem WellFormed.count_spec {ring : Ring α} (wellFormed : ring.WellFormed capacity) :
    ring.count capacity ≤ capacity ∧
      (ring.outOffs + ring.count capacity) % capacity = ring.inOffs ∧
      (ring.count capacity = capacity ↔ ring.full = true) := by
  obtain ⟨in_lt, out_lt, full_eq⟩ := wellFormed
  cases flag : ring.full with
  | true =>
      have same := full_eq flag
      simp [count, flag, Nat.mod_eq_of_lt out_lt, same]
  | false =>
      have shift := wrap_eq (ring.inOffs + capacity - ring.outOffs)
        (show _ < 2 * capacity by omega)
      simp only [count, flag, Bool.false_eq_true, if_false, iff_false]
      rw [shift]
      split
      · rw [wrap_eq _ (by omega)]
        refine ⟨by omega, ?_, by omega⟩
        split <;> omega
      · rw [wrap_eq _ (by omega)]
        refine ⟨by omega, ?_, by omega⟩
        split <;> omega

/-- No occupied slot of a ring with room is the one the next push writes. -/
theorem WellFormed.occupied_ne {ring : Ring α} (wellFormed : ring.WellFormed capacity)
    {position : Nat} (occupied : position < ring.count capacity)
    (room : ring.count capacity < capacity) :
    (ring.outOffs + position) % capacity ≠ ring.inOffs := by
  have in_lt := wellFormed.in_lt
  have out_lt := wellFormed.out_lt
  have target := wellFormed.count_spec.2.1
  rw [← target, wrap_eq _ (by omega), wrap_eq _ (by omega)]
  split <;> split <;> omega

theorem WellFormed.push {ring : Ring α} (wellFormed : ring.WellFormed capacity) (element : α) :
    (ring.push capacity element).WellFormed capacity := by
  have positive : 0 < capacity := Nat.zero_lt_of_lt wellFormed.in_lt
  refine ⟨Nat.mod_lt _ positive, ?_, ?_⟩
  · simp only [Ring.push]
    split
    · exact Nat.mod_lt _ positive
    · exact wellFormed.out_lt
  · simp [Ring.push]

private theorem contents_push_of_full {ring : Ring α} (wellFormed : ring.WellFormed capacity)
    (flag : ring.full = true) (element : α) :
    (ring.push capacity element).contents capacity =
      (ring.contents capacity).tail ++ [element] := by
  obtain ⟨rest, rfl⟩ : ∃ rest, capacity = rest + 1 :=
    Nat.exists_eq_succ_of_ne_zero (Nat.pos_iff_ne_zero.mp (Nat.zero_lt_of_lt wellFormed.in_lt))
  have same := wellFormed.full_eq flag
  have in_lt := wellFormed.in_lt
  have counted : (ring.push (rest + 1) element).count (rest + 1) = rest + 1 := by
    simp [count, Ring.push, flag]
  have before : ring.count (rest + 1) = rest + 1 := by simp [count, flag]
  have young : (ring.contents (rest + 1)).tail = (List.range rest).map fun position =>
      ring.slot ((ring.outOffs + (position + 1)) % (rest + 1)) := by
    rw [contents, before, List.range_succ_eq_map, List.map_cons, List.tail_cons, List.map_map]
    rfl
  rw [contents, counted, List.range_succ, List.map_append, young]
  congr 1
  · apply List.map_congr_left
    intro position member
    have bound : position < rest := List.mem_range.mp member
    have index : ((ring.inOffs + 1) % (rest + 1) + position) % (rest + 1) =
        (ring.outOffs + (position + 1)) % (rest + 1) := by
      rw [Nat.mod_add_mod, same, Nat.add_assoc, Nat.add_comm 1]
    have other : (ring.outOffs + (position + 1)) % (rest + 1) ≠ ring.inOffs := by
      rw [wrap_eq _ (by omega)]
      split <;> omega
    simp [Ring.push, flag, index, Function.update_of_ne other]
  · have index : (ring.inOffs + 1 + rest) % (rest + 1) = ring.inOffs := by
      rw [Nat.add_assoc, Nat.add_comm 1, Nat.add_mod_right, Nat.mod_eq_of_lt in_lt]
    simp [Ring.push, flag, index]

private theorem contents_push_of_room {ring : Ring α} (wellFormed : ring.WellFormed capacity)
    (flag : ring.full = false) (element : α) :
    (ring.push capacity element).contents capacity = ring.contents capacity ++ [element] := by
  obtain ⟨bound, target, atCapacity⟩ := wellFormed.count_spec
  have room : ring.count capacity < capacity := by
    rcases Nat.lt_or_eq_of_le bound with room | exact
    · exact room
    · simp [flag] at atCapacity
      exact absurd exact atCapacity
  have advanced : (ring.outOffs + (ring.count capacity + 1)) % capacity =
      (ring.inOffs + 1) % capacity := by
    rw [← Nat.add_assoc, ← Nat.mod_add_mod, target]
  have counted : (ring.push capacity element).count capacity = ring.count capacity + 1 := by
    obtain ⟨bound', target', atCapacity'⟩ := (wellFormed.push element).count_spec
    have readKept : (ring.push capacity element).outOffs = ring.outOffs := by
      simp [Ring.push, flag]
    have writeMoved : (ring.push capacity element).inOffs = (ring.inOffs + 1) % capacity := rfl
    have flagged : (ring.push capacity element).full = true ↔
        (ring.inOffs + 1) % capacity = ring.outOffs := by
      simp [Ring.push, flag]
    rw [readKept, writeMoved, ← advanced] at target'
    rw [flagged, ← advanced] at atCapacity'
    have out_lt := wellFormed.out_lt
    rw [wrap_eq _ (by omega), wrap_eq _ (by omega)] at target'
    rw [wrap_eq _ (by omega)] at atCapacity'
    generalize (ring.push capacity element).count capacity = after at *
    generalize ring.count capacity = before at *
    split at target' <;> split at target' <;> split at atCapacity' <;> omega
  rw [contents, counted, List.range_succ, List.map_append, contents]
  congr 1
  · apply List.map_congr_left
    intro position member
    have occupied := wellFormed.occupied_ne (List.mem_range.mp member) room
    simp [Ring.push, flag, Function.update_of_ne occupied]
  · simp [Ring.push, flag, target]

/-- A push appends at the young end and drops the oldest element of a full
ring. -/
theorem WellFormed.contents_push {ring : Ring α} (wellFormed : ring.WellFormed capacity)
    (element : α) :
    (ring.push capacity element).contents capacity =
      (ring.contents capacity ++ [element]).rtake capacity := by
  obtain ⟨bound, _, atCapacity⟩ := wellFormed.count_spec
  cases flag : ring.full with
  | true =>
      rw [contents_push_of_full wellFormed flag]
      have size : ring.count capacity = capacity := atCapacity.mpr flag
      have shape : ring.contents capacity ≠ [] := by
        rw [← List.length_pos_iff, length_contents, size]
        exact Nat.zero_lt_of_lt wellFormed.in_lt
      rw [List.rtake, List.length_append, length_contents, size, List.length_singleton,
        Nat.add_sub_cancel_left, List.drop_append_of_le_length, List.drop_one]
      exact List.length_pos_of_ne_nil shape
  | false =>
      rw [contents_push_of_room wellFormed flag]
      have room : ring.count capacity ≠ capacity := fun exact => by
        simp [atCapacity.mp exact] at flag
      rw [List.rtake, List.length_append, length_contents, List.length_singleton,
        Nat.sub_eq_zero_of_le (by omega), List.drop_zero]

/-- In a full ring the slot that the next push overwrites holds the oldest
element. -/
theorem WellFormed.contents_of_full {ring : Ring α} (wellFormed : ring.WellFormed capacity)
    (flag : ring.full = true) :
    ring.contents capacity = ring.slot ring.inOffs :: (ring.contents capacity).tail := by
  obtain ⟨rest, rfl⟩ : ∃ rest, capacity = rest + 1 :=
    Nat.exists_eq_succ_of_ne_zero (Nat.pos_iff_ne_zero.mp (Nat.zero_lt_of_lt wellFormed.in_lt))
  simp [contents, count, flag, List.range_succ_eq_map, wellFormed.full_eq flag,
    Nat.mod_eq_of_lt wellFormed.out_lt]

/-- The indices coincide in the empty ring and in the full one. -/
theorem WellFormed.inOffs_eq_outOffs_iff {ring : Ring α} (wellFormed : ring.WellFormed capacity) :
    ring.inOffs = ring.outOffs ↔ ring.count capacity = 0 ∨ ring.count capacity = capacity := by
  rcases wellFormed.count_spec with ⟨bound, target, _⟩
  have out_lt := wellFormed.out_lt
  rw [← target, wrap_eq _ (by omega)]
  split <;> omega

theorem WellFormed.foldl_push {ring : Ring α} (wellFormed : ring.WellFormed capacity)
    (elements : List α) : (elements.foldl (Ring.push capacity) ring).WellFormed capacity := by
  induction elements generalizing ring with
  | nil => exact wellFormed
  | cons element elements ih => exact ih (wellFormed.push element)

/-- After any number of pushes the ring holds the last elements, as many as fit. -/
theorem WellFormed.contents_foldl_push {ring : Ring α} (wellFormed : ring.WellFormed capacity)
    (elements : List α) :
    (elements.foldl (Ring.push capacity) ring).contents capacity =
      (ring.contents capacity ++ elements).rtake capacity := by
  induction elements using List.reverseRecOn with
  | nil =>
      rw [List.foldl_nil, List.append_nil, List.rtake, length_contents,
        Nat.sub_eq_zero_of_le wellFormed.count_spec.1, List.drop_zero]
  | append_singleton elements element ih =>
      rw [List.foldl_append, List.foldl_cons, List.foldl_nil,
        (wellFormed.foldl_push elements).contents_push, ih, rtake_append_rtake, List.append_assoc]

/-! ## Rings that are still filling -/

/-- A ring that has never been full was filled from index zero, and the slots
above its write index still hold the initial element. -/
def Filling (blank : α) (ring : Ring α) : Prop :=
  ring.full = false →
    ring.outOffs = 0 ∧ ∀ index, ring.inOffs ≤ index → ring.slot index = blank

theorem Filling.push {blank : α} {ring : Ring α} (wellFormed : ring.WellFormed capacity)
    (filling : ring.Filling blank) (element : α) :
    (ring.push capacity element).Filling blank := by
  intro notFull
  cases flag : ring.full with
  | true => simp [Ring.push, flag] at notFull
  | false =>
      obtain ⟨start, above⟩ := filling flag
      simp only [Ring.push, flag, Bool.false_eq_true, if_false, start, beq_eq_false_iff_ne] at *
      constructor
      · exact trivial
      · intro index high
        have in_lt := wellFormed.in_lt
        have next : ring.inOffs + 1 < capacity := by
          by_contra last
          exact notFull (by rw [show ring.inOffs + 1 = capacity by omega, Nat.mod_self])
        rw [Nat.mod_eq_of_lt next] at high
        rw [Function.update_of_ne (by omega)]
        exact above index (by omega)

/-- The contents of a filling ring are its slots in index order. -/
theorem Filling.contents_eq {blank : α} {ring : Ring α} (wellFormed : ring.WellFormed capacity)
    (filling : ring.Filling blank) (flag : ring.full = false) :
    ring.contents capacity = (List.range ring.inOffs).map ring.slot := by
  have in_lt := wellFormed.in_lt
  obtain ⟨start, _⟩ := filling flag
  have counted : ring.count capacity = ring.inOffs := by
    simp [count, flag, start, Nat.mod_eq_of_lt in_lt]
  rw [contents, counted]
  apply List.map_congr_left
  intro position member
  have bound : position < ring.inOffs := List.mem_range.mp member
  rw [start, Nat.zero_add, Nat.mod_eq_of_lt (by omega)]

/-- The slots of a full ring are its contents, rotated. -/
theorem contents_eq_rotate {ring : Ring α} (flag : ring.full = true) :
    ring.contents capacity = ((List.range capacity).map ring.slot).rotate ring.outOffs := by
  apply List.ext_getElem?
  intro position
  by_cases inside : position < capacity
  · rw [List.getElem?_rotate (by simpa using inside)]
    simp [contents, count, flag, inside, Nat.add_comm,
      List.getElem?_range (Nat.mod_lt _ (Nat.zero_lt_of_lt inside))]
  · rw [List.getElem?_eq_none, List.getElem?_eq_none]
    · simpa using inside
    · simpa [count, flag] using inside

/-- Besides the contents, the slots hold initial elements only. -/
theorem Filling.slots_perm {blank : α} {ring : Ring α} (wellFormed : ring.WellFormed capacity)
    (filling : ring.Filling blank) :
    ((List.range capacity).map ring.slot).Perm
      (ring.contents capacity ++ List.replicate (capacity - ring.count capacity) blank) := by
  cases flag : ring.full with
  | true =>
      have counted : ring.count capacity = capacity := wellFormed.count_spec.2.2.mpr flag
      rw [counted, Nat.sub_self, List.replicate_zero, List.append_nil, contents_eq_rotate flag]
      exact (List.rotate_perm ..).symm
  | false =>
      have in_lt := wellFormed.in_lt
      have stored := filling.contents_eq wellFormed flag
      have counted : ring.count capacity = ring.inOffs := by
        rw [← length_contents, stored, List.length_map, List.length_range]
      have split : capacity = ring.inOffs + (capacity - ring.inOffs) := by omega
      rw [counted, stored]
      conv_lhs => rw [split, List.range_add, List.map_append, List.map_map]
      apply List.Perm.append_left
      apply List.Perm.of_eq
      rw [List.eq_replicate_iff]
      constructor
      · simp
      · intro element member
        rcases List.mem_map.mp member with ⟨index, _, rfl⟩
        exact (filling flag).2 _ (Nat.le_add_right ..)

end Ring

end Aesd.Queue
