import Aesd.Driver.CircularBuffer
import Aesd.Queue.Ring
import Aesd.Word.Segments

/-!
# The circular buffer as a ring

The C structure is an instance of the ring with a fullness flag: adding an entry
is a push, and the search for a character offset locates a position in the
concatenation of the entries walked from the read index.
-/

namespace Aesd.Driver

open Aesd.Queue Aesd.Word

namespace AesdCircularBuffer

/-- Forget the array. -/
def toRing (buffer : AesdCircularBuffer) : Queue.Ring AesdBufferEntry :=
  ⟨buffer.slot, buffer.inOffs, buffer.outOffs, buffer.full⟩

/-- The stored entries, oldest first. -/
def entries (buffer : AesdCircularBuffer) : List AesdBufferEntry :=
  buffer.toRing.contents aesdcharMaxWriteOperationsSupported

/-- Both indices address slots, and they coincide in a full buffer. -/
def WellFormed (buffer : AesdCircularBuffer) : Prop :=
  buffer.toRing.WellFormed aesdcharMaxWriteOperationsSupported

/-- A buffer that has never been full was filled from slot zero. -/
def Filling (buffer : AesdCircularBuffer) : Prop :=
  buffer.toRing.Filling .zero

theorem slot_setIfInBounds (buffer : AesdCircularBuffer) {index : Nat}
    (bound : index < aesdcharMaxWriteOperationsSupported) (entry : AesdBufferEntry) :
    { buffer with entry := buffer.entry.setIfInBounds index entry }.slot =
      Function.update buffer.slot index entry := by
  funext position
  by_cases same : position = index
  · subst same
    simp [slot, bound]
  · simp [slot, Function.update_of_ne same, Vector.getElem?_setIfInBounds_ne (Ne.symm same)]

@[simp]
theorem slot_init (index : Nat) : aesdCircularBufferInit.slot index = .zero := by
  simp only [slot, aesdCircularBufferInit, Vector.getElem?_replicate]
  split <;> rfl

theorem wellFormed_init : aesdCircularBufferInit.WellFormed :=
  ⟨Nat.zero_lt_succ _, Nat.zero_lt_succ _, fun _ => rfl⟩

theorem filling_init : aesdCircularBufferInit.Filling :=
  fun _ => ⟨rfl, fun index _ => slot_init index⟩

@[simp]
theorem entries_init : aesdCircularBufferInit.entries = [] :=
  rfl

theorem WellFormed.inOffs_lt {buffer : AesdCircularBuffer} (wellFormed : buffer.WellFormed) :
    buffer.inOffs < aesdcharMaxWriteOperationsSupported :=
  wellFormed.in_lt

/-- Until the buffer is full its write index counts the entries. -/
theorem Filling.length_entries {buffer : AesdCircularBuffer} (wellFormed : buffer.WellFormed)
    (filling : buffer.Filling) (room : buffer.full = false) :
    buffer.entries.length = buffer.inOffs := by
  rw [entries, Ring.Filling.contents_eq wellFormed filling room, List.length_map,
    List.length_range]
  rfl

/-- Adding an entry is a push. -/
theorem toRing_addEntry {buffer : AesdCircularBuffer} (wellFormed : buffer.WellFormed)
    (entry : AesdBufferEntry) :
    (aesdCircularBufferAddEntry buffer entry).toRing =
      buffer.toRing.push aesdcharMaxWriteOperationsSupported entry := by
  simp only [toRing, Ring.push, Ring.mk.injEq]
  exact ⟨slot_setIfInBounds buffer wellFormed.inOffs_lt entry, rfl, rfl, rfl⟩

theorem WellFormed.addEntry {buffer : AesdCircularBuffer} (wellFormed : buffer.WellFormed)
    (entry : AesdBufferEntry) : (aesdCircularBufferAddEntry buffer entry).WellFormed := by
  unfold WellFormed
  rw [toRing_addEntry wellFormed]
  exact Ring.WellFormed.push wellFormed entry

theorem Filling.addEntry {buffer : AesdCircularBuffer} (wellFormed : buffer.WellFormed)
    (filling : buffer.Filling) (entry : AesdBufferEntry) :
    (aesdCircularBufferAddEntry buffer entry).Filling := by
  unfold Filling
  rw [toRing_addEntry wellFormed]
  exact Ring.Filling.push wellFormed filling entry

/-- An added entry is the youngest; a full buffer loses its oldest one. -/
theorem WellFormed.entries_addEntry {buffer : AesdCircularBuffer}
    (wellFormed : buffer.WellFormed) (entry : AesdBufferEntry) :
    (aesdCircularBufferAddEntry buffer entry).entries =
      (buffer.entries ++ [entry]).rtake aesdcharMaxWriteOperationsSupported := by
  rw [entries, toRing_addEntry wellFormed]
  exact Ring.WellFormed.contents_push wellFormed entry

theorem WellFormed.length_entries_le {buffer : AesdCircularBuffer}
    (wellFormed : buffer.WellFormed) :
    buffer.entries.length ≤ aesdcharMaxWriteOperationsSupported := by
  rw [entries, Ring.length_contents]
  exact (Ring.WellFormed.count_spec wellFormed).1

/-- The flag tells whether ten entries are stored. -/
theorem WellFormed.full_iff {buffer : AesdCircularBuffer} (wellFormed : buffer.WellFormed) :
    buffer.full = true ↔ buffer.entries.length = aesdcharMaxWriteOperationsSupported := by
  rw [entries, Ring.length_contents]
  exact (Ring.WellFormed.count_spec wellFormed).2.2.symm

/-- In a full buffer the slot at the write index holds the oldest entry. -/
theorem WellFormed.entries_of_full {buffer : AesdCircularBuffer}
    (wellFormed : buffer.WellFormed) (full : buffer.full = true) :
    buffer.entries = buffer.slot buffer.inOffs :: buffer.entries.tail :=
  Ring.WellFormed.contents_of_full wellFormed full

theorem entries_getElem? (buffer : AesdCircularBuffer) {position : Nat}
    (bound : position < buffer.entries.length) :
    buffer.entries[position]? =
      some (buffer.slot ((buffer.outOffs + position) % aesdcharMaxWriteOperationsSupported)) := by
  rw [entries, Ring.length_contents] at bound
  rw [entries, Ring.contents, List.getElem?_map, List.getElem?_range bound]
  rfl

/-! ## Searching -/

private theorem findEntryLoop_eq {buffer : AesdCircularBuffer} (wellFormed : buffer.WellFormed)
    (charOffset : Nat) (fits : (buffer.entries.map AesdBufferEntry.size).sum < 2 ^ 64)
    (rest : Nat) :
    ∀ passed accumulated, passed + rest = buffer.entries.length →
      ((buffer.entries.take passed).map AesdBufferEntry.size).sum = accumulated →
      accumulated ≤ charOffset → charOffset < 2 ^ 64 →
      findEntryLoop buffer charOffset (10 - passed) ((buffer.outOffs + passed) % 10)
          accumulated =
        (locate ((buffer.entries.drop passed).map AesdBufferEntry.size)
          (charOffset - accumulated)).map
          fun found => ((buffer.outOffs + (passed + found.1)) % 10, found.2) := by
  have counted : buffer.entries.length =
      buffer.toRing.count aesdcharMaxWriteOperationsSupported := Ring.length_contents ..
  have atMost : buffer.entries.length ≤ 10 := wellFormed.length_entries_le
  have fullAt : buffer.full = true ↔ buffer.entries.length = 10 := wellFormed.full_iff
  have inOffs_eq := (Ring.WellFormed.count_spec wellFormed).2.1
  induction rest with
  | zero =>
      intro passed accumulated whole _ _ _
      rw [Nat.add_zero] at whole
      rw [whole, List.drop_length]
      cases remaining : 10 - buffer.entries.length with
      | zero => rfl
      | succ j =>
          -- the walk has come back to the write index of a buffer with room
          have stop : (buffer.outOffs + buffer.entries.length) % 10 = buffer.inOffs := by
            rw [counted]
            exact inOffs_eq
          have room : ¬buffer.full = true := by
            rw [fullAt]
            omega
          simp [findEntryLoop, stop, room, locate]
  | succ rest ih =>
      intro passed accumulated whole sum reached small
      have bound : passed < buffer.entries.length := by omega
      have here := buffer.entries_getElem? bound
      rw [List.getElem?_eq_getElem bound, Option.some.injEq] at here
      have split : buffer.entries.drop passed =
          buffer.slot ((buffer.outOffs + passed) % 10) :: buffer.entries.drop (passed + 1) := by
        rw [List.drop_eq_getElem_cons bound, here]
      have total : (buffer.entries.map AesdBufferEntry.size).sum =
          accumulated + ((buffer.slot ((buffer.outOffs + passed) % 10)).size +
            ((buffer.entries.drop (passed + 1)).map AesdBufferEntry.size).sum) := by
        rw [← List.take_append_drop passed buffer.entries, List.map_append, List.sum_append,
          List.take_append_drop, sum, split, List.map_cons, List.sum_cons]
      have continues : (buffer.outOffs + passed) % 10 ≠ buffer.inOffs ∨ buffer.full = true := by
        by_cases full : buffer.full = true
        · exact Or.inr full
        · left
          rw [fullAt] at full
          exact Ring.WellFormed.occupied_ne wellFormed (counted ▸ bound)
            (counted ▸ Nat.lt_of_le_of_ne atMost full)
      have advanced : addSize accumulated (buffer.slot ((buffer.outOffs + passed) % 10)).size =
          accumulated + (buffer.slot ((buffer.outOffs + passed) % 10)).size :=
        addSize_eq (by omega)
      have unrolled : 10 - passed = (10 - (passed + 1)) + 1 := by omega
      rw [unrolled, findEntryLoop, if_pos continues, advanced, split, List.map_cons, locate]
      by_cases inside : charOffset - accumulated <
          (buffer.slot ((buffer.outOffs + passed) % 10)).size
      · rw [if_pos (by omega), if_pos inside, subSize_eq small reached]
        rfl
      · have next := ih (passed + 1)
          (accumulated + (buffer.slot ((buffer.outOffs + passed) % 10)).size) (by omega)
          (by
            rw [List.take_add_one, List.map_append, List.sum_append, sum,
              List.getElem?_eq_getElem bound, here]
            simp)
          (by omega) small
        rw [if_neg (by omega), if_neg inside, Nat.mod_add_mod, Nat.add_assoc, next,
          Option.map_map, Nat.sub_add_eq]
        congr 1
        funext found
        simp only [Function.comp_apply]
        rw [Nat.add_assoc passed, Nat.add_comm 1]

/-- The search locates the offset in the concatenation of the entries. -/
theorem findEntry_eq_locate {buffer : AesdCircularBuffer} (wellFormed : buffer.WellFormed)
    (fits : (buffer.entries.map AesdBufferEntry.size).sum < 2 ^ 64)
    {charOffset : Nat} (small : charOffset < 2 ^ 64) :
    aesdCircularBufferFindEntryOffsetForFpos buffer charOffset =
      (locate (buffer.entries.map AesdBufferEntry.size) charOffset).map
        fun found => ((buffer.outOffs + found.1) % 10, found.2) := by
  have start : buffer.outOffs % 10 = buffer.outOffs := Nat.mod_eq_of_lt wellFormed.out_lt
  have walk := findEntryLoop_eq wellFormed charOffset fits buffer.entries.length 0 0
    (Nat.zero_add _) rfl (Nat.zero_le _) small
  rw [aesdCircularBufferFindEntryOffsetForFpos]
  simpa only [Nat.add_zero, Nat.sub_zero, Nat.zero_add, start, List.drop_zero] using walk

end AesdCircularBuffer

end Aesd.Driver
