import Aesd.Driver.BufferRing
import Aesd.Driver.Device

/-!
# Buffers filled by additions

A buffer that has only been added to is a bounded first-in-first-out queue: it
holds the last ten entries, and the search for a character offset indexes their
concatenation.
-/

namespace Aesd.Driver

open Aesd.Queue Aesd.Word

/-- The buffer after a sequence of additions. -/
def addEntries (added : List AesdBufferEntry) : AesdCircularBuffer :=
  added.foldl aesdCircularBufferAddEntry aesdCircularBufferInit

/-- The entries met by a walk over `count` slots from the read index. -/
def AesdCircularBuffer.walk (buffer : AesdCircularBuffer) (count : Nat) : List AesdBufferEntry :=
  (List.range count).map fun position =>
    buffer.slot ((buffer.outOffs + position) % aesdcharMaxWriteOperationsSupported)

/-- The entries that are still stored. -/
abbrev lastAdded (added : List AesdBufferEntry) : List AesdBufferEntry :=
  added.rtake aesdcharMaxWriteOperationsSupported

section

variable (added : List AesdBufferEntry)

theorem addEntries_concat (entry : AesdBufferEntry) :
    addEntries (added ++ [entry]) = aesdCircularBufferAddEntry (addEntries added) entry := by
  rw [addEntries, List.foldl_append]
  rfl

theorem wellFormed_addEntries : (addEntries added).WellFormed := by
  induction added using List.reverseRecOn with
  | nil => exact AesdCircularBuffer.wellFormed_init
  | append_singleton added entry ih =>
      rw [addEntries_concat]
      exact ih.addEntry entry

/-- A sequence of additions is a sequence of pushes. -/
theorem toRing_addEntries :
    (addEntries added).toRing =
      added.foldl (Ring.push aesdcharMaxWriteOperationsSupported)
        aesdCircularBufferInit.toRing := by
  induction added using List.reverseRecOn with
  | nil => rfl
  | append_singleton added entry ih =>
      rw [addEntries_concat, AesdCircularBuffer.toRing_addEntry (wellFormed_addEntries added), ih,
        List.foldl_append]
      rfl

theorem entries_addEntries : (addEntries added).entries = lastAdded added := by
  rw [AesdCircularBuffer.entries, toRing_addEntries,
    Ring.WellFormed.contents_foldl_push AesdCircularBuffer.wellFormed_init]
  exact congrArg (List.rtake · _) (List.nil_append added)

theorem length_entries_addEntries :
    (addEntries added).entries.length = min added.length aesdcharMaxWriteOperationsSupported := by
  rw [entries_addEntries, lastAdded, List.rtake, List.length_drop]
  omega

theorem walk_addEntries :
    (addEntries added).walk (min added.length aesdcharMaxWriteOperationsSupported) =
      lastAdded added := by
  rw [← length_entries_addEntries, ← entries_addEntries, AesdCircularBuffer.entries,
    Ring.length_contents]
  rfl

theorem full_addEntries_iff :
    (addEntries added).full = true ↔ aesdcharMaxWriteOperationsSupported ≤ added.length := by
  rw [(wellFormed_addEntries added).full_iff, length_entries_addEntries]
  omega

theorem inOffs_eq_outOffs_addEntries_iff :
    (addEntries added).inOffs = (addEntries added).outOffs ↔
      added = [] ∨ (addEntries added).full = true := by
  have counted := length_entries_addEntries added
  rw [AesdCircularBuffer.entries, Ring.length_contents] at counted
  rw [full_addEntries_iff, ← List.length_eq_zero_iff]
  refine (Ring.WellFormed.inOffs_eq_outOffs_iff (wellFormed_addEntries added)).trans ?_
  rw [counted]
  omega

/-- The circular buffer is a bounded queue: its indices stay in the array and
coincide only in the empty and in the full buffer, it holds the last ten entries
oldest first, and the entry that an addition to a full buffer overwrites, which is
the one the driver releases before it, is the oldest. -/
theorem additions_form_bounded_queue :
    (addEntries added).inOffs < aesdcharMaxWriteOperationsSupported ∧
    (addEntries added).outOffs < aesdcharMaxWriteOperationsSupported ∧
    ((addEntries added).inOffs = (addEntries added).outOffs ↔
      added = [] ∨ (addEntries added).full = true) ∧
    ((addEntries added).full = true ↔ aesdcharMaxWriteOperationsSupported ≤ added.length) ∧
    (addEntries added).walk (min added.length aesdcharMaxWriteOperationsSupported) =
      lastAdded added ∧
    ∀ entry, (addEntries added).full = true → ∃ oldest,
      (lastAdded added).head? = some oldest ∧
      (addEntries added).slot (addEntries added).inOffs = oldest ∧
      (addEntries (added ++ [entry])).slot =
        Function.update (addEntries added).slot (addEntries added).inOffs entry ∧
      ∀ heap, (freeOldestEntry (addEntries added) heap).map Prod.snd =
        kfree heap oldest.buffptr := by
  have wellFormed := wellFormed_addEntries added
  refine ⟨wellFormed.in_lt, wellFormed.out_lt, inOffs_eq_outOffs_addEntries_iff added,
    full_addEntries_iff added, walk_addEntries added, ?_⟩
  intro entry full
  refine ⟨_, ?_, rfl, ?_, ?_⟩
  · rw [← entries_addEntries, wellFormed.entries_of_full full]
    rfl
  · rw [addEntries_concat]
    exact AesdCircularBuffer.slot_setIfInBounds _ wellFormed.inOffs_lt entry
  · intro heap
    rw [freeOldestEntry, if_pos full, Option.map_map]
    exact Option.map_id' ..

end

/-! ## Searching -/

/-- The search indexes the concatenation of the stored entries: at and beyond the
total size it reports that there is no entry, without touching its out parameter,
and below it finds the entry and the offset of the byte at `charOffset`, whatever
bytes the entries point to. -/
theorem search_indexes_concatenation (added : List AesdBufferEntry)
    (fits : ((lastAdded added).map AesdBufferEntry.size).sum < 2 ^ 64) (charOffset : Nat)
    (small : charOffset < 2 ^ 64) (entryOffsetByteRtn : Nat) :
    (aesdCircularBufferStoreEntryOffsetForFpos (addEntries added) charOffset
          entryOffsetByteRtn = (none, entryOffsetByteRtn) ↔
        ((lastAdded added).map AesdBufferEntry.size).sum ≤ charOffset) ∧
      (charOffset < ((lastAdded added).map AesdBufferEntry.size).sum →
        ∃ index byteOffset position entry,
          aesdCircularBufferStoreEntryOffsetForFpos (addEntries added) charOffset
            entryOffsetByteRtn = (some index, byteOffset) ∧
          (lastAdded added)[position]? = some entry ∧
          index = ((addEntries added).outOffs + position) %
            aesdcharMaxWriteOperationsSupported ∧
          (addEntries added).slot index = entry ∧
          (((lastAdded added).take position).map AesdBufferEntry.size).sum + byteOffset =
            charOffset ∧
          byteOffset < entry.size ∧
          ∀ contents : List (List Byte),
            contents.map List.length = (lastAdded added).map AesdBufferEntry.size →
            contents.flatten[charOffset]? =
              contents[position]?.bind fun bytes => bytes[byteOffset]?) := by
  have stored := entries_addEntries added
  have found := AesdCircularBuffer.findEntry_eq_locate (wellFormed_addEntries added)
    (by rwa [stored]) small
  rw [stored] at found
  rw [storeEntry_eq, found]
  cases located : locate ((lastAdded added).map AesdBufferEntry.size) charOffset with
  | none =>
      have beyond := (locate_eq_none_iff ..).mp located
      exact ⟨iff_of_true rfl beyond, fun before => absurd beyond (Nat.not_le_of_lt before)⟩
  | some result =>
      rcases result with ⟨position, byteOffset⟩
      rcases (locate_eq_some_iff ..).mp located with ⟨size, present, inside, total⟩
      rw [List.getElem?_map, Option.map_eq_some_iff] at present
      rcases present with ⟨entry, member, rfl⟩
      have before : ¬((lastAdded added).map AesdBufferEntry.size).sum ≤ charOffset := by
        intro beyond
        have none := (locate_eq_none_iff ..).mpr beyond
        rw [located] at none
        contradiction
      have within : position < (addEntries added).entries.length := by
        rw [stored]
        exact (List.getElem?_eq_some_iff.mp member).1
      have slot := (addEntries added).entries_getElem? within
      rw [stored, member, Option.some.injEq] at slot
      refine ⟨iff_of_false (by simp) before, fun _ => ?_⟩
      refine ⟨_, byteOffset, position, entry, rfl, member, rfl, slot.symm, ?_, inside, ?_⟩
      · rw [← total, List.map_take]
      · intro contents sizes
        rw [← sizes] at located
        rcases drop_flatten_of_locate located with ⟨bytes, held, short, continues⟩
        rw [held, Option.bind_some]
        have first := congrArg (fun rest : List Byte => rest[0]?) continues
        rwa [List.getElem?_append_left (by rw [List.length_drop]; omega), List.getElem?_drop,
          List.getElem?_drop] at first

/-- The end of the first of three entries, of which the second is empty, is the start
of the third. -/
theorem search_indexes_concatenation_boundary :
    (aesdCircularBufferStoreEntryOffsetForFpos
        (addEntries [⟨.block 0, 3⟩, ⟨.empty, 0⟩, ⟨.block 1, 2⟩]) 5 7 = (none, 7) ↔ 5 ≤ 5) ∧
      ∃ (index byteOffset position : Nat) (entry : AesdBufferEntry),
        aesdCircularBufferStoreEntryOffsetForFpos
          (addEntries [⟨.block 0, 3⟩, ⟨.empty, 0⟩, ⟨.block 1, 2⟩]) 3 7 =
            (some index, byteOffset) ∧
        (lastAdded [⟨.block 0, 3⟩, ⟨.empty, 0⟩, ⟨.block 1, 2⟩])[position]? = some entry ∧
        byteOffset < entry.size := by
  constructor
  · exact (search_indexes_concatenation _ (by decide) 5 (by decide) 7).1
  · rcases (search_indexes_concatenation [⟨.block 0, 3⟩, ⟨.empty, 0⟩, ⟨.block 1, 2⟩]
        (by decide) 3 (by decide) 7).2 (by decide) with
      ⟨index, byteOffset, position, entry, found, present, _, _, _, inside, _⟩
    exact ⟨index, byteOffset, position, entry, found, present, inside⟩

end Aesd.Driver
