import Aesd.Driver.Operation
import Aesd.Memory.Ledger

/-!
# Who owns the kernel buffers

Whatever has failed before, the slots of the circular buffer and a line in
progress point to distinct live blocks that are large enough.  Every release and
every enlargement in a run is therefore one of a live block, up to the unloading
of the module.
-/

namespace Aesd.Driver

open Aesd.Memory Aesd.Queue Aesd.Transition Aesd.Word

/-! ## The slots of the circular buffer -/

namespace AesdCircularBuffer

theorem toList_entry (buffer : AesdCircularBuffer) :
    buffer.entry.toList = (List.range aesdcharMaxWriteOperationsSupported).map buffer.slot := by
  apply List.ext_getElem
  · simp
  · intro index inside _
    rw [Vector.length_toList] at inside
    simp [slot, inside]

/-- Besides the stored entries the slots are empty. -/
theorem slots_perm {buffer : AesdCircularBuffer} (wellFormed : buffer.WellFormed)
    (filling : buffer.Filling) :
    buffer.entry.toList.Perm (buffer.entries ++ List.replicate
      (aesdcharMaxWriteOperationsSupported - buffer.entries.length) .zero) := by
  rw [toList_entry, entries, Ring.length_contents]
  exact Ring.Filling.slots_perm wellFormed filling

theorem slot_mem (buffer : AesdCircularBuffer) {index : Nat}
    (bound : index < aesdcharMaxWriteOperationsSupported) :
    buffer.slot index ∈ buffer.entry.toList := by
  rw [toList_entry]
  exact List.mem_map.mpr ⟨index, List.mem_range.mpr bound, rfl⟩

end AesdCircularBuffer

/-! ## The blocks a device state accounts for -/

namespace System

/-- The blocks that the slots point to. -/
def ringBlocks (system : System) : List Nat :=
  system.device.buffer.entry.toList.flatMap fun entry => entry.buffptr.ids

/-- The block of a line in progress. -/
def pendingBlocks (system : System) : List Nat :=
  if system.device.writeBufferSize = 0 then [] else system.device.writeBuffer.ids

end System

section

variable {system : System} {committed : List (List Byte)} {pending : List Byte}
  {stored : List (Region Byte)}

theorem pendingRegion_map_fst (carries : Carries system committed pending) :
    (pendingRegion system.device.writeBuffer pending).map Prod.fst = system.pendingBlocks := by
  have idle : system.device.writeBufferSize = 0 ↔ pending = [] := by
    rw [carries.writeBufferSize_eq, List.length_eq_zero_iff]
  by_cases none : pending = []
  · rw [pendingRegion, System.pendingBlocks, if_pos none, if_pos (idle.mpr none)]
    rfl
  · rw [pendingRegion, System.pendingBlocks, if_neg none, if_neg (mt idle.mp none)]
    exact Pointer.region_map_fst ..

/-- The slots are the entries of the stored lines, and empty ones. -/
theorem Carries.slots_perm (carries : Carries system committed pending)
    (entriesEq : system.device.buffer.entries = stored.map entryOf) :
    system.device.buffer.entry.toList.Perm (stored.map entryOf ++ List.replicate
      (aesdcharMaxWriteOperationsSupported - system.device.buffer.entries.length) .zero) := by
  rw [← entriesEq]
  exact AesdCircularBuffer.slots_perm carries.wellFormed carries.filling

theorem Carries.ringBlocks_perm (carries : Carries system committed pending)
    (entriesEq : system.device.buffer.entries = stored.map entryOf) :
    system.ringBlocks.Perm (stored.map Prod.fst) := by
  refine ((carries.slots_perm entriesEq).flatMap_right _).trans (List.Perm.of_eq ?_)
  have blocks : (stored.map entryOf).flatMap (fun entry => entry.buffptr.ids) =
      stored.map Prod.fst := by
    rw [List.flatMap_map, List.map_eq_flatMap]
    rfl
  rw [List.flatMap_append, blocks, List.flatMap_replicate]
  simp [AesdBufferEntry.zero, Pointer.ids]

/-- The blocks are distinct and live. -/
theorem Carries.holdsIds (carries : Carries system committed pending) :
    system.heap.HoldsIds (system.ringBlocks ++ system.pendingBlocks) := by
  rcases carries.owns with ⟨stored, _, entriesEq, _, holds⟩
  have ids := holds.ids
  rw [List.map_append, pendingRegion_map_fst carries] at ids
  apply ids.perm
  exact List.perm_append_comm.trans ((carries.ringBlocks_perm entriesEq).symm.append_right _)

/-- Two slots point to the same block only if both are empty. -/
theorem Carries.slots_distinct (carries : Carries system committed pending) {first second : Nat}
    (first_lt : first < aesdcharMaxWriteOperationsSupported)
    (second_lt : second < aesdcharMaxWriteOperationsSupported) (different : first ≠ second)
    (used : (system.device.buffer.slot first).buffptr ≠ .null) :
    (system.device.buffer.slot first).buffptr ≠ (system.device.buffer.slot second).buffptr := by
  rcases carries.owns with ⟨stored, _, entriesEq, _, holds⟩
  let apart (entry other : AesdBufferEntry) : Prop :=
    entry.buffptr = other.buffptr → entry.buffptr = .null
  have symmetric : ∀ {entry other}, apart entry other → apart other entry :=
    fun separate same => same.trans (separate same.symm)
  have pairwise : system.device.buffer.entry.toList.Pairwise apart := by
    rw [(carries.slots_perm entriesEq).pairwise_iff symmetric, List.pairwise_append]
    refine ⟨?_, ?_, ?_⟩
    · rw [List.pairwise_map]
      apply (List.pairwise_map.mp holds.tail.1).imp
      intro region other separate same
      exact absurd (Pointer.block.inj same) separate
    · exact List.pairwise_replicate.mpr (Or.inr fun _ => rfl)
    · intro entry _ blank member same
      rw [same, List.eq_of_mem_replicate member]
      rfl
  rw [AesdCircularBuffer.toList_entry, List.pairwise_map] at pairwise
  intro same
  apply used
  have ordered := List.pairwise_iff_getElem.mp pairwise
  rcases Nat.lt_or_gt_of_ne different with before | behind
  · have separate := ordered first second (by simpa using first_lt) (by simpa using second_lt)
      before
    simp only [List.getElem_range] at separate
    exact separate same
  · have separate := ordered second first (by simpa using second_lt) (by simpa using first_lt)
      behind
    simp only [List.getElem_range] at separate
    exact symmetric separate same

/-- A slot that is not empty points to a live block with room for its entry. -/
theorem Carries.slot_live (carries : Carries system committed pending) {index : Nat}
    (bound : index < aesdcharMaxWriteOperationsSupported)
    (used : (system.device.buffer.slot index).buffptr ≠ .null) :
    ∃ id cells, (system.device.buffer.slot index).buffptr = .block id ∧
      system.heap.block id = some cells ∧
      (system.device.buffer.slot index).size ≤ cells.length := by
  rcases carries.owns with ⟨stored, _, entriesEq, _, holds⟩
  have member := (carries.slots_perm entriesEq).mem_iff.mp
    (system.device.buffer.slot_mem bound)
  rcases List.mem_append.mp member with entry | blank
  · rcases List.mem_map.mp entry with ⟨region, inside, same⟩
    rcases holds.tail.2 region inside with ⟨cells, present, isPrefix⟩
    rw [← same]
    exact ⟨region.1, cells, rfl, present, isPrefix.length_le⟩
  · rw [List.eq_of_mem_replicate blank] at used
    exact absurd rfl used

/-- A line in progress that is not lost is in a live block of its own. -/
theorem Carries.writeBuffer_live (carries : Carries system committed pending)
    (unfinished : 0 < system.device.writeBufferSize)
    (kept : system.device.writeBuffer ≠ .null) :
    ∃ id cells, system.device.writeBuffer = .block id ∧ system.heap.block id = some cells ∧
      system.device.writeBufferSize ≤ cells.length ∧
      ∀ index < aesdcharMaxWriteOperationsSupported,
        (system.device.buffer.slot index).buffptr ≠ .block id := by
  have owned := carries.holdsIds.nodup
  rcases carries.owns with ⟨stored, _, _, backs, holds⟩
  rw [carries.writeBufferSize_eq] at unfinished ⊢
  have some' : pending ≠ [] := List.ne_nil_of_length_pos unfinished
  rcases (backs some' kept).exists_block some' with ⟨id, isBlock⟩
  rw [pendingRegion, if_neg some', isBlock] at holds
  rcases holds.2 (id, pending) List.mem_cons_self with ⟨cells, present, isPrefix⟩
  refine ⟨id, cells, isBlock, present, isPrefix.length_le, ?_⟩
  intro index bound same
  have inRing : id ∈ system.ringBlocks := by
    refine List.mem_flatMap.mpr ⟨_, system.device.buffer.slot_mem bound, ?_⟩
    rw [same]
    exact List.mem_singleton_self id
  have inPending : id ∈ system.pendingBlocks := by
    rw [System.pendingBlocks, carries.writeBufferSize_eq, if_neg (Nat.ne_of_gt unfinished), isBlock]
    exact List.mem_singleton_self id
  exact List.disjoint_of_nodup_append owned inRing inPending

/-- Unloading releases every slot, and leaves the line in progress alone. -/
theorem Carries.cleanup (carries : Carries system committed pending) :
    ∃ system', aesdCleanupModule system = some system' ∧
      system'.heap.HoldsIds system.pendingBlocks ∧
      system'.heap.live.card + system.ringBlocks.length = system.heap.live.card := by
  have owned := carries.holdsIds
  rw [System.ringBlocks, ← List.flatMap_map] at owned
  rcases owned.free_all with ⟨heap', freed, kept⟩
  have counted := Heap.card_free_all freed
  rw [List.flatMap_map] at counted
  rw [List.foldlM_map] at freed
  refine ⟨{ system with heap := heap' }, ?_, kept, counted⟩
  rw [aesdCleanupModule]
  simp only [kfree, freed, Option.map_some]

end

/-- Every run of file operations returns, and leaves a state in which the slots
that are not empty point to pairwise distinct live blocks with room for their
entries, a line in progress that is not lost is in one more live block with room for
it, and the module can be unloaded.  A run that released or enlarged a dead block,
or accessed memory outside a live one, would have no result. -/
theorem kernel_buffers_are_owned (kmallocMaxSize : KmallocMaxSize)
    (operations : List Operation) :
    ∃ rets system, run operationStep (aesdInitModule kmallocMaxSize) operations =
        some (rets, system) ∧
      (∀ index < aesdcharMaxWriteOperationsSupported,
        (system.device.buffer.slot index).buffptr ≠ .null →
        ∃ id cells, (system.device.buffer.slot index).buffptr = .block id ∧
          system.heap.block id = some cells ∧
          (system.device.buffer.slot index).size ≤ cells.length) ∧
      (∀ first < aesdcharMaxWriteOperationsSupported,
        ∀ second < aesdcharMaxWriteOperationsSupported, first ≠ second →
        (system.device.buffer.slot first).buffptr ≠ .null →
        (system.device.buffer.slot first).buffptr ≠ (system.device.buffer.slot second).buffptr) ∧
      (0 < system.device.writeBufferSize → system.device.writeBuffer ≠ .null →
        ∃ id cells, system.device.writeBuffer = .block id ∧ system.heap.block id = some cells ∧
          system.device.writeBufferSize ≤ cells.length ∧
          ∀ index < aesdcharMaxWriteOperationsSupported,
            (system.device.buffer.slot index).buffptr ≠ .block id) ∧
      ∃ system', aesdCleanupModule system = some system' := by
  rcases (carries_init kmallocMaxSize).run_operations operations with
    ⟨rets, system, pending, execution, carries⟩
  rcases carries.cleanup with ⟨system', unloaded, _, _⟩
  exact ⟨rets, system, execution, fun index bound => carries.slot_live bound,
    fun first first_lt second second_lt => carries.slots_distinct first_lt second_lt,
    carries.writeBuffer_live, system', unloaded⟩

end Aesd.Driver
