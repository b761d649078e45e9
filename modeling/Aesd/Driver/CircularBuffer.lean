import Aesd.Driver.Kernel

/-!
# The circular buffer of write commands

`aesd-circular-buffer.c`: ten slots, a write index, a read index and a fullness
flag.  An entry is identified by its slot index, as the pointer returned by the
C function identifies an element of the array.
-/

namespace Aesd.Driver

open Aesd.Memory

abbrev aesdcharMaxWriteOperationsSupported : Nat := 10

structure AesdBufferEntry where
  buffptr : Pointer
  size : Nat
  deriving DecidableEq, Repr

/-- The all-zero entry that `memset` leaves. -/
def AesdBufferEntry.zero : AesdBufferEntry :=
  ⟨.null, 0⟩

structure AesdCircularBuffer where
  entry : Vector AesdBufferEntry aesdcharMaxWriteOperationsSupported
  inOffs : Nat
  outOffs : Nat
  full : Bool

/-- The entry at a slot index. -/
def AesdCircularBuffer.slot (buffer : AesdCircularBuffer) (index : Nat) : AesdBufferEntry :=
  buffer.entry[index]?.getD .zero

/-- Clear the buffer with `memset`. -/
def aesdCircularBufferInit : AesdCircularBuffer where
  entry := Vector.replicate aesdcharMaxWriteOperationsSupported .zero
  inOffs := 0
  outOffs := 0
  full := false

/-- Store an entry at the write index and advance the indices. -/
def aesdCircularBufferAddEntry (buffer : AesdCircularBuffer) (addEntry : AesdBufferEntry) :
    AesdCircularBuffer :=
  let inOffs := (buffer.inOffs + 1) % aesdcharMaxWriteOperationsSupported
  let outOffs := if buffer.full then inOffs else buffer.outOffs
  { entry := buffer.entry.setIfInBounds buffer.inOffs addEntry
    inOffs := inOffs
    outOffs := outOffs
    full := inOffs == outOffs }

/-- The search loop: `remaining` is `10 - j`, `index` is `i`, and
`accumulatedByteCount` counts the bytes of the entries already passed. -/
def findEntryLoop (buffer : AesdCircularBuffer) (charOffset : Nat) :
    Nat → Nat → Nat → Option (Nat × Nat)
  | 0, _, _ => none
  | remaining + 1, index, accumulatedByteCount =>
      if index ≠ buffer.inOffs ∨ buffer.full = true then
        if addSize accumulatedByteCount (buffer.slot index).size > charOffset then
          some (index, subSize charOffset accumulatedByteCount)
        else
          findEntryLoop buffer charOffset remaining
            ((index + 1) % aesdcharMaxWriteOperationsSupported)
            (addSize accumulatedByteCount (buffer.slot index).size)
      else
        none

/-- The slot that holds a character offset of the concatenated entries, with the
byte offset inside it. -/
def aesdCircularBufferFindEntryOffsetForFpos (buffer : AesdCircularBuffer)
    (charOffset : Nat) : Option (Nat × Nat) :=
  findEntryLoop buffer charOffset 10 buffer.outOffs 0

/-- The search loop with the cell behind `entry_offset_byte_rtn`, which is written
only where the loop returns an entry. -/
def storeEntryLoop (buffer : AesdCircularBuffer) (charOffset : Nat) :
    Nat → Nat → Nat → Nat → Option Nat × Nat
  | 0, _, _, entryOffsetByteRtn => (none, entryOffsetByteRtn)
  | remaining + 1, index, accumulatedByteCount, entryOffsetByteRtn =>
      if index ≠ buffer.inOffs ∨ buffer.full = true then
        if addSize accumulatedByteCount (buffer.slot index).size > charOffset then
          (some index, subSize charOffset accumulatedByteCount)
        else
          storeEntryLoop buffer charOffset remaining
            ((index + 1) % aesdcharMaxWriteOperationsSupported)
            (addSize accumulatedByteCount (buffer.slot index).size) entryOffsetByteRtn
      else
        (none, entryOffsetByteRtn)

/-- The search with its out parameter: the returned entry, and what
`*entry_offset_byte_rtn` is afterwards. -/
def aesdCircularBufferStoreEntryOffsetForFpos (buffer : AesdCircularBuffer)
    (charOffset entryOffsetByteRtn : Nat) : Option Nat × Nat :=
  storeEntryLoop buffer charOffset 10 buffer.outOffs 0 entryOffsetByteRtn

/-- Seen from outside, the out parameter is the second part of a result that was
found. -/
theorem storeEntry_eq (buffer : AesdCircularBuffer) (charOffset entryOffsetByteRtn : Nat) :
    aesdCircularBufferStoreEntryOffsetForFpos buffer charOffset entryOffsetByteRtn =
      match aesdCircularBufferFindEntryOffsetForFpos buffer charOffset with
      | none => (none, entryOffsetByteRtn)
      | some (index, byteOffset) => (some index, byteOffset) := by
  have loops : ∀ remaining index accumulated,
      storeEntryLoop buffer charOffset remaining index accumulated entryOffsetByteRtn =
        match findEntryLoop buffer charOffset remaining index accumulated with
        | none => (none, entryOffsetByteRtn)
        | some (index, byteOffset) => (some index, byteOffset) := by
    intro remaining
    induction remaining with
    | zero =>
        intro index accumulated
        rfl
    | succ remaining ih =>
        intro index accumulated
        rw [storeEntryLoop, findEntryLoop]
        split
        · split
          · rfl
          · exact ih _ _
        · rfl
  exact loops 10 buffer.outOffs 0

end Aesd.Driver
