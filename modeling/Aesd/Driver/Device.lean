import Aesd.Driver.CircularBuffer

/-!
# The file operations of the character device

`main.c` of the driver.  An operation runs to its end under the device mutex,
so it is a function of the kernel state; the outcomes of allocations, user
copies and interruptible locks are arguments.  A result `none` stands for an
access outside live memory.  Logging and the registration of the device number
are not represented.
-/

namespace Aesd.Driver

open Aesd.Memory

/-- An open file description of the device. -/
abbrev FileId := Nat

structure AesdDev where
  buffer : AesdCircularBuffer
  writeBuffer : Pointer
  writeBufferSize : Nat
  buffSize : Nat

/-- The device, the kernel heap, and the position of every open file. -/
structure System where
  heap : Heap Byte
  device : AesdDev
  /-- The 64-bit `f_pos` of each file.  Seeks give it a position that they have checked, and
  reads and writes add the bytes they have transferred, of which there are never 2⁶³. -/
  fPos : FileId → Int

/-- The state after the module has been loaded: a zeroed device. -/
def aesdInitModule (kmallocMaxSize : KmallocMaxSize) : System where
  heap := Heap.initial kmallocMaxSize
  device := ⟨aesdCircularBufferInit, .null, 0, 0⟩
  fPos _ := 0

/-- Unload the module: release the block of every slot of the circular buffer. -/
def aesdCleanupModule (system : System) : Option System :=
  (system.device.buffer.entry.toList.foldlM (fun heap entry => kfree heap entry.buffptr)
    system.heap).map fun heap => { system with heap := heap }

/-- Open the device: a new description starts at position zero. -/
def aesdOpen (file : FileId) (system : System) : System :=
  { system with fPos := Function.update system.fPos file 0 }

/-! ## Reading -/

/-- Outcomes of the services a read calls. -/
structure ReadOutcome where
  lock : Bool
  copyToUser : Bool
  deriving DecidableEq

def ReadOutcome.success : ReadOutcome where
  lock := true
  copyToUser := true

/-- Deliver at most `count` bytes of the entry that contains the file position.
`buf` tells whether the user buffer is non-null; the delivered bytes are part of
the result. -/
def aesdRead (outcome : ReadOutcome) (filp : Option FileId) (buf : Bool) (count : Nat)
    (system : System) : Option (Int × List Byte × System) :=
  match filp, buf with
  | some file, true =>
      if outcome.lock then
        match aesdCircularBufferFindEntryOffsetForFpos system.device.buffer
            (toSize (system.fPos file)) with
        | none => some (0, [], system)
        | some (index, byteOffset) =>
            let newEntry := system.device.buffer.slot index
            let bytesRemaining := subSize newEntry.size byteOffset
            let bytesToCopy := min bytesRemaining count
            if copyFails outcome.copyToUser bytesToCopy then
              some (-efault, [], system)
            else
              (system.heap.load newEntry.buffptr byteOffset bytesToCopy).map fun bytes =>
                (bytesToCopy, bytes,
                  { system with
                    fPos := Function.update system.fPos file
                      (system.fPos file + bytesToCopy) })
      else
        some (-erestartsys, [], system)
  | _, _ => some (-einval, [], system)

/-! ## Writing -/

/-- Outcomes of the services a write calls. -/
structure WriteOutcome where
  writeData : Grant Byte
  copyFromUser : Bool
  lock : Bool
  writeBuffer : Grant Byte

/-- Every service succeeds; new memory is zero. -/
def WriteOutcome.success : WriteOutcome where
  writeData := ⟨true, false, fun _ => 0⟩
  copyFromUser := true
  lock := true
  writeBuffer := ⟨true, false, fun _ => 0⟩

/-- The amount of data to append: up to and including the first newline, or all
of it. -/
def appendIndex (writeData : List Byte) : Nat :=
  match writeData.findIdx? (· == newline) with
  | some writeIndex => writeIndex + 1
  | none => writeData.length

/-- Allocate the write buffer for a new line, or enlarge it for a line in
progress. -/
def growWriteBuffer (outcome : WriteOutcome) (device : AesdDev) (heap : Heap Byte)
    (count append : Nat) : Option (Pointer × Heap Byte) :=
  if device.writeBufferSize = 0 then
    some (kmalloc outcome.writeBuffer heap count)
  else
    krealloc outcome.writeBuffer heap device.writeBuffer
      (addSize append device.writeBufferSize)

/-- Release the entry that the next addition overwrites, when the buffer is
full. -/
def freeOldestEntry (buffer : AesdCircularBuffer) (heap : Heap Byte) :
    Option (AesdCircularBuffer × Heap Byte) :=
  if buffer.full then
    -- the null test before the call is the one `kfree` makes itself
    (kfree heap (buffer.slot buffer.inOffs).buffptr).map fun heap =>
      ({ buffer with entry := buffer.entry.setIfInBounds buffer.inOffs .zero }, heap)
  else
    some (buffer, heap)

/-- Turn the write buffer into the newest entry of the circular buffer. -/
def commitEntry (device : AesdDev) (heap : Heap Byte) : Option (AesdDev × Heap Byte) :=
  let addEntry : AesdBufferEntry := ⟨device.writeBuffer, device.writeBufferSize⟩
  (freeOldestEntry device.buffer heap).map fun freed =>
    ({ device with
        buffer := aesdCircularBufferAddEntry freed.1 addEntry
        buffSize := addSize device.buffSize addEntry.size
        writeBufferSize := 0 },
      freed.2)

/-- The part of a write that runs under the device mutex. -/
def aesdWriteLocked (outcome : WriteOutcome) (file : FileId) (writeData : Pointer)
    (count : Nat) (system : System) : Option (Int × System) := do
  let data ← system.heap.load writeData 0 count
  let append := appendIndex data
  let (writeBuffer, heap) ← growWriteBuffer outcome system.device system.heap count append
  let device := { system.device with writeBuffer := writeBuffer }
  if writeBuffer = .null then
    let heap ← kfree heap writeData
    some (-enomem, { system with heap := heap, device := device })
  else
    let heap ← memcpy heap writeBuffer device.writeBufferSize writeData append
    let device := { device with writeBufferSize := addSize device.writeBufferSize append }
    let (device, heap) ←
      if newline ∈ data then commitEntry device heap else some (device, heap)
    let heap ← kfree heap writeData
    some (append,
      { heap := heap
        device := device
        fPos := Function.update system.fPos file (system.fPos file + append) })

/-- Append user data to the line in progress, up to and including its first
newline, which commits the line.  The path of an interrupted lock does not
release the temporary copy. -/
def aesdWrite (outcome : WriteOutcome) (filp : Option FileId) (buf : Option (List Byte))
    (system : System) : Option (Int × System) :=
  match filp, buf with
  | some file, some data =>
      let count := data.length
      let (writeData, heap) := kmalloc outcome.writeData system.heap count
      if writeData = .null then
        some (-enomem, { system with heap := heap })
      else if copyFails outcome.copyFromUser count then
        (kfree heap writeData).map fun heap => (-efault, { system with heap := heap })
      else
        (heap.store writeData 0 data).bind fun heap =>
          if outcome.lock then
            aesdWriteLocked outcome file writeData count { system with heap := heap }
          else
            some (-erestartsys, { system with heap := heap })
  | _, _ => some (-einval, system)

/-! ## Seeking -/

/-- Seek against the cached total size. -/
def aesdLlseek (lock : Bool) (file : FileId) (offset : Int) (whence : Whence)
    (system : System) : Int × System :=
  if lock then
    let result := fixedSizeLlseek (system.fPos file) offset whence
      (toLoff system.device.buffSize)
    (result.1, { system with fPos := Function.update system.fPos file result.2 })
  else
    (-erestartsys, system)

structure AesdSeekto where
  writeCmd : UInt32
  writeCmdOffset : UInt32
  deriving DecidableEq, Repr

/-- The loop that sums the sizes of the slots below `writeCmd`. -/
def updatedFposOffset (buffer : AesdCircularBuffer) : Nat → Nat
  | 0 => 0
  | i + 1 => addSize (updatedFposOffset buffer i) (buffer.slot i).size

/-- Move the file position to an offset inside a write command. -/
def aesdAdjustFileOffset (lock : Bool) (file : FileId) (writeCmd writeCmdOffset : Nat)
    (system : System) : Int × System :=
  if lock then
    if aesdcharMaxWriteOperationsSupported ≤ writeCmd then
      (-einval, system)
    else if (system.device.buffer.slot writeCmd).size ≤ writeCmdOffset then
      (-einval, system)
    else
      (0, { system with
        fPos := Function.update system.fPos file
          (toLoff (addSize (updatedFposOffset system.device.buffer writeCmd)
            writeCmdOffset)) })
  else
    (-erestartsys, system)

def aesdIocMagic : UInt32 := 0x16
def aesdcharIocMaxnr : UInt32 := 1

/-- `_IOC_TYPE`: the eight bits above the command number. -/
def iocType (cmd : UInt32) : UInt32 :=
  (cmd >>> 8) &&& 0xff

/-- `_IOC_NR`: the lowest eight bits. -/
def iocNr (cmd : UInt32) : UInt32 :=
  cmd &&& 0xff

/-- `_IOWR(AESD_IOC_MAGIC, 1, struct aesd_seekto)`: both directions, a size of
eight bytes, the driver's type and number one. -/
def aesdcharIocseekto : UInt32 :=
  ((3 : UInt32) <<< 30) ||| ((8 : UInt32) <<< 16) ||| (aesdIocMagic <<< 8) ||| 1

/-- Outcomes of the services an ioctl calls. -/
structure IoctlOutcome where
  copyFromUser : Bool
  lock : Bool
  deriving DecidableEq

def IoctlOutcome.success : IoctlOutcome where
  copyFromUser := true
  lock := true

/-- The only command is the seek. -/
def aesdIoctl (outcome : IoctlOutcome) (file : FileId) (cmd : UInt32) (arg : AesdSeekto)
    (system : System) : Int × System :=
  if iocType cmd ≠ aesdIocMagic ∨ iocNr cmd > aesdcharIocMaxnr then
    (-enotty, system)
  else if cmd = aesdcharIocseekto then
    if outcome.copyFromUser then
      aesdAdjustFileOffset outcome.lock file arg.writeCmd.toNat arg.writeCmdOffset.toNat system
    else
      (-efault, system)
  else
    (-enotty, system)

/-! ## The positions of other files -/

section

variable {system system' : System} {file other : FileId}

theorem aesdRead_fPos {outcome : ReadOutcome} {buf : Bool} {count : Nat} {ret : Int}
    {bytes : List Byte}
    (call : aesdRead outcome (some file) buf count system = some (ret, bytes, system'))
    (different : other ≠ file) : system'.fPos other = system.fPos other := by
  cases buf with
  | false =>
      simp only [aesdRead, Option.some.injEq, Prod.mk.injEq] at call
      rw [← call.2.2]
  | true =>
      simp only [aesdRead] at call
      split at call
      · split at call
        · simp only [Option.some.injEq, Prod.mk.injEq] at call
          rw [← call.2.2]
        · split at call
          · simp only [Option.some.injEq, Prod.mk.injEq] at call
            rw [← call.2.2]
          · simp only [Option.map_eq_some_iff, Prod.mk.injEq] at call
            rcases call with ⟨_, _, _, _, rfl⟩
            exact Function.update_of_ne different ..
      · simp only [Option.some.injEq, Prod.mk.injEq] at call
        rw [← call.2.2]

theorem aesdWriteLocked_fPos {outcome : WriteOutcome} {writeData : Pointer} {count : Nat}
    {ret : Int} (call : aesdWriteLocked outcome file writeData count system = some (ret, system'))
    (different : other ≠ file) : system'.fPos other = system.fPos other := by
  simp only [aesdWriteLocked, Option.bind_eq_bind, Option.bind_eq_some_iff] at call
  rcases call with ⟨data, _, ⟨writeBuffer, heap⟩, _, call⟩
  split at call
  · rcases Option.bind_eq_some_iff.mp call with ⟨_, _, result⟩
    simp only [Option.some.injEq, Prod.mk.injEq] at result
    rw [← result.2]
  · rcases Option.bind_eq_some_iff.mp call with ⟨_, _, call⟩
    split at call
    all_goals
      simp only [Option.bind_eq_some_iff, Option.some.injEq, Prod.mk.injEq] at call
      rcases call with ⟨_, _, _, _, _, rfl⟩
      exact Function.update_of_ne different ..

theorem aesdWrite_fPos {outcome : WriteOutcome} {buf : Option (List Byte)} {ret : Int}
    (call : aesdWrite outcome (some file) buf system = some (ret, system'))
    (different : other ≠ file) : system'.fPos other = system.fPos other := by
  cases buf with
  | none =>
      simp only [aesdWrite, Option.some.injEq, Prod.mk.injEq] at call
      rw [← call.2]
  | some data =>
      simp only [aesdWrite] at call
      split at call
      · simp only [Option.some.injEq, Prod.mk.injEq] at call
        rw [← call.2]
      · split at call
        · simp only [Option.map_eq_some_iff, Prod.mk.injEq] at call
          rcases call with ⟨_, _, _, rfl⟩
          rfl
        · rcases Option.bind_eq_some_iff.mp call with ⟨heap, _, call⟩
          split at call
          · exact (aesdWriteLocked_fPos call different).trans rfl
          · simp only [Option.some.injEq, Prod.mk.injEq] at call
            rw [← call.2]

theorem aesdLlseek_fPos (lock : Bool) (offset : Int) (whence : Whence) (system : System)
    (different : other ≠ file) :
    (aesdLlseek lock file offset whence system).2.fPos other = system.fPos other := by
  unfold aesdLlseek
  split
  · exact Function.update_of_ne different ..
  · rfl

theorem aesdIoctl_fPos (outcome : IoctlOutcome) (cmd : UInt32) (arg : AesdSeekto)
    (different : other ≠ file) :
    (aesdIoctl outcome file cmd arg system).2.fPos other = system.fPos other := by
  unfold aesdIoctl aesdAdjustFileOffset
  split
  · rfl
  · split
    · split
      · split
        · split
          · rfl
          · split
            · rfl
            · exact Function.update_of_ne different ..
        · rfl
      · rfl
    · rfl

end

end Aesd.Driver
