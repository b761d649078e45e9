import Aesd.Driver.Concurrency
import Aesd.Memory.Renaming

/-!
# Devices that agree up to the names of blocks

No operation of the driver looks at the name of a block: it compares pointers with null,
and hands them to the allocator.  So what a call does under the mutex it also does, step by
step, on a device that is the same but for the names of blocks.
-/

namespace Aesd.Driver

open Aesd.Memory

/-- Functions of related values are related. -/
theorem rel_map {α β γ δ : Type} {rel : α → β → Prop} {rel' : γ → δ → Prop} {first : Option α}
    {second : Option β} {f : α → γ} {g : β → δ} (related : Option.Rel rel first second)
    (maps : ∀ a b, rel a b → rel' (f a) (g b)) :
    Option.Rel rel' (first.map f) (second.map g) := by
  cases related with
  | some related => exact .some (maps _ _ related)
  | none => exact .none

/-! ## Entries, buffers and devices -/

variable {pairs pairs' : Nat → Nat → Prop}

structure AesdBufferEntry.Paired (pairs : Nat → Nat → Prop) (entry entry' : AesdBufferEntry) :
    Prop where
  buffptr : entry.buffptr.Paired pairs entry'.buffptr
  size : entry'.size = entry.size

structure AesdCircularBuffer.Paired (pairs : Nat → Nat → Prop)
    (buffer buffer' : AesdCircularBuffer) : Prop where
  slot : ∀ index, (buffer.slot index).Paired pairs (buffer'.slot index)
  inOffs : buffer'.inOffs = buffer.inOffs
  outOffs : buffer'.outOffs = buffer.outOffs
  full : buffer'.full = buffer.full

structure AesdDev.Paired (pairs : Nat → Nat → Prop) (device device' : AesdDev) : Prop where
  buffer : device.buffer.Paired pairs device'.buffer
  writeBuffer : device.writeBuffer.Paired pairs device'.writeBuffer
  writeBufferSize : device'.writeBufferSize = device.writeBufferSize
  buffSize : device'.buffSize = device.buffSize

theorem AesdBufferEntry.paired_zero : AesdBufferEntry.zero.Paired pairs .zero :=
  ⟨.null, rfl⟩

theorem AesdCircularBuffer.Paired.mono {buffer buffer' : AesdCircularBuffer}
    (paired : buffer.Paired pairs buffer') (more : pairs ≤ pairs') :
    buffer.Paired pairs' buffer' :=
  ⟨fun index => ⟨(paired.slot index).buffptr.mono more, (paired.slot index).size⟩,
    paired.inOffs, paired.outOffs, paired.full⟩

theorem AesdDev.Paired.mono {device device' : AesdDev} (paired : device.Paired pairs device')
    (more : pairs ≤ pairs') : device.Paired pairs' device' :=
  ⟨paired.buffer.mono more, paired.writeBuffer.mono more, paired.writeBufferSize,
    paired.buffSize⟩

theorem aesdDev_paired_init :
    AesdDev.Paired pairs ⟨aesdCircularBufferInit, .null, 0, 0⟩
      ⟨aesdCircularBufferInit, .null, 0, 0⟩ where
  buffer := ⟨fun index => by simpa using AesdBufferEntry.paired_zero, rfl, rfl, rfl⟩
  writeBuffer := .null
  writeBufferSize := rfl
  buffSize := rfl

section

variable {buffer buffer' : AesdCircularBuffer}

/-- The slots after one of them has been stored. -/
theorem slot_setIfInBounds_eq (buffer : AesdCircularBuffer) (index position : Nat)
    (entry : AesdBufferEntry) :
    { buffer with entry := buffer.entry.setIfInBounds index entry }.slot position =
      if position = index ∧ index < aesdcharMaxWriteOperationsSupported then entry
      else buffer.slot position := by
  by_cases bound : index < aesdcharMaxWriteOperationsSupported
  · rw [AesdCircularBuffer.slot_setIfInBounds buffer bound, Function.update_apply]
    simp [bound]
  · simp only [AesdCircularBuffer.slot, Vector.getElem?_setIfInBounds, bound, and_false, if_false]
    split
    · rename_i same
      subst same
      rw [Vector.getElem?_eq_none (Nat.le_of_not_lt bound)]
    · rfl

theorem AesdCircularBuffer.Paired.setEntry (paired : buffer.Paired pairs buffer')
    {entry entry' : AesdBufferEntry} (entries : entry.Paired pairs entry') :
    { buffer with entry := buffer.entry.setIfInBounds buffer.inOffs entry }.Paired pairs
      { buffer' with entry := buffer'.entry.setIfInBounds buffer'.inOffs entry' } where
  slot index := by
    rw [slot_setIfInBounds_eq, slot_setIfInBounds_eq, paired.inOffs]
    split
    · exact entries
    · exact paired.slot index
  inOffs := paired.inOffs
  outOffs := paired.outOffs
  full := paired.full

theorem AesdCircularBuffer.Paired.addEntry (paired : buffer.Paired pairs buffer')
    {entry entry' : AesdBufferEntry} (entries : entry.Paired pairs entry') :
    (aesdCircularBufferAddEntry buffer entry).Paired pairs
      (aesdCircularBufferAddEntry buffer' entry') where
  slot := (paired.setEntry entries).slot
  inOffs := by simp [aesdCircularBufferAddEntry, paired.inOffs]
  outOffs := by simp [aesdCircularBufferAddEntry, paired.inOffs, paired.outOffs, paired.full]
  full := by simp [aesdCircularBufferAddEntry, paired.inOffs, paired.outOffs, paired.full]

theorem AesdCircularBuffer.Paired.findEntryLoop_eq (paired : buffer.Paired pairs buffer')
    (charOffset remaining index accumulated : Nat) :
    findEntryLoop buffer' charOffset remaining index accumulated =
      findEntryLoop buffer charOffset remaining index accumulated := by
  induction remaining generalizing index accumulated with
  | zero => rfl
  | succ remaining ih =>
      simp only [findEntryLoop, paired.inOffs, paired.full, (paired.slot index).size, ih]

theorem AesdCircularBuffer.Paired.findEntry_eq (paired : buffer.Paired pairs buffer')
    (charOffset : Nat) :
    aesdCircularBufferFindEntryOffsetForFpos buffer' charOffset =
      aesdCircularBufferFindEntryOffsetForFpos buffer charOffset := by
  unfold aesdCircularBufferFindEntryOffsetForFpos
  rw [paired.outOffs]
  exact paired.findEntryLoop_eq ..

theorem AesdCircularBuffer.Paired.updatedFposOffset_eq (paired : buffer.Paired pairs buffer')
    (writeCmd : Nat) : updatedFposOffset buffer' writeCmd = updatedFposOffset buffer writeCmd := by
  induction writeCmd with
  | zero => rfl
  | succ i ih => rw [updatedFposOffset, updatedFposOffset, ih, (paired.slot i).size]

end

/-! ## Writing -/

section

variable {ι : Type} {apart : ι → Option (Nat × List Byte)} {heap heap' : Heap Byte}
  {device device' : AesdDev}

theorem growWriteBuffer_paired (renames : heap.Renames pairs apart heap')
    (paired : device.Paired pairs device') (outcome : WriteOutcome) (count append : Nat) :
    Option.Rel (fun result result' => ∃ pairs', pairs ≤ pairs' ∧
        result.1.Paired pairs' result'.1 ∧ result.2.Renames pairs' apart result'.2)
      (growWriteBuffer outcome device heap count append)
      (growWriteBuffer outcome device' heap' count append) := by
  unfold growWriteBuffer
  rw [paired.writeBufferSize]
  split
  · exact .some (renames.malloc outcome.writeBuffer count)
  · exact renames.realloc paired.writeBuffer outcome.writeBuffer _

theorem memcpy_paired (renames : heap.Renames pairs apart heap') {target target' source source' :
    Pointer} (targets : target.Paired pairs target') (sources : source.Paired pairs source')
    (offset size : Nat) :
    Option.Rel (Heap.Renames pairs apart) (memcpy heap target offset source size)
      (memcpy heap' target' offset source' size) := by
  unfold memcpy
  rw [renames.load sources]
  cases heap.load source 0 size with
  | none => exact .none
  | some bytes => exact renames.store targets offset bytes

theorem freeOldestEntry_paired (renames : heap.Renames pairs apart heap')
    {buffer buffer' : AesdCircularBuffer} (paired : buffer.Paired pairs buffer') :
    Option.Rel (fun result result' => result.1.Paired pairs result'.1 ∧
        result.2.Renames pairs apart result'.2)
      (freeOldestEntry buffer heap) (freeOldestEntry buffer' heap') := by
  have oldest : (buffer.slot buffer.inOffs).buffptr.Paired pairs
      (buffer'.slot buffer'.inOffs).buffptr := by
    rw [paired.inOffs]
    exact (paired.slot buffer.inOffs).buffptr
  unfold freeOldestEntry
  by_cases full : buffer.full = true
  · rw [if_pos full, if_pos (paired.full.trans full)]
    exact rel_map (renames.free oldest) fun _ _ renames' =>
      ⟨paired.setEntry AesdBufferEntry.paired_zero, renames'⟩
  · rw [if_neg full, if_neg (by rwa [paired.full])]
    exact .some ⟨paired, renames⟩

theorem commitEntry_paired (renames : heap.Renames pairs apart heap')
    (paired : device.Paired pairs device') :
    Option.Rel (fun result result' => result.1.Paired pairs result'.1 ∧
        result.2.Renames pairs apart result'.2)
      (commitEntry device heap) (commitEntry device' heap') := by
  unfold commitEntry
  apply rel_map (freeOldestEntry_paired renames paired.buffer)
  rintro ⟨buffer, freed⟩ ⟨buffer', freed'⟩ ⟨buffers, renames'⟩
  constructor
  · exact {
      buffer := buffers.addEntry ⟨paired.writeBuffer, paired.writeBufferSize⟩
      writeBuffer := paired.writeBuffer
      writeBufferSize := rfl
      buffSize := by rw [paired.buffSize, paired.writeBufferSize] }
  · exact renames'

end

/-! ## The steps under the mutex -/

/-- The same is left to do, for the same file, up to the names of blocks. -/
inductive Critical.Paired (pairs : Nat → Nat → Prop) (file : FileId) :
    Critical → Critical → Prop
  | read (stage : ReadStage) (outcome : ReadOutcome) (pos : Int) (count : Nat) :
      Paired pairs file (.read stage outcome file pos count) (.read stage outcome file pos count)
  | write (stage : WriteStage) (outcome : WriteOutcome) (pos : Int) {writeData writeData' : Pointer}
      (paired : writeData.Paired pairs writeData') (count : Nat) :
      Paired pairs file (.write stage outcome file pos writeData count)
        (.write stage outcome file pos writeData' count)
  | llseek (offset : Int) (whence : Whence) :
      Paired pairs file (.llseek file offset whence) (.llseek file offset whence)
  | adjust (writeCmd writeCmdOffset : Nat) :
      Paired pairs file (.adjust file writeCmd writeCmdOffset)
        (.adjust file writeCmd writeCmdOffset)
  | done (reply : Reply) (here : ∀ other pos, reply.back = some (other, pos) → other = file) :
      Paired pairs file (.done reply) (.done reply)

theorem Critical.Paired.mono {file : FileId} {critical critical' : Critical}
    (paired : critical.Paired pairs file critical') (more : pairs ≤ pairs') :
    critical.Paired pairs' file critical' := by
  cases paired with
  | read stage outcome pos count => exact .read stage outcome pos count
  | write stage outcome pos paired count =>
      exact .write stage outcome pos (paired.mono more) count
  | llseek offset whence => exact .llseek offset whence
  | adjust writeCmd writeCmdOffset => exact .adjust writeCmd writeCmdOffset
  | done reply here => exact .done reply here

/-- The states agree up to the names of blocks, and in the position of one file. -/
structure System.Renames {ι : Type} (pairs : Nat → Nat → Prop)
    (apart : ι → Option (Nat × List Byte)) (file : FileId) (system system' : System) : Prop where
  heap : system.heap.Renames pairs apart system'.heap
  device : system.device.Paired pairs system'.device
  fPos : system'.fPos file = system.fPos file

section

variable {ι : Type} {apart : ι → Option (Nat × List Byte)} {system system' : System}
  {file : FileId}

/-- What a step under the mutex leads to on devices that agree. -/
def Critical.Follows (pairs : Nat → Nat → Prop) (apart : ι → Option (Nat × List Byte))
    (file : FileId) (fPos : FileId → Int) (next next' : Critical × System) : Prop :=
  ∃ pairs', pairs ≤ pairs' ∧ next.1.Paired pairs' file next'.1 ∧
    next.2.Renames pairs' apart file next'.2 ∧ ∀ other, other ≠ file →
      next.2.fPos other = fPos other

/-- A step that leaves the positions. -/
theorem Critical.Follows.of_still (agree : system.Renames pairs apart file system')
    (more : pairs ≤ pairs') {heap heap' : Heap Byte} {device device' : AesdDev}
    {next next' : Critical} (nexts : next.Paired pairs' file next')
    (heaps : heap.Renames pairs' apart heap') (devices : device.Paired pairs' device') :
    Critical.Follows pairs apart file system.fPos (next, { system with heap, device })
      (next', { system' with heap := heap', device := device' }) :=
  ⟨pairs', more, nexts, ⟨heaps, devices, agree.fPos⟩, fun _ _ => rfl⟩

theorem readLockedStep_paired (agree : system.Renames pairs apart file system')
    (stage : ReadStage) (outcome : ReadOutcome) (pos : Int) (count : Nat) :
    Option.Rel (Critical.Follows pairs apart file system.fPos)
      (readLockedStep stage outcome file pos count system)
      (readLockedStep stage outcome file pos count system') := by
  have still : ∀ {next : Critical}, next.Paired pairs file next →
      Critical.Follows pairs apart file system.fPos (next, system) (next, system') :=
    fun nexts => .of_still agree le_rfl nexts agree.heap agree.device
  unfold readLockedStep
  cases stage with
  | find =>
      simp only [agree.device.buffer.findEntry_eq]
      split
      · exact .some (still (.done _ (by simp)))
      · exact .some (still (.read ..))
  | copy newEntry byteOffset =>
      have slots := agree.device.buffer.slot newEntry
      simp only [slots.size, agree.heap.load slots.buffptr]
      split
      · exact .some (still (.done _ (by simp)))
      · cases system.heap.load _ _ _ with
        | none => exact .none
        | some bytes =>
            apply Option.Rel.some
            apply still
            apply Critical.Paired.done
            intro other pos same
            simp only [Option.some.injEq, Prod.mk.injEq] at same
            exact same.1.symm

theorem writeLockedStep_paired (agree : system.Renames pairs apart file system')
    (stage : WriteStage) (outcome : WriteOutcome) (pos : Int) {writeData writeData' : Pointer}
    (paired : writeData.Paired pairs writeData') (count : Nat) :
    Option.Rel (Critical.Follows pairs apart file system.fPos)
      (writeLockedStep stage outcome file pos writeData count system)
      (writeLockedStep stage outcome file pos writeData' count system') := by
  unfold writeLockedStep
  cases stage with
  | scan =>
      simp only [agree.heap.load paired]
      cases system.heap.load writeData 0 count with
      | none => exact .none
      | some data =>
          exact .some (.of_still agree le_rfl (.write _ _ _ paired _) agree.heap agree.device)
  | grow append newlineFound =>
      apply rel_map (growWriteBuffer_paired agree.heap agree.device outcome count append)
      rintro ⟨writeBuffer, heap⟩ ⟨writeBuffer', heap'⟩ ⟨pairs', more, pointers, heaps⟩
      have devices := agree.device.mono more
      simp only [pointers.null_iff]
      exact .of_still agree more (.write _ _ _ (paired.mono more) _) heaps
        ⟨devices.buffer, pointers, devices.writeBufferSize, devices.buffSize⟩
  | append append newlineFound =>
      have devices := agree.device
      simp only [devices.writeBufferSize]
      apply rel_map (memcpy_paired agree.heap devices.writeBuffer paired _ append)
      intro heap heap' heaps
      exact .of_still agree le_rfl (.write _ _ _ paired _) heaps
        ⟨devices.buffer, devices.writeBuffer, rfl, devices.buffSize⟩
  | commit append =>
      apply rel_map (commitEntry_paired agree.heap agree.device)
      rintro ⟨device, heap⟩ ⟨device', heap'⟩ ⟨devices, heaps⟩
      exact .of_still agree le_rfl (.write _ _ _ paired _) heaps devices
  | release retval =>
      apply rel_map (agree.heap.free paired)
      intro heap heap' heaps
      apply Critical.Follows.of_still agree le_rfl _ heaps agree.device
      apply Critical.Paired.done
      intro other pos same
      split at same
      · simp only [Option.some.injEq, Prod.mk.injEq] at same
        exact same.1.symm
      · contradiction

/-- A seek moves the position alike. -/
theorem aesdLlseek_paired (agree : system.Renames pairs apart file system') (offset : Int)
    (whence : Whence) :
    (aesdLlseek true file offset whence system').1 =
        (aesdLlseek true file offset whence system).1 ∧
      (aesdLlseek true file offset whence system).2.Renames pairs apart file
        (aesdLlseek true file offset whence system').2 := by
  simp only [aesdLlseek, if_true, agree.fPos, agree.device.buffSize]
  exact ⟨trivial, agree.heap, agree.device, by simp only [Function.update_self]⟩

theorem aesdAdjustFileOffset_paired (agree : system.Renames pairs apart file system')
    (writeCmd writeCmdOffset : Nat) :
    (aesdAdjustFileOffset true file writeCmd writeCmdOffset system').1 =
        (aesdAdjustFileOffset true file writeCmd writeCmdOffset system).1 ∧
      (aesdAdjustFileOffset true file writeCmd writeCmdOffset system).2.Renames pairs apart file
        (aesdAdjustFileOffset true file writeCmd writeCmdOffset system').2 := by
  have buffers := agree.device.buffer
  simp only [aesdAdjustFileOffset, if_true, (buffers.slot writeCmd).size,
    buffers.updatedFposOffset_eq]
  split
  · exact ⟨rfl, agree⟩
  · split
    · exact ⟨rfl, agree⟩
    · exact ⟨rfl, agree.heap, agree.device, by simp only [Function.update_self]⟩

/-- Every step under the mutex is the same on devices that agree. -/
theorem Critical.Paired.step {critical critical' : Critical}
    (paired : critical.Paired pairs file critical')
    (agree : system.Renames pairs apart file system') :
    Option.Rel (Critical.Follows pairs apart file system.fPos) (critical.step system)
      (critical'.step system') := by
  cases paired with
  | read stage outcome pos count => exact readLockedStep_paired agree stage outcome pos count
  | write stage outcome pos paired count =>
      exact writeLockedStep_paired agree stage outcome pos paired count
  | llseek offset whence =>
      rcases aesdLlseek_paired agree offset whence with ⟨same, agree'⟩
      simp only [Critical.step, same]
      exact .some ⟨pairs, le_rfl, .done _ (by simp), agree',
        fun other different => aesdLlseek_fPos true offset whence system different⟩
  | adjust writeCmd writeCmdOffset =>
      rcases aesdAdjustFileOffset_paired agree writeCmd writeCmdOffset with ⟨same, agree'⟩
      simp only [Critical.step, same]
      refine .some ⟨pairs, le_rfl, .done _ (by simp), agree', fun other different => ?_⟩
      simp only [aesdAdjustFileOffset, if_true]
      split
      · rfl
      · split
        · rfl
        · exact Function.update_of_ne different ..
  | done reply here => exact .none

end

/-! ## What is stored -/

/-- Devices that agree store the same lines, and the same line in progress. -/
theorem AesdDev.Paired.bytes_eq {ι : Type} {apart : ι → Option (Nat × List Byte)}
    {system system' : System} (paired : system.device.Paired pairs system'.device)
    (renames : system.heap.Renames pairs apart system'.heap) :
    system'.entriesBytes = system.entriesBytes ∧ system'.pendingBytes = system.pendingBytes := by
  constructor
  · have buffers := paired.buffer
    simp only [System.entriesBytes, AesdCircularBuffer.entries, AesdCircularBuffer.toRing,
      Queue.Ring.contents, Queue.Ring.count, List.mapM_map, buffers.inOffs, buffers.outOffs,
      buffers.full]
    congr 1
    funext position
    have slots := buffers.slot ((system.device.buffer.outOffs + position) %
      aesdcharMaxWriteOperationsSupported)
    simp only [Function.comp_apply, System.entryBytes, slots.size, renames.load slots.buffptr]
  · unfold System.pendingBytes
    rw [paired.writeBufferSize, renames.load paired.writeBuffer]

/-! ## The limit of the allocator -/

/-- No step under the mutex changes what the allocator can meet. -/
theorem Critical.limit_step {critical : Critical} {system : System} {next : Critical × System}
    (step : critical.step system = some next) : next.2.heap.limit = system.heap.limit := by
  cases critical with
  | read stage outcome file pos count =>
      cases stage with
      | find =>
          simp only [Critical.step, readLockedStep] at step
          split at step
          · cases step
            rfl
          · cases step
            rfl
      | copy newEntry byteOffset =>
          simp only [Critical.step, readLockedStep] at step
          split at step
          · cases step
            rfl
          · rcases Option.map_eq_some_iff.mp step with ⟨bytes, _, rfl⟩
            rfl
  | write stage outcome file pos writeData count =>
      cases stage with
      | scan =>
          rcases Option.map_eq_some_iff.mp step with ⟨data, _, rfl⟩
          rfl
      | grow append newlineFound =>
          rcases Option.map_eq_some_iff.mp step with ⟨⟨writeBuffer, heap⟩, grown, rfl⟩
          unfold growWriteBuffer at grown
          split at grown
          · exact (congrArg (fun result => result.2.limit) (Option.some.inj grown)).symm.trans
              (Heap.limit_malloc ..)
          · exact Heap.limit_realloc grown
      | append append newlineFound =>
          rcases Option.map_eq_some_iff.mp step with ⟨heap, copied, rfl⟩
          rcases Option.bind_eq_some_iff.mp copied with ⟨bytes, _, stored⟩
          exact Heap.limit_store stored
      | commit append =>
          rcases Option.map_eq_some_iff.mp step with ⟨⟨device, heap⟩, committed, rfl⟩
          rcases Option.map_eq_some_iff.mp committed with ⟨⟨buffer, heap'⟩, freed, same⟩
          cases same
          unfold freeOldestEntry at freed
          split at freed
          · rcases Option.map_eq_some_iff.mp freed with ⟨heap, released, same⟩
            cases same
            exact Heap.limit_free released
          · cases freed
            rfl
      | release retval =>
          rcases Option.map_eq_some_iff.mp step with ⟨heap, released, rfl⟩
          exact Heap.limit_free released
  | llseek file offset whence =>
      cases step
      rfl
  | adjust file writeCmd writeCmdOffset =>
      simp only [Critical.step, Option.some.injEq] at step
      rw [← step]
      simp only [aesdAdjustFileOffset, if_true]
      split
      · rfl
      · split
        · rfl
        · rfl
  | done reply => contradiction

end Aesd.Driver
